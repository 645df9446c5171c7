import BearerAccess.Http.Exchange
import BearerAccess.Realm
/-!
The addresses of a realm can be read together. They differ in their last segment only, and whether
an address can be read is settled before its path.
-/
set_option autoImplicit false

namespace BearerAccess

namespace Url

/-- Characters that are neither blanks nor controls. -/
def Visible (text : List Char) : Prop := ∀ c ∈ text, 0x20 < c.toNat

theorem dropWhile_visible {text : List Char} (h : Visible text) :
    text.dropWhile (fun c => c.toNat ≤ 0x20) = text := by
  cases text with
  | nil => rfl
  | cons c r => exact List.dropWhile_cons_of_neg (by simpa using h c (.head _))

theorem trim_append (x : List Char) {s : List Char} (h : Visible s) (hs : s ≠ []) :
    trim (x ++ s) = ((x.dropWhile fun c => c.toNat ≤ 0x20).filter fun c =>
      c != '\t' && c != '\n' && c != '\r') ++ s := by
  have hleft : (x ++ s).dropWhile (fun c => c.toNat ≤ 0x20) =
      x.dropWhile (fun c => c.toNat ≤ 0x20) ++ s := by
    rw [List.dropWhile_append, dropWhile_visible h]
    split
    · rename_i hx
      rw [List.isEmpty_iff.1 hx, List.nil_append]
    · rfl
  have hreverse : Visible s.reverse := fun c hc => h c (List.mem_reverse.1 hc)
  have hright (y : List Char) : (y ++ s).reverse.dropWhile (fun c => c.toNat ≤ 0x20) =
      (y ++ s).reverse := by
    rw [List.reverse_append, List.dropWhile_append, dropWhile_visible hreverse]
    exact if_neg (by simpa using hs)
  have hkept : s.filter (fun c => c != '\t' && c != '\n' && c != '\r') = s := by
    refine List.filter_eq_self.2 fun c hc => ?_
    have hlow (d : Char) (hd : d.toNat ≤ 0x20) : c ≠ d := by
      rintro rfl
      exact absurd hd (Nat.not_le.2 (h c hc))
    simp only [Bool.and_eq_true, bne_iff_ne]
    exact ⟨⟨hlow '\t' (by decide), hlow '\n' (by decide)⟩, hlow '\r' (by decide)⟩
  simp only [trim, hleft, hright, List.reverse_reverse, List.filter_append, hkept]

section Stop

variable {p : Char → Bool} {c : Char} (h : p c = false) (x y : List Char)

include h

theorem takeWhile_stop : (x ++ c :: y).takeWhile p = x.takeWhile p := by
  induction x with
  | nil => simp [h]
  | cons a x ih => simp only [List.cons_append, List.takeWhile_cons, ih]

theorem dropWhile_stop : (x ++ c :: y).dropWhile p = x.dropWhile p ++ c :: y := by
  induction x with
  | nil => simp [h]
  | cons a x ih =>
    simp only [List.cons_append, List.dropWhile_cons, ih]
    split <;> rfl

end Stop

theorem scheme?_append (y s : List Char) :
    scheme? (y ++ '/' :: s) = (scheme? y).map fun p => (p.1, p.2 ++ '/' :: s) := by
  have htake := takeWhile_stop (p := fun c =>
    c.isAlphanum || c == '+' || c == '-' || c == '.') (c := '/') (by decide) y s
  have hdrop := dropWhile_stop (p := fun c =>
    c.isAlphanum || c == '+' || c == '-' || c == '.') (c := '/') (by decide) y s
  simp only [scheme?, htake, hdrop]
  cases y.takeWhile _ with
  | nil => rfl
  | cons c name =>
    cases y.dropWhile _ with
    | nil => rfl
    | cons d rest =>
      by_cases hd : d = ':'
      · by_cases hc : c.isAlpha <;> simp [hd, hc]
      · simp [hd]

theorem ofRest?_isSome_append (secure : Bool) {p : List Char} (u : List Char)
    (h : ∃ c ∈ p.dropWhile isSlash, (isSlash c || c == '?' || c == '#') = true) :
    (ofRest? secure (p ++ u)).isSome = (ofRest? secure p).isSome := by
  obtain ⟨c, hc, hends⟩ := h
  have hdrop : (p ++ u).dropWhile isSlash = p.dropWhile isSlash ++ u := by
    rw [List.dropWhile_append]
    refine if_neg fun hempty => ?_
    rw [List.isEmpty_iff.1 hempty] at hc
    cases hc
  obtain ⟨a, b, hsplit⟩ := List.append_of_mem hc
  have hstop : (fun c => !(isSlash c || c == '?' || c == '#')) c = false := by simp [hends]
  have htake :
      (p.dropWhile isSlash ++ u).takeWhile (fun c => !(isSlash c || c == '?' || c == '#')) =
        (p.dropWhile isSlash).takeWhile fun c => !(isSlash c || c == '?' || c == '#') := by
    rw [hsplit, List.append_assoc, List.cons_append, takeWhile_stop hstop, takeWhile_stop hstop]
  simp only [ofRest?, hdrop, htake]
  generalize (List.dropWhile _ (p.dropWhile isSlash ++ u)) = long
  generalize (List.dropWhile _ (p.dropWhile isSlash)) = short
  generalize splitPort _ = server
  cases readHost server.1 with
  | none => rfl
  | some host =>
    cases server.2 with
    | nil => rfl
    | cons d digits =>
      by_cases hd : d = ':'
      · subst hd
        cases hport : readPort secure digits <;> simp [hport]
      · simp [hd]

/-- Whether an address can be read does not hang on what follows a slash after its server. -/
theorem ofText?_append_readable (x : List Char) {m u : List Char} (hm : Visible m) (hu : Visible u)
    (hslash : '/' ∈ m.dropWhile isSlash) :
    (∃ url, ofText? (x ++ '/' :: m ++ u) = .ok url) ↔ ∃ url, ofText? (x ++ '/' :: m) = .ok url := by
  have hpath : Visible ('/' :: m) := List.forall_mem_cons.2 ⟨by decide, hm⟩
  have hlong : Visible ('/' :: m ++ u) := fun c hc => (List.mem_append.1 hc).elim (hpath c) (hu c)
  have hserver (rest : List Char) :
      ∃ c ∈ (rest ++ '/' :: m).dropWhile isSlash, (isSlash c || c == '?' || c == '#') = true := by
    refine ⟨'/', ?_, by decide⟩
    rw [List.dropWhile_append]
    split
    · simpa [isSlash] using hslash
    · simp
  rw [ofText?, ofText?, List.append_assoc, trim_append x hlong (by simp),
    trim_append x hpath (by simp), List.cons_append, scheme?_append, scheme?_append]
  cases scheme? _ with
  | none => simp
  | some named =>
    obtain ⟨name, rest⟩ := named
    have hrest := ofRest?_isSome_append (name = "https".toList) u (hserver rest)
    rw [List.append_assoc, List.cons_append] at hrest
    simp only [Option.map_some]
    split
    · generalize ofRest? _ (rest ++ '/' :: (m ++ u)) = long at hrest ⊢
      generalize ofRest? _ (rest ++ '/' :: m) = short at hrest ⊢
      cases long <;> cases short <;> simp_all
    · simp

end Url

theorem Http.url?_eq_ok {text : String} {u : Url} :
    Http.url? text = .ok u ↔ Url.ofText? text.toList = .ok u := by
  unfold Http.url?
  cases Url.ofText? text.toList with
  | ok v => simp
  | error fault => cases fault <;> simp

/-- Where the address of a realm's keys can be read, so can the address of its decisions. -/
theorem Endpoints.tokenUrl_readable {e : Endpoints} {keys : Url}
    (h : Http.url? e.certsUrl = .ok keys) : ∃ url, Http.url? e.tokenUrl = .ok url := by
  have hcerts : e.certsUrl.toList =
      e.issuer.toList ++ '/' :: "protocol/openid-connect/".toList ++ "certs".toList := by
    simp [certsUrl]
  have htoken : e.tokenUrl.toList =
      e.issuer.toList ++ '/' :: "protocol/openid-connect/".toList ++ "token".toList := by
    simp [tokenUrl]
  have hslash : '/' ∈ "protocol/openid-connect/".toList.dropWhile Url.isSlash := by decide +kernel
  have hpath : ∀ c ∈ "protocol/openid-connect/".toList, 0x20 < c.toNat := by simp
  have hkeys : ∀ c ∈ "certs".toList, 0x20 < c.toNat := by simp
  have hdecisions : ∀ c ∈ "token".toList, 0x20 < c.toNat := by simp
  have hread := Http.url?_eq_ok.1 h
  rw [hcerts] at hread
  have hshared := (Url.ofText?_append_readable e.issuer.toList hpath hkeys hslash).1 ⟨keys, hread⟩
  obtain ⟨url, hurl⟩ :=
    (Url.ofText?_append_readable e.issuer.toList hpath hdecisions hslash).2 hshared
  exact ⟨url, Http.url?_eq_ok.2 (by rw [htoken, hurl])⟩

end BearerAccess
