import BearerAccess.Proofs.Text.Utf8
import BearerAccess.RequestGuard
set_option autoImplicit false

namespace BearerAccess.Request

def IsAuthorization (name : List Char) : Prop := name.map Char.toLower = "authorization".toList

def IsFieldByte (b : UInt8) : Prop := b = 0x09 ∨ 0x20 ≤ b ∧ b ≤ 0x7E

/-- The first authorization field of a request spells the scheme, a space, and a token. -/
structure Presents (r : Request) (token : String) : Prop where
  first : ∃ before name after, r.headers = before ++ (name, bytesOf ("Bearer " ++ token)) :: after ∧
    IsAuthorization name ∧ ∀ h ∈ before, ¬IsAuthorization h.1
  visible : ∀ b ∈ bytesOf ("Bearer " ++ token), IsFieldByte b
  nonempty : token ≠ ""

theorem header?_eq_some {r : Request} {value : Bytes} :
    r.header? "authorization".toList = some value ↔
      ∃ before name after, r.headers = before ++ (name, value) :: after ∧ IsAuthorization name ∧
        ∀ h ∈ before, ¬IsAuthorization h.1 := by
  simp only [header?, Option.map_eq_some_iff, List.find?_eq_some_iff_append, IsAuthorization]
  constructor
  · rintro ⟨⟨name, _⟩, ⟨hname, before, after, hsplit, hbefore⟩, rfl⟩
    exact ⟨before, name, after, hsplit, by simpa using hname,
      fun h hm => by simpa using hbefore h hm⟩
  · rintro ⟨before, name, after, hsplit, hname, hbefore⟩
    exact ⟨(name, value), ⟨by simpa using hname, before, after, hsplit,
      fun h hm => by simpa using hbefore h hm⟩, rfl⟩

theorem IsFieldByte.lt {b : UInt8} (h : IsFieldByte b) : b < 0x80 := by
  rcases h with rfl | ⟨-, h⟩
  · decide
  · exact Nat.lt_of_le_of_lt (show b.toNat ≤ 0x7E from h) (by decide : 0x7E < 0x80)

theorem fieldText?_eq_some {value : Bytes} {text : List Char} :
    fieldText? value = some text ↔ (∀ b ∈ value, IsFieldByte b) ∧ value = utf8 text := by
  have hguard : (value.all fun b => b = 0x09 ∨ (0x20 ≤ b ∧ b ≤ 0x7E)) = true ↔
      ∀ b ∈ value, IsFieldByte b := by
    simp only [List.all_eq_true, decide_eq_true_eq, IsFieldByte]
  have hspelt (h : ∀ b ∈ value, IsFieldByte b) :
      utf8 (value.map fun b => Char.ofNat b.toNat) = value := utf8_ascii fun b hb => (h b hb).lt
  unfold fieldText?
  split
  · rename_i h
    have hbytes := hguard.1 h
    constructor
    · intro ht
      obtain rfl := Option.some.inj ht
      exact ⟨hbytes, (hspelt hbytes).symm⟩
    · rintro ⟨-, hvalue⟩
      exact congrArg some (utf8_injective ((hspelt hbytes).trans hvalue))
  · rename_i h
    exact ⟨nofun, fun ht => absurd (hguard.2 ht.1) h⟩

theorem after?_eq_some {start text rest : List Char} :
    after? start text = some rest ↔ text = start ++ rest := by
  induction start generalizing text with
  | nil => simp [after?]
  | cons p start ih =>
    cases text with
    | nil => simp [after?]
    | cons c text =>
      by_cases hc : p = c
      · simp [after?, hc, ih]
      · simp [after?, hc, Ne.symm hc]

theorem bearer?_eq_some {r : Request} {token : String} :
    r.bearer? = some token ↔ r.Presents token := by
  have hbytes (chars : List Char) (hc : token.toList = chars) :
      bytesOf ("Bearer " ++ token) = utf8 ("Bearer ".toList ++ chars) := by
    rw [bytesOf, String.toList_append, hc]
  simp only [bearer?, Option.bind_eq_bind, Option.bind_eq_some_iff]
  constructor
  · rintro ⟨value, hvalue, text, htext, chars, hchars, hsome⟩
    obtain ⟨hvisible, rfl⟩ := fieldText?_eq_some.1 htext
    obtain rfl := after?_eq_some.1 hchars
    split at hsome
    · cases hsome
    · rename_i hne
      obtain rfl : String.ofList chars = token := Option.some.inj hsome
      rw [← hbytes chars String.toList_ofList] at hvalue hvisible
      exact ⟨header?_eq_some.1 hvalue, hvisible, by simpa using hne⟩
  · rintro ⟨hfirst, hvisible, hne⟩
    refine ⟨_, header?_eq_some.2 hfirst, "Bearer ".toList ++ token.toList,
      fieldText?_eq_some.2 ⟨hvisible, hbytes _ rfl⟩, token.toList, after?_eq_some.2 rfl, ?_⟩
    rw [if_neg (by simpa using hne), String.ofList_toList]
    rfl

theorem bearer?_eq_none {r : Request} : r.bearer? = none ↔ ∀ token, ¬r.Presents token := by
  simp [← bearer?_eq_some, Option.eq_none_iff_forall_ne_some]

end BearerAccess.Request
