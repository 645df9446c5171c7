import BearerAccess.Proofs.Config.Documented
import Mathlib.Data.List.DropRight
set_option autoImplicit false

namespace BearerAccess

namespace Config

/-- A base address without its trailing slashes. -/
structure Trimmed (url base : String) : Prop where
  slashes : ∃ rest : String, url = base ++ rest ∧ ∀ c ∈ rest.toList, c = '/'
  last : ∀ front : String, base ≠ front ++ "/"

/-- Something other than slashes follows the scheme. -/
def Continues (url : String) : Prop :=
  ∃ rest : String, (url = "http://" ++ rest ∨ url = "https://" ++ rest) ∧ ∃ c ∈ rest.toList, c ≠ '/'

section Trimming

variable {url base : String}

theorem trimmed_trimSlashes (url : String) :
    Trimmed url (String.ofList (trimSlashes url.toList)) := by
  refine ⟨⟨String.ofList (url.toList.rtakeWhile (· == '/')), ?_, ?_⟩, ?_⟩
  · rw [← String.toList_inj, String.toList_append, String.toList_ofList, String.toList_ofList]
    exact List.rdropWhile_append_rtakeWhile.symm
  · intro c hc
    rw [String.toList_ofList] at hc
    have hslash := List.mem_rtakeWhile_imp hc
    exact beq_iff_eq.1 hslash
  · intro front hfront
    have hlist : url.toList.rdropWhile (· == '/') = front.toList ++ ['/'] := by
      rw [← String.toList_inj, String.toList_append, String.toList_ofList] at hfront
      exact hfront
    have hlast := List.rdropWhile_last_not (· == '/') url.toList (by simp [hlist])
    simp [hlist] at hlast

theorem Trimmed.trimSlashes_eq (h : Trimmed url base) :
    String.ofList (trimSlashes url.toList) = base := by
  obtain ⟨⟨rest, rfl, hrest⟩, hlast⟩ := h
  have hdrop : ∀ c ∈ rest.toList.reverse, (c == '/') = true := by
    intro c hc
    exact beq_iff_eq.2 (hrest c (List.mem_reverse.1 hc))
  rw [← String.toList_inj, String.toList_ofList, String.toList_append]
  unfold trimSlashes
  rw [List.reverse_append, List.dropWhile_append_of_pos hdrop]
  refine List.rdropWhile_eq_self_iff.2 ?_
  intro hne hslash
  refine hlast (String.ofList base.toList.dropLast) ?_
  rw [← String.toList_inj, String.toList_append, String.toList_ofList]
  have hparts := List.dropLast_append_getLast hne
  rw [beq_iff_eq.1 hslash] at hparts
  exact hparts.symm

/-- Slashes that end an address do not reach into what comes before a last other character. -/
theorem Trimmed.hasScheme_append (h : Trimmed url base) (hmore : Continues url) (path : String) :
    HasScheme (base ++ path) := by
  obtain ⟨⟨slashes, rfl, hslashes⟩, -⟩ := h
  obtain ⟨rest, hscheme, c, hc, hother⟩ := hmore
  have hbegins (scheme : String) (hurl : base ++ slashes = scheme ++ rest) :
      ∃ more, base ++ path = scheme ++ more := by
    rw [← String.toList_inj, String.toList_append, String.toList_append,
      List.append_eq_append_iff] at hurl
    -- where the slashes begin inside the scheme, all that follows the scheme is among them
    rcases hurl with ⟨front, -, hrest⟩ | ⟨front, hbase, -⟩
    · refine absurd (hslashes c ?_) hother
      rw [hrest]
      exact List.mem_append_right _ hc
    · refine ⟨String.ofList front ++ path, ?_⟩
      rw [← String.append_assoc, String.append_left_inj, ← String.toList_inj, hbase,
        String.toList_append, String.toList_ofList]
  rcases hscheme with hurl | hurl
  · obtain ⟨more, hmore⟩ := hbegins _ hurl
    exact ⟨more, .inl hmore⟩
  · obtain ⟨more, hmore⟩ := hbegins _ hurl
    exact ⟨more, .inr hmore⟩

theorem ne_append_slash (h : base.toList.getLast? ≠ some '/') (front : String) :
    base ≠ front ++ "/" := by
  rintro rfl
  simp at h

theorem Trimmed.eq_of_slashes {stem rest : String} (h : Trimmed (stem ++ "//" ++ rest) base)
    (hrest : ∀ c ∈ rest.toList, c = '/') (hlast : ∀ front : String, stem ≠ front ++ "/") :
    base = stem := by
  have hslashes : ∀ c ∈ ("//" ++ rest).toList, c = '/' := by
    rw [String.toList_append]
    intro c hc
    rcases List.mem_append.1 hc with hc | hc
    · simpa using hc
    · exact hrest c hc
  have hstem : Trimmed (stem ++ "//" ++ rest) stem :=
    ⟨⟨"//" ++ rest, String.append_assoc, hslashes⟩, hlast⟩
  exact h.trimSlashes_eq.symm.trans hstem.trimSlashes_eq

theorem Trimmed.eq_of_not_continues (h : Trimmed url base) (hscheme : HasScheme url)
    (hmore : ¬Continues url) : base = "http:" ∨ base = "https:" := by
  obtain ⟨rest, hurl⟩ := hscheme
  have hrest : ∀ c ∈ rest.toList, c = '/' := by
    intro c hc
    by_contra hother
    exact hmore ⟨rest, hurl, c, hc, hother⟩
  rcases hurl with rfl | rfl
  · exact .inl (Trimmed.eq_of_slashes h hrest (ne_append_slash (by decide)))
  · exact .inr (Trimmed.eq_of_slashes h hrest (ne_append_slash (by decide)))

theorem not_hasScheme_append (h : base = "http:" ∨ base = "https:") (path : String) :
    ¬HasScheme (base ++ ("/realms/" ++ path)) := by
  rintro ⟨rest, hurl⟩
  rcases h with rfl | rfl <;> rcases hurl with hurl | hurl <;> simp [← String.toList_inj] at hurl

theorem Trimmed.hasScheme_append_iff (h : Trimmed url base) (hscheme : HasScheme url)
    (path : String) : HasScheme (base ++ ("/realms/" ++ path)) ↔ Continues url := by
  constructor
  · intro hpath
    by_contra hmore
    exact not_hasScheme_append (h.eq_of_not_continues hscheme hmore) path hpath
  · intro hmore
    exact h.hasScheme_append hmore _

end Trimming

/-- The addresses are made from the base address without its trailing slashes, and they have its
scheme exactly if something other than slashes follows it there. -/
theorem endpoints_of_accepted (vars : Variables) (c : Config) (h : ofVariables vars = .ok c) :
    ∃ base : String, Trimmed c.baseUrl base ∧
      c.endpoints.issuer = base ++ "/realms/" ++ c.realm.name ∧
      c.endpoints.certsUrl =
        base ++ "/realms/" ++ c.realm.name ++ "/protocol/openid-connect/certs" ∧
      c.endpoints.tokenUrl =
        base ++ "/realms/" ++ c.realm.name ++ "/protocol/openid-connect/token" ∧
      ∀ url ∈ [c.endpoints.issuer, c.endpoints.certsUrl, c.endpoints.tokenUrl],
        HasScheme url ↔ Continues c.baseUrl := by
  have hscheme : HasScheme c.baseUrl := (ofVariables_eq_ok.1 h).scheme
  have htrimmed := trimmed_trimSlashes c.baseUrl
  refine ⟨_, htrimmed, rfl, rfl, rfl, ?_⟩
  simp only [List.forall_mem_cons, List.not_mem_nil, false_implies, implies_true, and_true]
  simp only [Endpoints.issuer, Endpoints.certsUrl, Endpoints.tokenUrl, endpoints, Endpoints.ofBase,
    String.append_assoc]
  exact ⟨htrimmed.hasScheme_append_iff hscheme _, htrimmed.hasScheme_append_iff hscheme _,
    htrimmed.hasScheme_append_iff hscheme _⟩

theorem endpoints_of_accepted_slashes :
    ∃ base : String, Trimmed "https://id.example//" base ∧
      "https://id.example/realms/edu" = base ++ "/realms/" ++ "edu" ∧
      HasScheme "https://id.example/realms/edu" := by
  obtain ⟨base, htrimmed, hissuer, -, -, hscheme⟩ := endpoints_of_accepted
    (fun name => [("IDP_BASE_URL", "https://id.example//"), ("IDP_REALM", "edu"),
      ("IDP_CLIENT_ID", "app")].lookup name)
    ⟨"https://id.example//", ⟨"edu"⟩, "app", 14400, 10, 0, .waitForRefresh⟩ rfl
  refine ⟨base, htrimmed, hissuer, (hscheme _ List.mem_cons_self).2 ?_⟩
  exact ⟨"id.example//", .inr rfl, 'i', by decide, by decide⟩

/-- A base address may be a scheme and nothing more, and then all addresses are without it. -/
theorem scheme_lost_without_more :
    ofVariables (fun name => [("IDP_BASE_URL", "http://"), ("IDP_REALM", "edu"),
      ("IDP_CLIENT_ID", "c")].lookup name) =
      .ok ⟨"http://", ⟨"edu"⟩, "c", 14400, 10, 0, .waitForRefresh⟩ ∧
    (endpoints ⟨"http://", ⟨"edu"⟩, "c", 14400, 10, 0, .waitForRefresh⟩).issuer =
      "http:/realms/edu" ∧
    ¬HasScheme "http:/realms/edu" :=
  ⟨rfl, by decide, not_hasScheme_append (.inl rfl) "edu"⟩

end Config

end BearerAccess
