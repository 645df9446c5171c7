import BearerAccess.Config
import BearerAccess.Proofs.Number.IntegerTexts
/-!
Which variables make a configuration. Each variable is judged by itself, by rules that are written
down here without regard to how it is read; a configuration is made exactly if none of them offends,
and otherwise the first that does is reported.
-/
set_option autoImplicit false

namespace BearerAccess

namespace Config

section Rules

variable (vars : Variables)

def Given (name text : String) : Prop :=
  vars name = some text ∧ ∃ c ∈ text.toList, isBlank c = false

def Missing (name : String) : Prop :=
  ∀ text, vars name = some text → ∀ c ∈ text.toList, isBlank c = true

/-- A variable that may be left out and then has a default. -/
inductive Setting {α : Type} (name : String) (means : String → α → Prop) (default : α) : α → Prop where
  | omitted (h : vars name = none) : Setting name means default default
  | given {text : String} {a : α} (h : vars name = some text) (hmeans : means text a) :
      Setting name means default a

theorem Setting.satisfies {vars : Variables} {α : Type} {name : String} {means : String → α → Prop}
    {default a : α} {P : α → Prop} (h : Setting vars name means default a) (hdefault : P default)
    (hgiven : ∀ text a, means text a → P a) : P a := by
  cases h with
  | omitted _ => exact hdefault
  | given _ hmeans => exact hgiven _ _ hmeans

end Rules

def HasScheme (url : String) : Prop := ∃ rest, url = "http://" ++ rest ∨ url = "https://" ++ rest

inductive NamesPolicy : String → RefreshPolicy → Prop where
  | wait : NamesPolicy "wait" .waitForRefresh
  | stale : NamesPolicy "stale-while-revalidate" .staleWhileRevalidate

/-- A configuration that holds what the variables say. -/
structure DescribedBy (vars : Variables) (c : Config) : Prop where
  baseUrl : Given vars "IDP_BASE_URL" c.baseUrl
  scheme : HasScheme c.baseUrl
  realm : Given vars "IDP_REALM" c.realm.name
  clientId : Given vars "IDP_CLIENT_ID" c.clientId
  ttl : Setting vars "KEY_SET_CACHE_TTL_SECONDS"
    (fun text n => DenotesNat text.toList n ∧ 1 ≤ n ∧ n ≤ 604800) 14400 c.keySetTtlSeconds
  timeout : Setting vars "IDP_HTTP_TIMEOUT_SECONDS"
    (fun text n => DenotesNat text.toList n ∧ 1 ≤ n ∧ n ≤ 60) 10 c.httpTimeoutSeconds
  skew : Setting vars "JWT_CLOCK_SKEW_SECONDS"
    (fun text (n : Nat) => DenotesInt text.toList n ∧ n ≤ 600) 0 c.clockSkewSeconds
  policy : Setting vars "KEY_SET_REFRESH_POLICY" NamesPolicy .waitForRefresh c.refreshPolicy

end Config

def ConfigError.variable : ConfigError → String
  | .missing name => name
  | .badBaseUrl _ => "IDP_BASE_URL"
  | .ttlUnreadable _ _ | .ttlZero | .ttlTooLong _ => "KEY_SET_CACHE_TTL_SECONDS"
  | .timeoutUnreadable _ _ | .timeoutOutOfRange _ => "IDP_HTTP_TIMEOUT_SECONDS"
  | .skewUnreadable _ _ | .skewNegative _ | .skewTooLong _ => "JWT_CLOCK_SKEW_SECONDS"
  | .badPolicy _ => "KEY_SET_REFRESH_POLICY"

namespace Config

/-- What is wrong with the variables, each error with all that it says. -/
def Offends (vars : Variables) : ConfigError → Prop
  | .missing name => name ∈ ["IDP_BASE_URL", "IDP_REALM", "IDP_CLIENT_ID"] ∧ Missing vars name
  | .badBaseUrl url => Given vars "IDP_BASE_URL" url ∧ ¬HasScheme url
  | .ttlUnreadable text fault =>
    vars "KEY_SET_CACHE_TTL_SECONDS" = some text ∧ NatFault text.toList fault
  | .ttlZero => ∃ text, vars "KEY_SET_CACHE_TTL_SECONDS" = some text ∧ DenotesNat text.toList 0
  | .ttlTooLong n => ∃ text, vars "KEY_SET_CACHE_TTL_SECONDS" = some text ∧
    DenotesNat text.toList n ∧ 604800 < n ∧ n ≤ maxUnsigned
  | .timeoutUnreadable text fault =>
    vars "IDP_HTTP_TIMEOUT_SECONDS" = some text ∧ NatFault text.toList fault
  | .timeoutOutOfRange n => ∃ text, vars "IDP_HTTP_TIMEOUT_SECONDS" = some text ∧
    DenotesNat text.toList n ∧ (n = 0 ∨ 60 < n) ∧ n ≤ maxUnsigned
  | .skewUnreadable text fault =>
    vars "JWT_CLOCK_SKEW_SECONDS" = some text ∧ IntFault text.toList fault
  | .skewNegative i => ∃ text, vars "JWT_CLOCK_SKEW_SECONDS" = some text ∧
    DenotesInt text.toList i ∧ i < 0 ∧ -((maxSigned : Int) + 1) ≤ i
  | .skewTooLong i => ∃ text, vars "JWT_CLOCK_SKEW_SECONDS" = some text ∧
    DenotesInt text.toList i ∧ 600 < i ∧ i ≤ maxSigned
  | .badPolicy text => vars "KEY_SET_REFRESH_POLICY" = some text ∧ ∀ policy, ¬NamesPolicy text policy

inductive FirstOffence (vars : Variables) : List String → ConfigError → Prop where
  | here {name : String} {rest : List String} {e : ConfigError} (h : Offends vars e)
      (hname : e.variable = name) : FirstOffence vars (name :: rest) e
  | later {name : String} {rest : List String} {e : ConfigError}
      (hnone : ∀ e', Offends vars e' → e'.variable ≠ name) (h : FirstOffence vars rest e) :
      FirstOffence vars (name :: rest) e

section Readers

variable {vars : Variables} {name text url : String} {e : ConfigError} {n : Nat}
  {policy : RefreshPolicy}

theorem required_eq_ok : required vars name = .ok text ↔ Given vars name text := by
  unfold required Given
  cases vars name with
  | none => simp
  | some given =>
    by_cases hblank : isAllBlank given.toList = true
    · have hall : ∀ c ∈ given.toList, isBlank c = true := by simpa [isAllBlank] using hblank
      simp only [if_pos hblank, reduceCtorEq, Option.some.injEq, false_iff]
      rintro ⟨rfl, c, hc, hvisible⟩
      simp [hall c hc] at hvisible
    · have hsome : ∃ c ∈ given.toList, isBlank c = false := by simpa [isAllBlank] using hblank
      simp only [if_neg hblank, Except.ok.injEq, Option.some.injEq]
      constructor
      · rintro rfl
        exact ⟨rfl, hsome⟩
      · exact And.left

theorem required_eq_error :
    required vars name = .error e ↔ Missing vars name ∧ e = .missing name := by
  unfold required Missing
  cases vars name with
  | none =>
    constructor
    · intro h
      cases h
      exact ⟨nofun, rfl⟩
    · rintro ⟨-, rfl⟩
      rfl
  | some given =>
    by_cases hblank : isAllBlank given.toList = true
    · have hall : ∀ c ∈ given.toList, isBlank c = true := by simpa [isAllBlank] using hblank
      simp only [if_pos hblank, Except.error.injEq, Option.some.injEq, forall_eq']
      exact ⟨fun h => ⟨hall, h.symm⟩, fun h => h.2.symm⟩
    · simp only [if_neg hblank, reduceCtorEq, Option.some.injEq, forall_eq', false_iff]
      rintro ⟨hall, -⟩
      exact hblank (by simpa [isAllBlank] using hall)

theorem begins_iff (scheme url : String) :
    scheme.toList <+: url.toList ↔ ∃ rest, url = scheme ++ rest := by
  constructor
  · rintro ⟨rest, hrest⟩
    exact ⟨String.ofList rest, by
      rw [← String.toList_inj, String.toList_append, String.toList_ofList, hrest]⟩
  · rintro ⟨rest, rfl⟩
    rw [String.toList_append]
    exact List.prefix_append _ _

theorem hasScheme_iff : ("http://".toList.isPrefixOf url.toList ||
    "https://".toList.isPrefixOf url.toList) = true ↔ HasScheme url := by
  rw [Bool.or_eq_true, List.isPrefixOf_iff_prefix, List.isPrefixOf_iff_prefix, begins_iff,
    begins_iff, ← exists_or]
  rfl

theorem readBaseUrl_eq_ok :
    readBaseUrl vars = .ok url ↔ Given vars "IDP_BASE_URL" url ∧ HasScheme url := by
  unfold readBaseUrl
  simp only [bind_eq_ok, required_eq_ok]
  constructor
  · rintro ⟨given, hgiven, h⟩
    split at h
    · rename_i hscheme
      obtain rfl := pure_eq_ok.1 h
      exact ⟨hgiven, hasScheme_iff.1 hscheme⟩
    · cases h
  · rintro ⟨hgiven, hscheme⟩
    exact ⟨url, hgiven, by rw [if_pos (hasScheme_iff.2 hscheme), pure_eq_ok]⟩

theorem readBaseUrl_eq_error :
    readBaseUrl vars = .error e ↔ Offends vars e ∧ e.variable = "IDP_BASE_URL" := by
  unfold readBaseUrl
  simp only [bind_eq_error, required_eq_ok, required_eq_error]
  constructor
  · rintro (⟨hmissing, rfl⟩ | ⟨url, hgiven, h⟩)
    · exact ⟨⟨List.mem_cons_self, hmissing⟩, rfl⟩
    · split at h
      · cases h
      · rename_i hscheme
        cases h
        exact ⟨⟨hgiven, fun h => hscheme (hasScheme_iff.2 h)⟩, rfl⟩
  · rintro ⟨hoffends, hname⟩
    cases e with
    | missing name =>
      obtain rfl : name = _ := hname
      exact .inl ⟨hoffends.2, rfl⟩
    | badBaseUrl url =>
      obtain ⟨hgiven, hscheme⟩ := hoffends
      exact .inr ⟨url, hgiven, by rw [if_neg fun h => hscheme (hasScheme_iff.1 h)]; rfl⟩
    | _ => simp [ConfigError.variable] at hname

theorem readTtl_eq_ok : readTtl vars = .ok n ↔ Setting vars "KEY_SET_CACHE_TTL_SECONDS"
    (fun text n => DenotesNat text.toList n ∧ 1 ≤ n ∧ n ≤ 604800) 14400 n := by
  unfold readTtl
  constructor
  · intro h
    split at h
    · cases h
      exact .omitted ‹_›
    · rename_i text htext
      split at h
      · cases h
      · rename_i m hread
        split at h
        · cases h
        · rename_i hzero
          split at h
          · cases h
          · rename_i hmax
            cases h
            exact .given htext ⟨(readUnsigned_eq_ok.1 hread).1, Nat.one_le_iff_ne_zero.2 hzero,
              Nat.not_lt.1 hmax⟩
  · rintro (hnone | ⟨htext, hdenotes, hlow, hhigh⟩)
    · rw [hnone]
      rfl
    · have hread := readUnsigned_eq_ok.2 ⟨hdenotes, by simp only [maxUnsigned]; omega⟩
      simp only [htext, hread]
      rw [if_neg (by omega), if_neg (show ¬maxKeySetTtlSeconds < n from Nat.not_lt.2 hhigh)]

theorem readTtl_eq_error :
    readTtl vars = .error e ↔ Offends vars e ∧ e.variable = "KEY_SET_CACHE_TTL_SECONDS" := by
  unfold readTtl
  constructor
  · intro h
    split at h
    · cases h
    · rename_i text htext
      split at h
      · rename_i fault hread
        cases h
        exact ⟨⟨htext, readUnsigned_eq_error.1 hread⟩, rfl⟩
      · rename_i m hread
        obtain ⟨hdenotes, hfits⟩ := readUnsigned_eq_ok.1 hread
        split at h
        · rename_i hzero
          cases h
          exact ⟨⟨text, htext, hzero ▸ hdenotes⟩, rfl⟩
        · split at h
          · rename_i hmax
            cases h
            exact ⟨⟨text, htext, hdenotes, hmax, hfits⟩, rfl⟩
          · cases h
  · rintro ⟨hoffends, hname⟩
    cases e with
    | ttlUnreadable text fault =>
      simp only [hoffends.1, readUnsigned_eq_error.2 hoffends.2]
    | ttlZero =>
      obtain ⟨text, htext, hdenotes⟩ := hoffends
      simp only [htext, readUnsigned_eq_ok.2 ⟨hdenotes, Nat.zero_le _⟩]
      rfl
    | ttlTooLong m =>
      obtain ⟨text, htext, hdenotes, hmax, hfits⟩ := hoffends
      simp only [htext, readUnsigned_eq_ok.2 ⟨hdenotes, hfits⟩]
      rw [if_neg (by omega), if_pos (show maxKeySetTtlSeconds < m from hmax)]
    | missing name =>
      obtain rfl : name = _ := hname
      simp [Offends] at hoffends
    | _ => simp [ConfigError.variable] at hname

theorem readTimeout_eq_ok : readTimeout vars = .ok n ↔ Setting vars "IDP_HTTP_TIMEOUT_SECONDS"
    (fun text n => DenotesNat text.toList n ∧ 1 ≤ n ∧ n ≤ 60) 10 n := by
  unfold readTimeout
  constructor
  · intro h
    split at h
    · cases h
      exact .omitted ‹_›
    · rename_i text htext
      split at h
      · cases h
      · rename_i m hread
        split at h
        · rename_i hrange
          cases h
          exact .given htext ⟨(readUnsigned_eq_ok.1 hread).1, hrange⟩
        · cases h
  · rintro (hnone | ⟨htext, hdenotes, hrange⟩)
    · rw [hnone]
      rfl
    · have hread := readUnsigned_eq_ok.2 ⟨hdenotes, by simp only [maxUnsigned]; omega⟩
      simp only [htext, hread]
      rw [if_pos (show 1 ≤ n ∧ n ≤ maxHttpTimeoutSeconds from hrange)]

theorem readTimeout_eq_error :
    readTimeout vars = .error e ↔ Offends vars e ∧ e.variable = "IDP_HTTP_TIMEOUT_SECONDS" := by
  have hrange (m : Nat) : ¬(1 ≤ m ∧ m ≤ maxHttpTimeoutSeconds) ↔ m = 0 ∨ 60 < m := by
    simp only [maxHttpTimeoutSeconds]
    omega
  unfold readTimeout
  constructor
  · intro h
    split at h
    · cases h
    · rename_i text htext
      split at h
      · rename_i fault hread
        cases h
        exact ⟨⟨htext, readUnsigned_eq_error.1 hread⟩, rfl⟩
      · rename_i m hread
        obtain ⟨hdenotes, hfits⟩ := readUnsigned_eq_ok.1 hread
        split at h
        · cases h
        · rename_i hout
          cases h
          exact ⟨⟨text, htext, hdenotes, (hrange m).1 hout, hfits⟩, rfl⟩
  · rintro ⟨hoffends, hname⟩
    cases e with
    | timeoutUnreadable text fault =>
      simp only [hoffends.1, readUnsigned_eq_error.2 hoffends.2]
    | timeoutOutOfRange m =>
      obtain ⟨text, htext, hdenotes, hout, hfits⟩ := hoffends
      simp only [htext, readUnsigned_eq_ok.2 ⟨hdenotes, hfits⟩, if_neg ((hrange m).2 hout)]
    | missing name =>
      obtain rfl : name = _ := hname
      simp [Offends] at hoffends
    | _ => simp [ConfigError.variable] at hname

theorem readSkew_eq_ok : readSkew vars = .ok n ↔ Setting vars "JWT_CLOCK_SKEW_SECONDS"
    (fun text (n : Nat) => DenotesInt text.toList n ∧ n ≤ 600) 0 n := by
  unfold readSkew
  constructor
  · intro h
    split at h
    · cases h
      exact .omitted ‹_›
    · rename_i text htext
      split at h
      · cases h
      · rename_i i hread
        obtain ⟨hdenotes, -⟩ := readSigned_eq_ok.1 hread
        split at h
        · cases h
        · split at h
          · cases h
          · rename_i hnonneg hmax
            have hmax : i ≤ 600 := Int.not_lt.1 hmax
            cases h
            refine .given htext ⟨?_, by omega⟩
            rwa [Int.toNat_of_nonneg (Int.not_lt.1 hnonneg)]
  · rintro (hnone | ⟨htext, hdenotes, hmax⟩)
    · rw [hnone]
      rfl
    · have hread := readSigned_eq_ok.2 ⟨hdenotes, by omega, by simp only [maxSigned]; omega⟩
      have hle : (n : Int) ≤ (maxClockSkewSeconds : Int) := Int.ofNat_le.2 hmax
      simp only [htext, hread]
      rw [if_neg (by omega), if_neg (by omega), Int.toNat_natCast]

theorem readSkew_eq_error :
    readSkew vars = .error e ↔ Offends vars e ∧ e.variable = "JWT_CLOCK_SKEW_SECONDS" := by
  unfold readSkew
  constructor
  · intro h
    split at h
    · cases h
    · rename_i text htext
      split at h
      · rename_i fault hread
        cases h
        exact ⟨⟨htext, readSigned_eq_error.1 hread⟩, rfl⟩
      · rename_i i hread
        obtain ⟨hdenotes, hlow, hhigh⟩ := readSigned_eq_ok.1 hread
        split at h
        · rename_i hnegative
          cases h
          exact ⟨⟨text, htext, hdenotes, hnegative, hlow⟩, rfl⟩
        · split at h
          · rename_i hmax
            cases h
            exact ⟨⟨text, htext, hdenotes, hmax, hhigh⟩, rfl⟩
          · cases h
  · rintro ⟨hoffends, hname⟩
    cases e with
    | skewUnreadable text fault =>
      simp only [hoffends.1, readSigned_eq_error.2 hoffends.2]
    | skewNegative i =>
      obtain ⟨text, htext, hdenotes, hnegative, hlow⟩ := hoffends
      simp only [htext, readSigned_eq_ok.2 ⟨hdenotes, hlow, by omega⟩, if_pos hnegative]
    | skewTooLong i =>
      obtain ⟨text, htext, hdenotes, hmax, hhigh⟩ := hoffends
      simp only [htext, readSigned_eq_ok.2 ⟨hdenotes, by omega, hhigh⟩]
      rw [if_neg (by omega), if_pos (show (maxClockSkewSeconds : Int) < i from hmax)]
    | missing name =>
      obtain rfl : name = _ := hname
      simp [Offends] at hoffends
    | _ => simp [ConfigError.variable] at hname

theorem refreshPolicy_ofText?_eq_some : RefreshPolicy.ofText? text = some policy ↔
    NamesPolicy text policy := by
  unfold RefreshPolicy.ofText?
  constructor
  · intro h
    split at h
    · cases h
      subst text
      exact .wait
    · split at h
      · cases h
        subst text
        exact .stale
      · cases h
  · rintro (_ | _)
    · rfl
    · simp

theorem readPolicy_eq_ok : readPolicy vars = .ok policy ↔
    Setting vars "KEY_SET_REFRESH_POLICY" NamesPolicy .waitForRefresh policy := by
  unfold readPolicy
  constructor
  · intro h
    split at h
    · cases h
      exact .omitted ‹_›
    · rename_i text htext
      split at h
      · rename_i policy hpolicy
        cases h
        exact .given htext (refreshPolicy_ofText?_eq_some.1 hpolicy)
      · cases h
  · rintro (hnone | ⟨htext, hpolicy⟩)
    · rw [hnone]
    · simp only [htext, refreshPolicy_ofText?_eq_some.2 hpolicy]

theorem readPolicy_eq_error :
    readPolicy vars = .error e ↔ Offends vars e ∧ e.variable = "KEY_SET_REFRESH_POLICY" := by
  have hnone (text : String) :
      RefreshPolicy.ofText? text = none ↔ ∀ policy, ¬NamesPolicy text policy := by
    simp only [← refreshPolicy_ofText?_eq_some, Option.eq_none_iff_forall_ne_some, ne_eq]
  unfold readPolicy
  constructor
  · intro h
    split at h
    · cases h
    · rename_i text htext
      split at h
      · cases h
      · rename_i hpolicy
        cases h
        exact ⟨⟨htext, (hnone text).1 hpolicy⟩, rfl⟩
  · rintro ⟨hoffends, hname⟩
    cases e with
    | badPolicy text => simp only [hoffends.1, (hnone text).2 hoffends.2]
    | missing name =>
      obtain rfl : name = _ := hname
      simp [Offends] at hoffends
    | _ => simp [ConfigError.variable] at hname

theorem required_eq_offence (hname : name = "IDP_REALM" ∨ name = "IDP_CLIENT_ID") :
    required vars name = .error e ↔ Offends vars e ∧ e.variable = name := by
  rw [required_eq_error]
  constructor
  · rintro ⟨hmissing, rfl⟩
    refine ⟨⟨?_, hmissing⟩, rfl⟩
    rcases hname with rfl | rfl <;> simp
  · rintro ⟨hoffends, hvariable⟩
    cases e with
    | missing name' =>
      obtain rfl : name' = name := hvariable
      exact ⟨hoffends.2, rfl⟩
    | _ => rcases hname with rfl | rfl <;> simp [ConfigError.variable] at hvariable

end Readers

section Result

variable {vars : Variables} {name : String} {rest : List String} {e : ConfigError} {c : Config}

/-- If a step fails just as one variable may offend, then the steps from there on fail with the first
offence of that variable and those after it. -/
theorem bind_eq_first {α : Type} {read : Except ConfigError α} {next : α → Except ConfigError Config}
    (hread : ∀ {e}, read = .error e ↔ Offends vars e ∧ e.variable = name)
    (hnext : ∀ a, next a = .error e ↔ FirstOffence vars rest e) :
    (read >>= next) = .error e ↔ FirstOffence vars (name :: rest) e := by
  rw [bind_eq_error]
  constructor
  · rintro (hfails | ⟨a, ha, hrest⟩)
    · obtain ⟨hoffends, hname⟩ := hread.1 hfails
      exact .here hoffends hname
    · refine .later (fun e' hoffends hname => ?_) ((hnext a).1 hrest)
      rw [hread.2 ⟨hoffends, hname⟩] at ha
      cases ha
  · rintro (⟨hoffends, hname⟩ | ⟨hnone, hrest⟩)
    · exact .inl (hread.2 ⟨hoffends, hname⟩)
    · cases hresult : read with
      | error e' =>
        obtain ⟨hoffends, hname⟩ := hread.1 hresult
        exact absurd hname (hnone e' hoffends)
      | ok a => exact .inr ⟨a, rfl, (hnext a).2 hrest⟩

theorem ofVariables_eq_ok : ofVariables vars = .ok c ↔ DescribedBy vars c := by
  simp only [ofVariables, bind_eq_ok, pure_eq_ok, readBaseUrl_eq_ok, required_eq_ok, readTtl_eq_ok,
    readTimeout_eq_ok, readSkew_eq_ok, readPolicy_eq_ok]
  constructor
  · rintro ⟨baseUrl, ⟨hbase, hscheme⟩, realm, hrealm, clientId, hclient, ttl, httl, timeout, htimeout,
      skew, hskew, policy, hpolicy, rfl⟩
    exact ⟨hbase, hscheme, hrealm, hclient, httl, htimeout, hskew, hpolicy⟩
  · intro h
    exact ⟨_, ⟨h.baseUrl, h.scheme⟩, _, h.realm, _, h.clientId, _, h.ttl, _, h.timeout, _, h.skew,
      _, h.policy, rfl⟩

theorem ofVariables_eq_error :
    ofVariables vars = .error e ↔ FirstOffence vars variableNames e := by
  -- one step for each name of `variableNames`, in its order; after the last one nothing can fail
  refine bind_eq_first readBaseUrl_eq_error fun _ => ?_
  refine bind_eq_first (required_eq_offence (.inl rfl)) fun _ => ?_
  refine bind_eq_first (required_eq_offence (.inr rfl)) fun _ => ?_
  refine bind_eq_first readTtl_eq_error fun _ => ?_
  refine bind_eq_first readTimeout_eq_error fun _ => ?_
  refine bind_eq_first readSkew_eq_error fun _ => ?_
  refine bind_eq_first readPolicy_eq_error fun _ => ?_
  exact ⟨nofun, nofun⟩

theorem FirstOffence.offends {names : List String} (h : FirstOffence vars names e) :
    Offends vars e := by
  induction h with
  | here h => exact h
  | later _ _ ih => exact ih

theorem exists_first {names : List String} (h : Offends vars e) (hname : e.variable ∈ names) :
    ∃ e', FirstOffence vars names e' := by
  induction names with
  | nil => cases hname
  | cons name rest ih =>
    by_cases hhere : ∃ e', Offends vars e' ∧ e'.variable = name
    · obtain ⟨e', hoffends, hvariable⟩ := hhere
      exact ⟨e', .here hoffends hvariable⟩
    · have hnone : ∀ e', Offends vars e' → e'.variable ≠ name := by
        intro e' hoffends hvariable
        exact hhere ⟨e', hoffends, hvariable⟩
      obtain ⟨e', hfirst⟩ := ih ((List.mem_cons.1 hname).resolve_left (hnone e h))
      exact ⟨e', .later hnone hfirst⟩

theorem Offends.variable_mem (h : Offends vars e) : e.variable ∈ variableNames := by
  cases e with
  | missing name =>
    obtain ⟨hname, -⟩ := h
    exact List.mem_of_mem_take (i := 3) hname
  | _ => simp [ConfigError.variable, variableNames]

theorem exists_ofVariables_iff : (∃ c, ofVariables vars = .ok c) ↔ ∀ e, ¬Offends vars e := by
  constructor
  · rintro ⟨c, hc⟩ e hoffends
    obtain ⟨e', hfirst⟩ := exists_first hoffends hoffends.variable_mem
    rw [ofVariables_eq_error.2 hfirst] at hc
    cases hc
  · intro hnone
    cases hresult : ofVariables vars with
    | error e => exact absurd (ofVariables_eq_error.1 hresult).offends (hnone e)
    | ok c => exact ⟨c, rfl⟩

theorem ofVariables_congr {vars' : Variables}
    (h : ∀ name ∈ variableNames, vars' name = vars name) : ofVariables vars' = ofVariables vars := by
  simp only [variableNames, List.forall_mem_cons, List.not_mem_nil, false_implies, implies_true,
    and_true] at h
  obtain ⟨hbase, hrealm, hclient, httl, htimeout, hskew, hpolicy⟩ := h
  simp only [ofVariables, readBaseUrl, required, readTtl, readTimeout, readSkew, readPolicy, hbase,
    hrealm, hclient, httl, htimeout, hskew, hpolicy]

theorem DescribedBy.within (h : DescribedBy vars c) :
    (1 ≤ c.keySetTtlSeconds ∧ c.keySetTtlSeconds ≤ 604800) ∧
    (1 ≤ c.httpTimeoutSeconds ∧ c.httpTimeoutSeconds ≤ 60) ∧ c.clockSkewSeconds ≤ 600 :=
  ⟨h.ttl.satisfies (by decide) fun _ _ hmeans => hmeans.2,
    h.timeout.satisfies (by decide) fun _ _ hmeans => hmeans.2,
    h.skew.satisfies (by decide) fun _ _ hmeans => hmeans.2⟩

end Result

end Config

theorem ConfigError.variable_prefix_detail (e : ConfigError) :
    e.variable.toList <+: e.detail.toList := by
  have hbegins {name text : String} (rest : String) (h : name.toList <+: text.toList) :
      name.toList <+: (text ++ rest).toList := by
    rw [String.toList_append]
    exact h.trans (List.prefix_append _ _)
  have hunreadable (name kind text : String) (fault : IntegerFault) :
      name.toList <+: (unreadable name kind text fault).toList :=
    hbegins _ (hbegins _ (hbegins _ (hbegins _ (hbegins _ (hbegins _ (List.prefix_refl _))))))
  cases e <;> dsimp only [ConfigError.variable]
  case missing name => exact List.prefix_refl _
  case badBaseUrl url => exact hbegins _ (hbegins _ (by decide))
  case ttlUnreadable text fault => exact hunreadable ..
  case ttlZero => decide
  case ttlTooLong n => exact hbegins _ (hbegins _ (hbegins _ (by decide)))
  case timeoutUnreadable text fault => exact hunreadable ..
  case timeoutOutOfRange n => exact hbegins _ (hbegins _ (hbegins _ (by decide)))
  case skewUnreadable text fault => exact hunreadable ..
  case skewNegative i => exact hbegins _ (by decide)
  case skewTooLong i => exact hbegins _ (hbegins _ (hbegins _ (by decide)))
  case badPolicy text => exact hbegins _ (hbegins _ (by decide))

namespace Config

/-- Variables make a configuration exactly if none of them offends, and then it holds what they say,
with times in their ranges. Otherwise the error is that of the first that offends, which it names.
What other variables are set to makes no difference. -/
theorem accepted_as_documented (vars : Variables) :
    (∀ c, ofVariables vars = .ok c ↔ DescribedBy vars c) ∧
    ((∃ c, ofVariables vars = .ok c) ↔ ∀ e, ¬Offends vars e) ∧
    (∀ e, ofVariables vars = .error e ↔ FirstOffence vars variableNames e) ∧
    (∀ e, ofVariables vars = .error e → e.variable.toList <+: e.detail.toList) ∧
    (∀ vars', (∀ name ∈ variableNames, vars' name = vars name) →
      ofVariables vars' = ofVariables vars) ∧
    (∀ c, ofVariables vars = .ok c →
      (1 ≤ c.keySetTtlSeconds ∧ c.keySetTtlSeconds ≤ 604800) ∧
      (1 ≤ c.httpTimeoutSeconds ∧ c.httpTimeoutSeconds ≤ 60) ∧ c.clockSkewSeconds ≤ 600) :=
  ⟨fun _ => ofVariables_eq_ok, exists_ofVariables_iff, fun _ => ofVariables_eq_error,
    fun e _ => e.variable_prefix_detail, fun _ h => ofVariables_congr h,
    fun _ h => (ofVariables_eq_ok.1 h).within⟩

theorem accepted_as_documented_padded :
    DescribedBy (fun name => [("IDP_BASE_URL", "https://id/"), ("IDP_REALM", " edu"),
      ("IDP_CLIENT_ID", "app"), ("KEY_SET_CACHE_TTL_SECONDS", "+0300"),
      ("JWT_CLOCK_SKEW_SECONDS", "-0"), ("IDP_PROXY", "none")].lookup name)
      ⟨"https://id/", ⟨" edu"⟩, "app", 300, 10, 0, .waitForRefresh⟩ ∧
    FirstOffence (fun name => [("IDP_BASE_URL", "http://id"), ("IDP_REALM", "edu"),
      ("IDP_CLIENT_ID", "app"), ("IDP_HTTP_TIMEOUT_SECONDS", "061"),
      ("JWT_CLOCK_SKEW_SECONDS", "-1")].lookup name) variableNames (.timeoutOutOfRange 61) ∧
    (ConfigError.timeoutOutOfRange 61).variable.toList <+:
      (ConfigError.timeoutOutOfRange 61).detail.toList ∧
    ofVariables (fun name => if name = "IDP_PROXY" then some "none" else none) =
      ofVariables fun _ => none :=
  ⟨((accepted_as_documented _).1 _).1 rfl, ((accepted_as_documented _).2.2.1 _).1 rfl,
    (accepted_as_documented fun name => [("IDP_BASE_URL", "http://id"), ("IDP_REALM", "edu"),
      ("IDP_CLIENT_ID", "app"), ("IDP_HTTP_TIMEOUT_SECONDS", "061")].lookup name).2.2.2.1 _ rfl,
    (accepted_as_documented _).2.2.2.2.1 _ (by simp [variableNames])⟩

end Config

end BearerAccess
