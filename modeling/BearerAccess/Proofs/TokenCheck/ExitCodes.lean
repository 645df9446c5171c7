import BearerAccess.Proofs.Decision.Course
import BearerAccess.Proofs.Permission.Elements
import BearerAccess.Proofs.Sequence
import BearerAccess.Proofs.Service.Asking
import BearerAccess.TokenCheck
import Mathlib.Data.List.Forall2
set_option autoImplicit false

namespace BearerAccess.TokenCheck

open Json

theorem isOk_iff {ε α : Type} {x : Except ε α} : x.isOk = true ↔ ∃ a, x = .ok a := by
  cases x <;> simp [Except.isOk, Except.toBool]

theorem readPermissions_eq_ok {texts : List String} {named : List Permission} :
    readPermissions texts = .ok named ↔
      List.Forall₂ (fun text p => Permission.ofText? text = .ok p) texts named := by
  induction texts generalizing named with
  | nil => simp [readPermissions, eq_comm]
  | cons text texts ih =>
    simp only [readPermissions, bind_eq_ok, pure_eq_ok, List.forall₂_cons_left_iff]
    constructor
    · rintro ⟨p, hp, ps, hps, rfl⟩
      exact ⟨p, ps, hp, ih.1 hps, rfl⟩
    · rintro ⟨p, ps, hp, hps, rfl⟩
      exact ⟨p, hp, ps, ih.2 hps, rfl⟩

theorem readPermissions_eq_error {texts : List String} :
    (∃ fault, readPermissions texts = .error fault) ↔
      ∃ text ∈ texts, ∀ p, Permission.ofText? text ≠ .ok p := by
  induction texts with
  | nil => simp [readPermissions]
  | cons text texts ih =>
    simp only [readPermissions, bind_eq_error, List.exists_mem_cons_iff]
    cases hp : Permission.ofText? text with
    | error fault => simp
    | ok p => simp [← ih, pure, Except.pure]

variable {σ : Type}

def judge (v : Service) (peer : Peer σ) (now : Int64) (token : String) (permissions : PermissionSet)
    (provider : σ) : Outcome × σ :=
  match v.authenticate peer now token (Service.initial provider) with
  | (.error _, s) => (.verdict none permissions none, s.provider)
  | (.ok claims, s) =>
    if permissions.isEmpty then (.verdict (some claims) permissions none, s.provider)
    else
      let (granted, s) := v.isGranted peer token permissions s
      (.verdict (some claims) permissions (some granted), s.provider)

section Run

variable (check : SignatureCheck) (link : Link) (peer : Peer σ) (now : Int64) (vars : Variables)
  (token : String) (provider : σ) {texts : List String} {named : List Permission} {config : Config}

theorem run_eq_judge (hnamed : readPermissions texts = .ok named)
    (hconfig : Config.ofVariables vars = .ok config) :
    run check link peer now vars (token :: texts) provider =
      judge ⟨config, check, link⟩ peer now token (.ofList named) provider := by
  rcases hr : Service.authenticate ⟨config, check, link⟩ peer now token
    (Service.initial provider) with ⟨rejection | claims, s⟩ <;>
    simp only [run, judge, hnamed, hconfig, hr]

theorem run_of_unread (h : (∃ fault, readPermissions texts = .error fault) ∨
      ∃ e, Config.ofVariables vars = .error e) :
    ∃ outcome, outcome.exitCode = 1 ∧ outcome.output = "" ∧
      ∀ (τ : Type) (peer : Peer τ) (provider : τ),
        run check link peer now vars (token :: texts) provider = (outcome, provider) := by
  cases hnamed : readPermissions texts with
  | error fault =>
    exact ⟨.badPermission fault, rfl, rfl, fun τ peer provider => by simp [run, hnamed]⟩
  | ok named =>
    rcases h with ⟨fault, hfault⟩ | ⟨e, he⟩
    · cases hnamed.symm.trans hfault
    · exact ⟨.badConfig e, rfl, rfl, fun τ peer provider => by simp [run, hnamed, he]⟩

end Run

section Judge

variable (v : Service) (peer : Peer σ) (now : Int64) (token : String) (permissions : PermissionSet)
  (provider : σ)

def Asking : Prop :=
  (v.authenticate peer now token (Service.initial provider)).1.isOk = true ∧
    permissions.isEmpty = false

/-- The provider can be asked for all the permissions together, and says yes. -/
def Granted : Prop :=
  ∃ r a time s', Decision.request v.config.endpoints v.config.clientId token permissions = .ok r ∧
    Decision.Inquiry v.config.endpoints v.config.clientId token permissions.toList r ∧
    Http.send v.link peer v.timeout r
      (v.authenticate peer now token (Service.initial provider)).2.provider = ((.ok a, time), s') ∧
    a.status = 200 ∧ Decision.Reads a true

theorem isGranted_iff : (v.isGranted peer token permissions
    (v.authenticate peer now token (Service.initial provider)).2).1 = true ↔
      Granted v peer now token permissions provider := by
  generalize hs : (v.authenticate peer now token (Service.initial provider)).2 = s
  simp only [Service.isGranted, Gate.isGranted, Gate.isYes_iff, Service.decider, Decision.ask_eq_ok,
    Decision.ofResponse_eq_ok, Bool.true_eq_false, false_and, or_false, Granted, hs]
  constructor
  · rintro ⟨r, a, time, s', hr, hanswer⟩
    exact ⟨r, a, time, s', hr, Decision.inquiry_of_request hr, hanswer⟩
  · rintro ⟨r, a, time, s', hr, -, hanswer⟩
    exact ⟨r, a, time, s', hr, hanswer⟩

theorem judge_overheard : ∃ fetch decision,
    KeySet.Fetches v.link v.config.endpoints fetch ∧
    (decision ≠ [] ↔ Asking v peer now token permissions provider) ∧
    (decision ≠ [] → ∃ r,
      Decision.request v.config.endpoints v.config.clientId token permissions = .ok r ∧
        Decision.Inquiry v.config.endpoints v.config.clientId token permissions.toList r ∧
        Http.Sends v.link r decision) ∧
    Http.Overheard [] (fetch ++ decision) (judge v peer now token permissions provider)
      (judge v (Http.overheard peer) now token permissions (provider, [])) := by
  obtain ⟨fetch, hfetch, hheard⟩ :=
    v.authenticate_overheard peer now token (Service.initial provider) []
  have hsame :
      v.authenticate (Http.overheard peer) now token (Service.initial (provider, [])) = _ := hheard
  unfold Asking Http.Overheard judge
  rw [hsame]
  cases hr : v.authenticate peer now token (Service.initial provider) with
  | mk verdict s =>
    cases verdict with
    | error rejection =>
      exact ⟨fetch, [], hfetch, by simp [Except.isOk, Except.toBool], by simp, by simp⟩
    | ok claims =>
      by_cases hempty : permissions.isEmpty = true
      · exact ⟨fetch, [], hfetch, by simp [hempty], by simp, by simp [hempty]⟩
      · obtain ⟨hup, r, hrequest, hinquiry⟩ :=
          Service.request_of_accepted (congrArg Prod.fst hr) permissions
        obtain ⟨decision, hasks, hdecided⟩ :=
          v.isGranted_overheard peer token s permissions fetch
        dsimp only at hdecided
        have hsends := hasks.sends hrequest
        have hsent : decision ≠ [] := Http.Sends.ne_nil (hup ▸ hsends)
        refine ⟨fetch, decision, hfetch, ?_, fun _ => ⟨r, hrequest, hinquiry, hsends⟩, ?_⟩
        · simp [hsent, hempty, Except.isOk, Except.toBool]
        · simp [hempty, hdecided]

theorem judge_verdict : ∃ claims? granted?,
    (judge v peer now token permissions provider).1 = .verdict claims? permissions granted? ∧
      claims?.isSome = (v.authenticate peer now token (Service.initial provider)).1.isOk ∧
      (granted? = none ↔ ¬Asking v peer now token permissions provider) ∧
      (granted? = some true ↔ Asking v peer now token permissions provider ∧
        Granted v peer now token permissions provider) := by
  rw [← isGranted_iff]
  unfold Asking judge
  rcases v.authenticate peer now token (Service.initial provider) with ⟨rejection | claims, s⟩
  · exact ⟨none, none, by simp [Except.isOk, Except.toBool]⟩
  · by_cases hempty : permissions.isEmpty = true
    · exact ⟨some claims, none, by simp [hempty, Except.isOk, Except.toBool]⟩
    · exact ⟨some claims, some (v.isGranted peer token permissions s).1, by
        simp [hempty, Except.isOk, Except.toBool]⟩

end Judge

section Verdict

variable (claims? : Option AccessClaims) (permissions : PermissionSet) (granted? : Option Bool)

theorem exitCode_verdict : (Outcome.verdict claims? permissions granted?).exitCode = 0 ↔
    claims?.isSome = true ∧ granted? ≠ some false := by
  rcases claims? with _ | claims <;> rcases granted? with _ | _ | _ <;> simp [Outcome.exitCode]

theorem output_verdict : ∃ members,
    (Outcome.verdict claims? permissions granted?).output = (Value.object members).pretty ++ "\n" ∧
      members.lookup "valid" = some (.bool claims?.isSome) ∧
      (members.lookup "granted" = some .null ↔ granted? = none) ∧
      (members.lookup "granted" = some (.bool false) ↔ granted? = some false) := by
  refine ⟨_, rfl, rfl, ?_, ?_⟩ <;> rcases granted? with _ | _ | _ <;> simp

end Verdict

theorem exitCode_cases (outcome : Outcome) :
    outcome.exitCode = 0 ∨ outcome.exitCode = 1 ∨ outcome.exitCode = 2 := by
  cases outcome with
  | noToken => exact .inr (.inr rfl)
  | badPermission | badConfig => exact .inr (.inl rfl)
  | verdict claims? permissions granted? =>
    simp only [Outcome.exitCode]
    split <;> simp

/-- What a yes rests on: all that is named is a permission, the configuration is accepted, the token
is valid, and what is named, if anything, is granted. -/
structure Proven (check : SignatureCheck) (link : Link) (peer : Peer σ) (now : Int64)
    (vars : Variables) (provider : σ) (token : String) (texts : List String)
    (named : List Permission) (config : Config) (claims : AccessClaims) : Prop where
  read : List.Forall₂ (fun text p => Permission.ofText? text = .ok p) texts named
  configured : Config.ofVariables vars = .ok config
  valid : (Service.authenticate ⟨config, check, link⟩ peer now token
    (Service.initial provider)).1 = .ok claims
  granted : texts = [] ∨ Granted ⟨config, check, link⟩ peer now token (.ofList named) provider

/-- What is printed with a verdict: one object. It says whether the token is valid and what was
granted, which is nothing if no decision was asked for; the exit code agrees with it. -/
structure Printed (outcome : Outcome) (members : List (String × Value)) (valid : Bool)
    (asked : Prop) : Prop where
  output : outcome.output = (Value.object members).pretty ++ "\n"
  valid : members.lookup "valid" = some (.bool valid)
  granted : members.lookup "granted" = some .null ↔ ¬asked
  agrees : outcome.exitCode = 0 ↔
    members.lookup "valid" = some (.bool true) ∧ members.lookup "granted" ≠ some (.bool false)

section Report

variable (v : Service) (peer : Peer σ) (now : Int64) (token : String) (permissions : PermissionSet)
  (provider : σ)

theorem judge_exit : (judge v peer now token permissions provider).1.exitCode ≠ 2 ∧
    ((judge v peer now token permissions provider).1.exitCode = 0 ↔
      (v.authenticate peer now token (Service.initial provider)).1.isOk = true ∧
        (permissions.isEmpty = true ∨ Granted v peer now token permissions provider)) := by
  obtain ⟨claims?, granted?, hjudge, hvalid, hnone, hyes⟩ :=
    judge_verdict v peer now token permissions provider
  rw [hjudge, exitCode_verdict, hvalid]
  refine ⟨?_, ?_⟩
  · rw [Outcome.exitCode]
    split <;> simp
  by_cases hasking : Asking v peer now token permissions provider
  · have hdecided : granted? ≠ some false ↔ Granted v peer now token permissions provider := by
      rcases granted? with _ | _ | _
      · exact absurd hasking (hnone.1 rfl)
      · exact ⟨fun h => absurd rfl h, fun h => nomatch hyes.2 ⟨hasking, h⟩⟩
      · exact ⟨fun _ => (hyes.1 rfl).2, fun _ => by simp⟩
    simp [hdecided, hasking.2]
  · obtain rfl := hnone.2 hasking
    refine ⟨fun h => ⟨h.1, .inl ?_⟩, fun h => ⟨h.1, by simp⟩⟩
    simpa using fun hfull => hasking ⟨h.1, hfull⟩

theorem judge_printed : ∃ members, Printed (judge v peer now token permissions provider).1 members
    (v.authenticate peer now token (Service.initial provider)).1.isOk
    (Asking v peer now token permissions provider) := by
  obtain ⟨claims?, granted?, hjudge, hvalid, hnone, -⟩ :=
    judge_verdict v peer now token permissions provider
  obtain ⟨members, houtput, hvalidly, hnull, hno⟩ := output_verdict claims? permissions granted?
  refine ⟨members, ?_, ?_, hnull.trans hnone, ?_⟩
  · rw [hjudge, houtput]
  · rw [hvalidly, hvalid]
  · rw [hjudge, exitCode_verdict, hvalidly, ne_eq, ne_eq, hno]
    simp

end Report

section Exit

variable (check : SignatureCheck) (link : Link) (peer : Peer σ) (now : Int64) (vars : Variables)

theorem exists_proven_iff {token : String} {texts : List String} {named : List Permission}
    {config : Config} (hnamed : readPermissions texts = .ok named)
    (hconfig : Config.ofVariables vars = .ok config) (provider : σ) :
    (∃ first rest named config claims, token :: texts = first :: rest ∧
      Proven check link peer now vars provider first rest named config claims) ↔
      (Service.authenticate ⟨config, check, link⟩ peer now token
        (Service.initial provider)).1.isOk = true ∧
      ((PermissionSet.ofList named).isEmpty = true ∨
        Granted ⟨config, check, link⟩ peer now token (.ofList named) provider) := by
  have hall := readPermissions_eq_ok.1 hnamed
  have hnone : (PermissionSet.ofList named).isEmpty = true ↔ texts = [] := by
    rw [PermissionSet.isEmpty_ofList]
    constructor <;> rintro rfl <;> cases hall <;> rfl
  rw [hnone, isOk_iff]
  constructor
  · rintro ⟨_, _, _, _, claims, hargs, h⟩
    cases hargs
    cases hnamed.symm.trans (readPermissions_eq_ok.2 h.read)
    cases hconfig.symm.trans h.configured
    exact ⟨⟨claims, h.valid⟩, h.granted⟩
  · rintro ⟨⟨claims, hclaims⟩, hgranted⟩
    exact ⟨token, texts, named, config, claims, rfl, hall, hconfig, hclaims, hgranted⟩

theorem read_or_unread (texts : List String) :
    (∃ named config, readPermissions texts = .ok named ∧ Config.ofVariables vars = .ok config) ∨
      (∃ fault, readPermissions texts = .error fault) ∨
        ∃ e, Config.ofVariables vars = .error e := by
  cases readPermissions texts with
  | error fault => simp
  | ok named => cases Config.ofVariables vars <;> simp

theorem run_of_read {token : String} {texts : List String} {named : List Permission}
    {config : Config} (hnamed : readPermissions texts = .ok named)
    (hconfig : Config.ofVariables vars = .ok config) (provider : σ) :
    let v : Service := ⟨config, check, link⟩
    let permissions := PermissionSet.ofList named
    let heard := run check link (Http.overheard peer) now vars (token :: texts) (provider, [])
    run check link peer now vars (token :: texts) provider = (heard.1, heard.2.1) ∧
    heard.1.exitCode ≠ 2 ∧
    (heard.1.exitCode = 0 ↔ ∃ first rest named config claims, token :: texts = first :: rest ∧
      Proven check link peer now vars provider first rest named config claims) ∧
    ∃ fetch decision members, heard.2.2 = fetch ++ decision ∧
      KeySet.Fetches link config.endpoints fetch ∧
      (decision ≠ [] ↔ Asking v peer now token permissions provider) ∧
      (decision ≠ [] → ∃ r,
        Decision.request config.endpoints config.clientId token permissions = .ok r ∧
          Decision.Inquiry config.endpoints config.clientId token permissions.toList r ∧
          Http.Sends link r decision) ∧
      Printed heard.1 members (v.authenticate peer now token (Service.initial provider)).1.isOk
        (decision ≠ []) := by
  intro v permissions heard
  obtain ⟨fetch, decision, hfetch, hasking, hdecision, hheard⟩ :=
    judge_overheard v peer now token permissions provider
  obtain ⟨hnot, hexit⟩ := judge_exit v peer now token permissions provider
  obtain ⟨members, hprinted⟩ := judge_printed v peer now token permissions provider
  have hplain : run check link peer now vars (token :: texts) provider =
      judge v peer now token permissions provider :=
    run_eq_judge check link peer now vars token provider hnamed hconfig
  have hrun : heard = _ := (run_eq_judge check link (Http.overheard peer) now vars token
    (provider, []) hnamed hconfig).trans hheard.eq
  generalize judge v peer now token permissions provider = judged
    at hnot hexit hprinted hplain hrun
  rw [← propext hasking] at hprinted
  rw [hrun, exists_proven_iff check link peer now vars hnamed hconfig]
  exact ⟨hplain, hnot, hexit, fetch, decision, members, rfl, hfetch, hasking, hdecision, hprinted⟩

/-- For every argument list, environment and provider: the exit code is 2 without a token, 0 exactly
for a yes that is proven on every count, and else 1. What has to be read before the token is looked
at keeps the tool from asking and from printing. Otherwise it prints one verdict; it asks for one
decision, with an entry for each permission that is named, exactly if the token is valid and
something is named. To listen in on its requests changes nothing. -/
theorem exits_well_only_when_proven (args : List String) (provider : σ) :
    let heard := run check link (Http.overheard peer) now vars args (provider, [])
    let outcome := heard.1
    let requests := heard.2.2
    run check link peer now vars args provider = (outcome, heard.2.1) ∧
    (outcome.exitCode = 0 ∨ outcome.exitCode = 1 ∨ outcome.exitCode = 2) ∧
    (outcome.exitCode = 2 ↔ args = []) ∧
    (outcome.exitCode = 0 ↔ ∃ token texts named config claims, args = token :: texts ∧
      Proven check link peer now vars provider token texts named config claims) ∧
    ((args = [] ∨ (∃ text ∈ args.tail, ∀ p, Permission.ofText? text ≠ .ok p) ∨
        ∃ e, Config.ofVariables vars = .error e) → requests = [] ∧ outcome.output = "") ∧
    ∀ token texts named config, args = token :: texts →
      List.Forall₂ (fun text p => Permission.ofText? text = .ok p) texts named →
      Config.ofVariables vars = .ok config →
      let v : Service := ⟨config, check, link⟩
      let permissions := PermissionSet.ofList named
      let valid := (v.authenticate peer now token (Service.initial provider)).1.isOk
      (∀ p, p ∈ permissions.toList ↔ p ∈ named) ∧
      ∃ fetch decision members, requests = fetch ++ decision ∧
        KeySet.Fetches link config.endpoints fetch ∧ (∀ q ∈ fetch, q.method = .get) ∧
        (decision ≠ [] ↔ valid = true ∧ permissions.isEmpty = false) ∧
        (decision ≠ [] → ∃ r,
          Decision.request config.endpoints config.clientId token permissions = .ok r ∧
            Decision.Inquiry config.endpoints config.clientId token permissions.toList r ∧
            Http.Sends link r decision) ∧
        Printed outcome members valid (decision ≠ []) := by
  intro heard outcome requests
  rcases args with _ | ⟨token, texts⟩
  · refine ⟨rfl, .inr (.inr rfl), by simp [outcome, heard, run, Outcome.exitCode], ?_, ?_, ?_⟩
    · simp [outcome, heard, run, Outcome.exitCode]
    · exact fun _ => ⟨rfl, rfl⟩
    · simp
  rcases read_or_unread vars texts with ⟨named, config, hnamed, hconfig⟩ | hunread
  · obtain ⟨hplain, hnot, hexit, fetch, decision, members, hrequests, hfetch, hasking, hdecision,
      hprinted⟩ := run_of_read check link peer now vars hnamed hconfig provider
    refine ⟨hplain, exitCode_cases _, iff_of_false hnot (by simp), hexit, ?_, ?_⟩
    · rintro (hargs | hmalformed | ⟨e, he⟩)
      · cases hargs
      · obtain ⟨fault, hfault⟩ := readPermissions_eq_error.2 hmalformed
        cases hnamed.symm.trans hfault
      · cases hconfig.symm.trans he
    · intro _ _ _ _ hargs hall hconfig'
      cases hargs
      cases hnamed.symm.trans (readPermissions_eq_ok.2 hall)
      cases hconfig.symm.trans hconfig'
      exact ⟨fun p => PermissionSet.mem_ofList, fetch, decision, members, hrequests, hfetch,
        hfetch.reads, hasking, hdecision, hprinted⟩
  · obtain ⟨early, hexit, houtput, hrun⟩ := run_of_unread check link now vars token hunread
    have hnothing {named : List Permission} {config : Config}
        (hall : List.Forall₂ (fun text p => Permission.ofText? text = .ok p) texts named) :
        Config.ofVariables vars ≠ .ok config := fun hconfig => by
      rcases hunread with ⟨fault, hfault⟩ | ⟨e, he⟩
      · cases hfault.symm.trans (readPermissions_eq_ok.2 hall)
      · cases he.symm.trans hconfig
    have hheard : heard = (early, provider, []) := hrun _ _ _
    have houtcome : outcome = early := congrArg Prod.fst hheard
    have hrequests : requests = [] := congrArg (fun r => r.2.2) hheard
    have hnext : heard.2.1 = provider := congrArg (fun r => r.2.1) hheard
    refine ⟨by rw [hrun, houtcome, hnext], exitCode_cases _, ?_, ?_, ?_, ?_⟩
    · simp [houtcome, hexit]
    · refine iff_of_false (by simp [houtcome, hexit]) ?_
      rintro ⟨_, _, named, config, _, hargs, h⟩
      cases hargs
      exact hnothing h.read h.configured
    · exact fun _ => ⟨hrequests, by rw [houtcome, houtput]⟩
    · intro _ _ named config hargs hall hconfig
      cases hargs
      exact absurd hconfig (hnothing hall)

end Exit

/-- A provider that grants what it is asked for: a valid token and a permission lead to two requests
and a yes, the same token and a text that is no permission to none. -/
theorem exits_well_only_when_proven_granted :
    let check : SignatureCheck := fun _ _ _ _ => true
    let peer : Peer Nat := fun r n =>
      let body := match r.method with
        | .get => "\x7b\"keys\":[\x7b\"kty\":\"OKP\",\"kid\":\"k\",\"x\":\"AA\"\x7d]\x7d"
        | .post => "\x7b\"result\":true\x7d"
      (.response ⟨200, none, some (bytesOf body)⟩, n + 1)
    let vars : Variables := fun name =>
      (["IDP_BASE_URL", "IDP_REALM", "IDP_CLIENT_ID"].zip ["http://h/", "r", "c"]).lookup name
    let config : Config := ⟨"http://h/", ⟨"r"⟩, "c", 14400, 10, 0, .waitForRefresh⟩
    let token := "eyJhbGciOiJFZERTQSIsImtpZCI6ImsifQ" ++
      ".eyJpc3MiOiJodHRwOi8vaC9yZWFsbXMvciIsInN1YiI6InMiLCJ0eXAiOiJCZWFyZXIiLCJleHAiOjl9.AA"
    let good := run check .up (Http.overheard peer) 8 vars [token, "doc#read"] (0, [])
    let bad := run check .up (Http.overheard peer) 8 vars [token, "doc"] (0, [])
    Config.ofVariables vars = .ok config ∧ good.1.exitCode = 0 ∧
      good.2.2.map HttpRequest.method = [.get, .post] ∧
      (∃ fetch decision r, good.2.2 = fetch ++ decision ∧ Http.Sends .up r decision ∧
        Decision.Inquiry config.endpoints "c" token [⟨"doc", "read"⟩] r) ∧
      (∃ claims,
        Proven check .up peer 8 vars 0 token ["doc#read"] [⟨"doc", "read"⟩] config claims) ∧
      (∃ members, Printed good.1 members true True) ∧ bad.2.2 = [] ∧ bad.1.exitCode = 1 := by
  intro check peer vars config token good bad
  have hconfig : Config.ofVariables vars = .ok config := by decide +kernel
  have hread : Permission.ofText? "doc#read" = .ok ⟨"doc", "read"⟩ := by decide +kernel
  have hunread : Permission.ofText? "doc" = .error ⟨"doc"⟩ := by decide +kernel
  obtain ⟨hexit, hsent⟩ : good.1.exitCode = 0 ∧
      good.2.2.map HttpRequest.method = [.get, .post] := by decide +kernel
  obtain ⟨-, -, -, hproven, -, hprinted⟩ :=
    exits_well_only_when_proven check .up peer 8 vars [token, "doc#read"] 0
  obtain ⟨-, -, -, -, hearly, -⟩ :=
    exits_well_only_when_proven check .up peer 8 vars [token, "doc"] 0
  have hall : List.Forall₂ (fun text p => Permission.ofText? text = .ok p) ["doc#read"]
      [⟨"doc", "read"⟩] := .cons hread .nil
  obtain ⟨_, _, named, other, claims, hargs, h⟩ := hproven.1 hexit
  cases hargs
  cases (readPermissions_eq_ok.2 h.read).symm.trans (readPermissions_eq_ok.2 hall)
  cases h.configured.symm.trans hconfig
  obtain ⟨-, fetch, decision, members, hrequests, -, -, hasking, hdecision, hmembers⟩ :=
    hprinted token ["doc#read"] [⟨"doc", "read"⟩] config rfl hall hconfig
  have hvalid := isOk_iff.2 ⟨claims, h.valid⟩
  have hasked : decision ≠ [] := hasking.2 ⟨hvalid, by decide +kernel⟩
  obtain ⟨r, -, hinquiry, hsends⟩ := hdecision hasked
  have hheard : run check .up (Http.overheard peer) 8 vars [token, "doc#read"] (0, []) = good := rfl
  rw [hheard] at hrequests
  rw [hvalid, eq_true hasked] at hmembers
  exact ⟨hconfig, hexit, hsent, ⟨fetch, decision, r, hrequests, hsends, hinquiry⟩, ⟨claims, h⟩,
    ⟨members, hmembers⟩,
    (hearly (.inr (.inl ⟨"doc", by simp, by simp [hunread]⟩))).1, by decide +kernel⟩

end BearerAccess.TokenCheck
