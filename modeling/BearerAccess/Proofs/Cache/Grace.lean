import BearerAccess.Proofs.Cache.Demand
import BearerAccess.Proofs.Cache.Punctuality
import BearerAccess.Proofs.Cache.Staleness
set_option autoImplicit false

namespace BearerAccess.Cache

variable {κ ν ε ι : Type} [DecidableEq κ] [DecidableEq ι] {cfg : Settings} {s : Cache κ ν ε ι}
  {log : List (Notice κ ν ε ι)} {key : κ} {v : ν}

/-- Every call of a key is told a value as it comes, and nothing else is told; it does not wait.
Only a call whose own loader is needed and breaks down is not: then nothing else comes of it. -/
structure Serves (cfg : Settings) (s : Cache κ ν ε ι) (key : κ) (v : ν) : Prop where
  told : ∀ id loader, ¬(loader = .crash ∧ (s.slots key).needsLoad s.now = true) →
    (s.step cfg (.call id key loader)).1.waiting = s.waiting ∧
      ∀ c, reports (s.step cfg (.call id key loader)).2 c =
        if c = id then [(.value v, s.now)] else []
  broken : ∀ id, (s.slots key).needsLoad s.now = true → s.step cfg (.call id key .crash) =
    (s, [.invoked id key none s.now, .reported id .callerPanic s.now])

theorem step_broken (cfg : Settings) (h : (s.slots key).needsLoad s.now = true) (id : ι) :
    s.step cfg (.call id key .crash) =
      (s, [.invoked id key none s.now, .reported id .callerPanic s.now]) := by
  obtain ⟨hf, hn⟩ := Slot.needsLoad_iff.1 h
  have m := step_move cfg s (.call id key .crash)
  generalize s.step cfg (.call id key .crash) = r at m ⊢
  cases m with
  | hit _ _ _ w hw => cases hf.symm.trans hw
  | join _ _ _ load _ hl => cases hn.symm.trans hl
  | crash => rfl
  | launch _ _ _ _ _ _ _ hp => cases hp

omit [DecidableEq κ] in
theorem reports_reported (id c : ι) (report : Report ν ε) (now : Nat) :
    reports [(.reported id report now : Notice κ ν ε ι)] c =
      if c = id then [(report, now)] else [] := by
  by_cases h : c = id
  · simp [Notice.reportOf?, h]
  · simp [Notice.reportOf?, h, Ne.symm h]

theorem serves_of_fresh (cfg : Settings) (h : (s.slots key).fresh? s.now = some v) :
    Serves cfg s key v := by
  refine ⟨?_, fun id hneeds => step_broken cfg hneeds id⟩
  intro id loader _
  have hstep : s.step cfg (.call id key loader) = (s, [.reported id (.value v) s.now]) := by
    change s.call cfg id key loader = _
    simp [Cache.call, h]
  rw [hstep]
  exact ⟨rfl, fun c => reports_reported id c _ _⟩

theorem serves_of_stale (hf : (s.slots key).fresh? s.now = none)
    (h : (s.slots key).stale? cfg s.now = some v) : Serves cfg s key v := by
  refine ⟨?_, fun id hneeds => step_broken cfg hneeds id⟩
  intro id loader hsound
  have m := step_move cfg s (.call id key loader)
  generalize s.step cfg (.call id key loader) = r at m ⊢
  cases m with
  | hit _ _ _ w hw => cases hf.symm.trans hw
  | join _ _ _ load _ _ =>
    rw [h]
    exact ⟨rfl, fun c => reports_reported id c _ _⟩
  | crash _ _ _ hn => exact absurd ⟨rfl, Slot.needsLoad_iff.2 ⟨hf, hn⟩⟩ hsound
  | launch _ _ _ due outcome _ _ _ =>
    rw [h]
    refine ⟨rfl, fun c => ?_⟩
    rw [reports_cons]
    exact reports_reported id c _ _

theorem serves_of_stored (hp : cfg.policy = .staleWhileRevalidate) {expires : Nat}
    (h : (s.slots key).stored? = some ⟨v, expires⟩)
    (hlt : s.now < deadline expires cfg.loadTimeout) : Serves cfg s key v := by
  by_cases hfresh : s.now < expires
  · exact serves_of_fresh cfg (by simp [Slot.fresh?, h, hfresh])
  · exact serves_of_stale (by simp [Slot.fresh?, h, hfresh]) (by simp [Slot.stale?, h, hp, hlt])

theorem Serves.reports_run (h : Serves cfg s key v) {id : ι} (hw : s.waitersOf id = [])
    {loader : Loader ν ε} (hsound : ¬(loader = .crash ∧ (s.slots key).needsLoad s.now = true))
    {after : List (Event κ ν ε ι)} (ha : id ∉ callers after) :
    reports (s.run cfg (.call id key loader :: after)).2 id = [(.value v, s.now)] := by
  obtain ⟨hwaiting, htold⟩ := h.told id loader hsound
  have hw' : (s.step cfg (.call id key loader)).1.waitersOf id = [] := by
    rw [waitersOf, hwaiting]
    exact hw
  rw [run_cons, reports_append, htold id, if_pos rfl, (run_silent cfg hw' ha).2, List.append_nil]

theorem starts_load_iff (hf : (s.slots key).fresh? s.now = none) (id : ι) (loader : Loader ν ε) :
    (∃ load, .invoked id key (some load) s.now ∈ (s.step cfg (.call id key loader)).2) ↔
      (s.slots key).inFlight? = none ∧ loader ≠ .crash := by
  have m := step_move cfg s (.call id key loader)
  generalize s.step cfg (.call id key loader) = r at m ⊢
  cases m with
  | hit _ _ _ w hw => cases hf.symm.trans hw
  | join _ _ _ load _ hl =>
    have hnone (n : Nat) : .invoked id key (some n) s.now ∉
        (s.attach id load ((s.slots key).stale? cfg s.now)).2 :=
      fun hm => nomatch attach_loadFree s id load _ _ hm
    simp [hl, hnone]
  | crash => simp
  | launch _ _ _ due outcome _ hn hp =>
    have hsound : loader ≠ .crash := fun h => by simp [h, Loader.plan?] at hp
    simp [hn, hsound]

/-- What is stored stays until a load of the key succeeds, and then is what that load gave. -/
theorem stored_later (cfg : Settings) {before : List (Event κ ν ε ι)} {entry : Entry ν}
    (h : ((Cache.empty.run cfg before).1.slots key).stored? = some entry)
    (more : List (Event κ ν ε ι)) :
    let r := (Cache.empty.run cfg before).1.run cfg more
    (r.1.slots key).stored? =
      some (((latest? r.2 key).map fun p => ⟨p.1, deadline p.2 cfg.ttl⟩).getD entry) := by
  intro r
  have hpast := (run_coherent (ν := ν) (ε := ε) cfg before).2.stored key
  have hlater := (run_coherent (ν := ν) (ε := ε) cfg (before ++ more)).2.stored key
  rw [run_append, latest?_append] at hlater
  rw [h] at hpast
  cases hl : latest? r.2 key with
  | none => rw [hl, Option.none_or, ← hpast] at hlater; exact hlater
  | some p => rw [hl, Option.some_or] at hlater; exact hlater

omit [DecidableEq κ] in
theorem Hearing.reports_eq {id : ι} {load : Nat} (h : Hearing id key load s log) :
    reports log id = (endings log load).map Cache.told ∧ ∀ x ∈ endings log load, x.1 = key := by
  cases h with
  | waits _ _ _ _ _ hend hrep => simp [hend, hrep]
  | told outcome now _ _ _ hend hrep => simp [hend, hrep, Cache.told]

section Waiting

variable {before after : List (Event κ ν ε ι)} {id : ι} {loader : Loader ν ε}

/-- A call that is told nothing as it comes. The load it waits for is the one under way, or the one
it starts if there is none; it is told how that load ends, and that within the time limit. -/
structure Awaits (cfg : Settings) (before after : List (Event κ ν ε ι)) (id : ι) (key : κ)
    (loader : Loader ν ε) (load : Nat) : Prop where
  joined : ((Cache.empty.run cfg before).1.slots key).inFlight? = some load ∨
    ((Cache.empty.run cfg before).1.slots key).inFlight? = none ∧
      .invoked id key (some load) (Cache.empty.run cfg before).1.now ∈
        ((Cache.empty.run cfg before).1.step cfg (.call id key loader)).2
  untold : reports ((Cache.empty.run cfg before).1.step cfg (.call id key loader)).2 id = []
  pending : endings (Cache.empty.run cfg before).2 load = []
  heard : reports (Cache.empty.run cfg (before ++ .call id key loader :: after)).2 id =
    (endings (Cache.empty.run cfg (before ++ .call id key loader :: after)).2 load).map told
  own : ∀ x ∈ endings (Cache.empty.run cfg (before ++ .call id key loader :: after)).2 load,
    x.1 = key
  inTime : ∀ target,
    Duration.ceilMillis ((Cache.empty.run cfg before).1.now + cfg.loadTimeout) ≤ target →
      ToldBy (Duration.ceilMillis ((Cache.empty.run cfg before).1.now + cfg.loadTimeout)) id
        (runThrough cfg (before ++ .call id key loader :: after) target)

theorem awaits_or_breaks
    (hf : ((Cache.empty.run cfg before).1.slots key).fresh?
      (Cache.empty.run cfg before).1.now = none)
    (hst : ((Cache.empty.run cfg before).1.slots key).stale? cfg
      (Cache.empty.run cfg before).1.now = none)
    (hb : id ∉ callers before) (ha : id ∉ callers after) (hc : .cancel id ∉ after) :
    (∃ load, Awaits cfg before after id key loader load) ∨
      loader = .crash ∧ ((Cache.empty.run cfg before).1.slots key).inFlight? = none ∧
        reports (Cache.empty.run cfg (before ++ .call id key loader :: after)).2 id =
          [(.callerPanic, (Cache.empty.run cfg before).1.now)] := by
  obtain ⟨hs, hr⟩ := run_coherent (ν := ν) (ε := ε) cfg before
  have hopen : openLoads (Cache.empty.run cfg before).2 key =
      ((Cache.empty.run cfg before).1.slots key).inFlight?.toList :=
    (hr.opened key).trans (hs.claimed key).symm
  rcases call_answered cfg hb ha hc key loader with
    ⟨v, _, _, hat, _⟩ | ⟨load, hj, hpast, hat, hh⟩ | ⟨hcrash, hnone, _, _, hrep⟩
  · -- a value that is given at once stands in the slot
    have hm := mem_reports.1 (hat ▸ List.mem_singleton_self _)
    obtain ⟨-, hfresh | hstale⟩ := (step_move cfg _ (.call id key loader)).served_cases hm
    · cases hf.symm.trans hfresh
    · cases hst.symm.trans hstale
  · obtain ⟨hheard, hown⟩ := hh.reports_eq
    refine .inl ⟨load, ?_, hat, hpast, hheard, hown, fun target hle =>
      toldBy_through key loader hb ha hc hle⟩
    rw [hopen] at hj
    exact hj.imp (fun h => Option.toList_eq_singleton_iff.1 h)
      fun h => ⟨Option.toList_eq_nil_iff.1 h.1, h.2⟩
  · rw [hopen] at hnone
    exact .inr ⟨hcrash, Option.toList_eq_nil_iff.1 hnone, hrep⟩

end Waiting

theorem lt_grace_end {expires now stored : Nat} (h : expires ≤ now)
    (hlt : now < deadline expires cfg.loadTimeout) (hfar : stored + farFuture ≤ horizon) :
    stored < deadline (deadline stored cfg.ttl) cfg.loadTimeout := by
  have hlimit := deadline_le expires cfg.loadTimeout
  have hfirst := le_deadline stored cfg.ttl
  by_cases hsame : stored = deadline stored cfg.ttl
  · have hgrace := add_min_le_deadline hfar cfg.loadTimeout
    have hthirty : 0 < farFuture := by decide
    rw [← hsame]
    omega
  · have hsecond := le_deadline (deadline stored cfg.ttl) cfg.loadTimeout
    omega

/-- An entry whose time is up. In its grace every call is told its value as it comes and a load is
started if none is under way; it stays until a load succeeds, and calls are told the new value from
that instant on. Outside the grace a call waits for a load and is told how it ends. Only a loader
that breaks down as it is needed does otherwise: its call breaks down, and nothing else changes. -/
theorem stale_served_only_in_grace (cfg : Settings) (before : List (Event κ ν ε ι)) {key : κ}
    {v : ν} {expires : Nat}
    (hentry : ((Cache.empty.run cfg before).1.slots key).stored? = some ⟨v, expires⟩)
    (hexpired : expires ≤ (Cache.empty.run cfg before).1.now) :
    let s := (Cache.empty.run cfg before).1
    let reportsTo (id : ι) (loader : Loader ν ε) (after : List (Event κ ν ε ι)) :=
      reports (Cache.empty.run cfg (before ++ .call id key loader :: after)).2 id
    (cfg.policy = .staleWhileRevalidate → s.now < deadline expires cfg.loadTimeout →
      Serves cfg s key v ∧
      (∀ id loader after, id ∉ callers before → id ∉ callers after →
        ¬(loader = .crash ∧ (s.slots key).inFlight? = none) →
          reportsTo id loader after = [(.value v, s.now)]) ∧
      (∀ id loader,
        (∃ load, .invoked id key (some load) s.now ∈ (s.step cfg (.call id key loader)).2) ↔
          (s.slots key).inFlight? = none ∧ loader ≠ .crash) ∧
      ∀ more, let later := s.run cfg more
        (latest? later.2 key = none → (later.1.slots key).stored? = some ⟨v, expires⟩ ∧
          (later.1.now < deadline expires cfg.loadTimeout → Serves cfg later.1 key v)) ∧
        ∀ w t, latest? later.2 key = some (w, t) →
          (later.1.slots key).stored? = some ⟨w, deadline t cfg.ttl⟩ ∧
            (later.1.now = t ∧ t + farFuture ≤ horizon ∨
              later.1.now < deadline (deadline t cfg.ttl) cfg.loadTimeout →
                Serves cfg later.1 key w)) ∧
    (cfg.policy = .waitForRefresh ∨ deadline expires cfg.loadTimeout ≤ s.now →
      ∀ id loader after, id ∉ callers before → id ∉ callers after → .cancel id ∉ after →
        (∃ load, Awaits cfg before after id key loader load) ∨
          loader = .crash ∧ (s.slots key).inFlight? = none ∧
            s.step cfg (.call id key loader) =
              (s, [.invoked id key none s.now, .reported id .callerPanic s.now]) ∧
            reportsTo id loader after = [(.callerPanic, s.now)]) := by
  intro s reportsTo
  have hlapsed : (s.slots key).fresh? s.now = none :=
    Slot.fresh?_eq_none.2 fun e he => by
      cases hentry.symm.trans he
      exact hexpired
  refine ⟨fun hp hlt => ⟨?_, ?_, ?_, ?_⟩, ?_⟩
  · exact serves_of_stored hp hentry hlt
  · intro id loader after hb ha hsound
    obtain ⟨hw, hpast⟩ := run_silent cfg (s := Cache.empty) rfl hb
    have hneeds : ¬(loader = .crash ∧ (s.slots key).needsLoad s.now = true) :=
      fun h => hsound ⟨h.1, (Slot.needsLoad_iff.1 h.2).2⟩
    have htold := (serves_of_stored hp hentry hlt).reports_run hw hneeds ha
    simp only [reportsTo, run_append, reports_append, hpast, List.nil_append]
    exact htold
  · exact fun id loader => starts_load_iff hlapsed id loader
  · intro more later
    have hstored : (later.1.slots key).stored? = some _ := stored_later cfg hentry more
    refine ⟨fun hnone => ?_, fun w t hlatest => ?_⟩
    · have hkept : (later.1.slots key).stored? = some ⟨v, expires⟩ := by
        rwa [hnone] at hstored
      exact ⟨hkept, serves_of_stored hp hkept⟩
    · have hnew : (later.1.slots key).stored? = some ⟨w, deadline t cfg.ttl⟩ := by
        rwa [hlatest] at hstored
      refine ⟨hnew, fun h => serves_of_stored hp hnew ?_⟩
      rcases h with ⟨hnow, hfar⟩ | hlater
      · rw [hnow]
        exact lt_grace_end hexpired hlt hfar
      · exact hlater
  · intro hout id loader after hb ha hc
    have hnone : (s.slots key).stale? cfg s.now = none := by
      have hentry : (s.slots key).stored? = some ⟨v, expires⟩ := hentry
      rcases hout with hp | hle
      · simp [Slot.stale?, hentry, hp]
      · simp [Slot.stale?, hentry, Nat.not_lt.2 hle]
    have hcall : (∃ load, Awaits cfg before after id key loader load) ∨ _ :=
      awaits_or_breaks hlapsed hnone hb ha hc
    rcases hcall with hwaits | ⟨rfl, hidle, hrep⟩
    · exact .inl hwaits
    · have hstep := step_broken cfg (Slot.needsLoad_iff.2 ⟨hlapsed, hidle⟩) id
      exact .inr ⟨rfl, hidle, hstep, hrep⟩

/-- A load hangs: in the grace the next call is told the old value all the same, after it the next
call waits for the load and is told that its time is up. -/
theorem stale_served_only_in_grace_hanging :
    let cfg : Settings := ⟨10, 10, .staleWhileRevalidate⟩
    let early : List (Event Nat Nat Nat Nat) :=
      [.call 0 7 (.finishing 0 (.value 5)), .finish 0, .pass 12, .call 1 7 .hanging]
    let late := early ++ [.pass 20]
    let inGrace := Cache.empty.run cfg (early ++ .call 2 7 .crash :: [.pass 30])
    let outside := Cache.empty.run cfg (late ++ .call 3 7 (.finishing 0 (.value 6)) ::
      [.pass 1000000, .finish 1])
    ((Cache.empty.run cfg early).1.slots 7) = ⟨some ⟨5, 10⟩, some 1⟩ ∧
      ((Cache.empty.run cfg late).1.slots 7) = ⟨some ⟨5, 10⟩, some 1⟩ ∧
      reports inGrace.2 2 = [(.value 5, 12)] ∧
      reports outside.2 3 = (endings outside.2 1).map told ∧
      endings outside.2 1 = [(7, .error (.timeout 10), 1000000)] := by
  intro cfg early late inGrace outside
  have hearly : (Cache.empty.run cfg early).1.slots 7 = ⟨some ⟨5, 10⟩, some 1⟩ := by decide
  have hlate : (Cache.empty.run cfg late).1.slots 7 = ⟨some ⟨5, 10⟩, some 1⟩ := by decide
  refine ⟨hearly, hlate, ?_, ?_, by decide⟩
  · have hentry : ((Cache.empty.run cfg early).1.slots 7).stored? = some ⟨5, 10⟩ := by rw [hearly]
    have h := stale_served_only_in_grace cfg early hentry (by decide)
    exact (h.1 rfl (by decide)).2.1 2 .crash [.pass 30] (by decide) (by decide) (by simp [hearly])
  · have hentry : ((Cache.empty.run cfg late).1.slots 7).stored? = some ⟨5, 10⟩ := by rw [hlate]
    have h := stale_served_only_in_grace cfg late hentry (by decide)
    rcases h.2 (.inr (by decide)) 3 (.finishing 0 (.value 6)) [.pass 1000000, .finish 1]
      (by decide) (by decide) (by simp) with ⟨load, hwaits⟩ | ⟨hcrash, _⟩
    · rcases hwaits.joined with hjoined | ⟨hidle, _⟩
      · rw [hlate] at hjoined
        cases hjoined
        exact hwaits.heard
      · rw [hlate] at hidle
        cases hidle
    · cases hcrash

end BearerAccess.Cache
