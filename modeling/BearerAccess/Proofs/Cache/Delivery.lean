import BearerAccess.Proofs.Cache.Provenance
set_option autoImplicit false

namespace BearerAccess.Cache

variable {κ ν ε ι : Type}

def told (ending : κ × Outcome ν ε × Nat) : Report ν ε × Nat :=
  (.ofOutcome ending.2.1, ending.2.2)

section Attach

variable [DecidableEq ι] (s : Cache κ ν ε ι) {call id : ι} (load : Nat) (stale? : Option ν)

theorem waitersOf_attach_ne (h : call ≠ id) :
    (s.attach call load stale?).1.waitersOf id = s.waitersOf id := by
  cases stale? <;> simp [attach, waitersOf, h]

theorem reports_attach_ne (h : call ≠ id) : reports (s.attach call load stale?).2 id = [] := by
  cases stale? <;> simp [attach, Notice.reportOf?, h]

theorem waitersOf_attach_none :
    (s.attach id load none).1.waitersOf id = s.waitersOf id ++ [⟨id, load⟩] := by
  simp [attach, waitersOf]

end Attach

@[simp] theorem waitersOf_start [DecidableEq κ] [DecidableEq ι] (s : Cache κ ν ε ι) (key : κ)
    (due : Nat) (outcome : Outcome ν ε) (id : ι) :
    (s.start key due outcome).waitersOf id = s.waitersOf id := rfl

theorem reports_announce [DecidableEq ι] (s : Cache κ ν ε ι) (l : Load κ ν ε) (id : ι) :
    reports (s.announce l) id =
      ((s.waitersOf id).filter fun w => w.load = l.id).map fun _ =>
        (.ofOutcome l.outcome, s.now) := by
  simp only [announce, waitersOf]
  induction s.waiting with
  | nil => rfl
  | cons w ws ih =>
    by_cases hl : w.load = l.id <;> by_cases hc : w.call = id <;>
      simp [hl, hc, Notice.reportOf?, ih]

variable [DecidableEq κ] [DecidableEq ι] {cfg : Settings} {s : Cache κ ν ε ι}
  {log : List (Notice κ ν ε ι)} {e : Event κ ν ε ι} {r : Cache κ ν ε ι × List (Notice κ ν ε ι)}

/-- An event that ends no load, for those who did not call with it. -/
structure Calm (s : Cache κ ν ε ι) (e : Event κ ν ε ι) (r : Cache κ ν ε ι × List (Notice κ ν ε ι)) :
    Prop where
  running : ∀ l ∈ s.running, l ∈ r.1.running
  fresh : ∀ l ∈ r.1.running, l ∈ s.running ∨ l.id = s.nextLoad
  nextLoad : s.nextLoad ≤ r.1.nextLoad
  noEnding : ∀ load, endings r.2 load = []
  waiters : ∀ id, e.caller? ≠ some id → e ≠ .cancel id → r.1.waitersOf id = s.waitersOf id
  noReport : ∀ id, e.caller? ≠ some id → reports r.2 id = []

omit [DecidableEq κ] in
theorem Calm.of_reports {more : List (Notice κ ν ε ι)}
    (hm : ∀ n ∈ more, n.LoadFree s.now)
    (hr : ∀ id, e.caller? ≠ some id → reports more id = []) : Calm s e (s, more) :=
  ⟨fun _ h => h, fun _ h => .inl h, Nat.le_refl _, endings_loadFree hm, fun _ _ _ => rfl, hr⟩

theorem waitersOf_cancel (cfg : Settings) (s : Cache κ ν ε ι) (call id : ι) :
    (s.step cfg (.cancel call)).1.waitersOf id = if id = call then [] else s.waitersOf id := by
  simp only [step, waitersOf, List.filter_filter]
  by_cases h : id = call
  · simp [h]
  · rw [if_neg h]
    refine List.filter_congr fun w _ => ?_
    by_cases hw : w.call = id <;> simp [hw, h]

theorem Move.lands_or_calm (m : Move cfg s e r) :
    (∃ l ∈ s.running, e = .finish l.id ∧
      r = (s.land cfg l, .ended l.id l.key l.outcome s.now :: s.announce l)) ∨ Calm s e r := by
  cases m with
  | land l hl _ => exact .inl ⟨l, hl, rfl, rfl⟩
  | hit c key loader v _ =>
    refine .inr (.of_reports (by simpa using .reported c (.value v)) fun id he => ?_)
    simpa [Notice.reportOf?] using fun h => he (congrArg some h)
  | crash c key _ _ =>
    refine .inr (.of_reports ?_ fun id he => ?_)
    · simpa using ⟨.broken c key, .reported c .callerPanic⟩
    simpa [Notice.reportOf?] using fun h => he (congrArg some h)
  | join c key loader load _ _ =>
    refine .inr ⟨by simp, by simp +contextual, by simp, ?_, ?_, ?_⟩
    · exact endings_loadFree (attach_loadFree s c load _)
    · exact fun id he _ => waitersOf_attach_ne s load _ fun h => he (congrArg some h)
    · exact fun id he => reports_attach_ne s load _ fun h => he (congrArg some h)
  | launch c key loader due outcome _ _ _ =>
    refine .inr ⟨by simp +contextual, ?_, by simp, ?_, ?_, ?_⟩
    · intro l hl
      simp only [attach_running, start_running, List.mem_append, List.mem_singleton] at hl
      exact hl.imp id fun h => congrArg Load.id h
    · intro load
      simp [Notice.endingOf?, endings_loadFree (attach_loadFree _ c _ _)]
    · exact fun id he _ => waitersOf_attach_ne _ _ _ fun h => he (congrArg some h)
    · intro id he
      have hc : c ≠ id := fun h => he (congrArg some h)
      simp [Notice.reportOf?, reports_attach_ne _ _ _ hc]
  | cancel c =>
    refine .inr ⟨fun _ h => h, fun _ h => .inl h, Nat.le_refl _, fun _ => rfl, ?_, fun _ _ => rfl⟩
    intro id _ hc
    have hne : id ≠ c := fun h => hc (h ▸ rfl)
    exact (waitersOf_cancel cfg s c id).trans (if_neg hne)
  | idle load => exact .inr (.of_reports (by simp) fun _ _ => rfl)
  | pass target =>
    exact .inr ⟨fun _ h => h, fun _ h => .inl h, Nat.le_refl _, fun _ => rfl, fun _ _ _ => rfl,
      fun _ _ => rfl⟩

theorem waitersOf_land (s : Cache κ ν ε ι) (l : Load κ ν ε) (id : ι) :
    (s.land cfg l).waitersOf id = (s.waitersOf id).filter fun w => w.load ≠ l.id := by
  simp only [waitersOf, land, List.filter_filter]
  exact List.filter_congr fun w _ => Bool.and_comm _ _

theorem Move.silent (m : Move cfg s e r) {id : ι} (he : e.caller? ≠ some id)
    (hw : s.waitersOf id = []) : r.1.waitersOf id = [] ∧ reports r.2 id = [] := by
  rcases m.lands_or_calm with ⟨l, _, rfl, rfl⟩ | hcalm
  · simp [waitersOf_land, Notice.reportOf?, reports_announce, hw]
  · refine ⟨?_, hcalm.noReport id he⟩
    by_cases hc : e = .cancel id
    · subst hc
      cases m
      exact (waitersOf_cancel cfg s id id).trans (if_pos rfl)
    · rw [hcalm.waiters id he hc, hw]

/-- A call that waits for a load of a key, or has been told how it ended. -/
inductive Hearing (id : ι) (key : κ) (load : Nat) (s : Cache κ ν ε ι)
    (log : List (Notice κ ν ε ι)) : Prop where
  | waits (l : Load κ ν ε) : l ∈ s.running → l.id = load → l.key = key →
      s.waitersOf id = [⟨id, load⟩] → endings log load = [] → reports log id = [] →
      Hearing id key load s log
  | told (outcome : Outcome ν ε) (now : Nat) : load < s.nextLoad →
      (∀ l ∈ s.running, l.id ≠ load) → s.waitersOf id = [] →
      endings log load = [(key, outcome, now)] → reports log id = [(.ofOutcome outcome, now)] →
      Hearing id key load s log

theorem Hearing.move {id : ι} {key : κ} {load : Nat} (h : Hearing id key load s log)
    (hs : Sound s) (he : e.caller? ≠ some id) (hc : e ≠ .cancel id) (m : Move cfg s e r) :
    Hearing id key load r.1 (log ++ r.2) := by
  cases h with
  | waits l hl hid hkey hw hend hrep =>
    rcases m.lands_or_calm with ⟨d, hd, rfl, rfl⟩ | hcalm
    · -- the load that ends is the one waited for, or leaves this call alone
      by_cases hn : d.id = load
      · obtain rfl := hs.distinct l hl d hd (hid.trans hn.symm)
        subst hid hkey
        refine .told l.outcome s.now (hs.numbered l hl) ?_ ?_ ?_ ?_
        · intro d hd
          simpa using (List.mem_filter.1 hd).2
        · simp [waitersOf_land, hw]
        · simp [hend, Notice.endingOf?, endings_loadFree (announce_loadFree s l)]
        · simp [hrep, Notice.reportOf?, reports_announce, hw]
      · have hne : load ≠ d.id := fun h => hn h.symm
        refine .waits l ?_ hid hkey ?_ ?_ ?_
        · exact List.mem_filter.2 ⟨hl, by simpa [hid] using hne⟩
        · simp [waitersOf_land, hw, hne]
        · simp [hend, Notice.endingOf?, hn, endings_loadFree (announce_loadFree s d)]
        · simp [hrep, Notice.reportOf?, reports_announce, hw, hne]
    · refine .waits l (hcalm.running l hl) hid hkey ((hcalm.waiters id he hc).trans hw) ?_ ?_
      · simp [hend, hcalm.noEnding]
      · simp [hrep, hcalm.noReport id he]
  | told outcome now hlt hnot hw hend hrep =>
    -- the number of an ended load is not given out again, so it has no second ending
    obtain ⟨hw', hrep'⟩ := m.silent he hw
    rcases m.lands_or_calm with ⟨d, hd, rfl, rfl⟩ | hcalm
    · refine .told outcome now hlt (fun l hl => hnot l (List.mem_filter.1 hl).1) hw' ?_ ?_
      · simp [hend, Notice.endingOf?, hnot d hd, endings_loadFree (announce_loadFree s d)]
      · rw [reports_append, hrep, hrep', List.append_nil]
    · refine .told outcome now (Nat.lt_of_lt_of_le hlt hcalm.nextLoad) ?_ hw' ?_ ?_
      · intro l hl
        rcases hcalm.fresh l hl with hold | hnew
        · exact hnot l hold
        · exact fun h => Nat.ne_of_lt hlt (h.symm.trans hnew)
      · simp [hend, hcalm.noEnding]
      · rw [reports_append, hrep, hrep', List.append_nil]

theorem Hearing.run {id : ι} {key : κ} {load : Nat} (h : Hearing id key load s log)
    (cfg : Settings) (hs : Sound s) {es : List (Event κ ν ε ι)} (he : id ∉ callers es)
    (hc : .cancel id ∉ es) :
    Hearing id key load (s.run cfg es).1 (log ++ (s.run cfg es).2) := by
  induction es generalizing s log with
  | nil => simpa using h
  | cons e es ih =>
    obtain ⟨hcaller, hrest⟩ := not_or.1 (mt mem_callers_cons.2 he)
    have hmove := step_move cfg s e
    have hnext := ih (h.move hs hcaller (fun h => hc (by simp [h])) hmove) (hs.move hmove) hrest
      (fun h => hc (.tail _ h))
    simpa [run_cons] using hnext

theorem run_silent (cfg : Settings) {id : ι} (hw : s.waitersOf id = [])
    {es : List (Event κ ν ε ι)} (he : id ∉ callers es) :
    (s.run cfg es).1.waitersOf id = [] ∧ reports (s.run cfg es).2 id = [] := by
  induction es generalizing s with
  | nil => exact ⟨hw, rfl⟩
  | cons e es ih =>
    obtain ⟨hcaller, hrest⟩ := not_or.1 (mt mem_callers_cons.2 he)
    obtain ⟨hw', hrep⟩ := (step_move cfg s e).silent hcaller hw
    obtain ⟨hend, hmore⟩ := ih hw' hrest
    exact ⟨hend, by simp [run_cons, hrep, hmore]⟩

/-- How a call is received: it is served what the key's last successful load gave, it waits for the
one load that is open then, or its loader breaks down. -/
theorem call_received (hs : Sound s) (hr : Recorded cfg s log) {id : ι} (hw : s.waitersOf id = [])
    (hrep : reports log id = []) (key : κ) (loader : Loader ν ε) :
    let r := s.step cfg (.call id key loader)
    (∃ v t, latest? log key = some (v, t) ∧ r.1.waitersOf id = [] ∧
      reports r.2 id = [(.value v, s.now)]) ∨
    (∃ load, (openLoads log key = [load] ∨
        openLoads log key = [] ∧ .invoked id key (some load) s.now ∈ r.2) ∧
      endings log load = [] ∧ reports r.2 id = [] ∧ Hearing id key load r.1 (log ++ r.2)) ∨
    (loader = .crash ∧ openLoads log key = [] ∧ .invoked id key none s.now ∈ r.2 ∧
      r.1.waitersOf id = [] ∧ reports r.2 id = [(.callerPanic, s.now)]) := by
  intro r
  have hopen : openLoads log key = (s.slots key).inFlight?.toList :=
    (hr.opened key).trans (hs.claimed key).symm
  have m := step_move cfg s (.call id key loader)
  change Move cfg s _ r at m
  generalize r = r at m ⊢
  cases m with
  | hit _ _ _ v hf =>
    obtain ⟨t, hl, _⟩ := hr.fresh?_eq_some.1 hf
    exact .inl ⟨v, t, hl, hw, by simp [Notice.reportOf?]⟩
  | crash _ _ _ hn =>
    refine .inr (.inr ⟨rfl, by simp [hopen, hn], by simp, hw, by simp [Notice.reportOf?]⟩)
  | join _ _ _ load _ hc =>
    cases hst : (s.slots key).stale? cfg s.now with
    | some v =>
      obtain ⟨t, hl, _⟩ := hr.stale?_eq_some.1 hst
      exact .inl ⟨v, t, hl, hw, by simp [attach, Notice.reportOf?]⟩
    | none =>
      obtain ⟨l, hl, hkey, hid⟩ := hs.exists_claimant hc
      have hend := hr.silent load (.inr ⟨l, hl, hid⟩)
      refine .inr (.inl ⟨load, .inl (by simp [hopen, hc]), hend, rfl, ?_⟩)
      exact .waits l hl hid hkey (by simp [waitersOf_attach_none, hw])
        (by simpa [attach] using hend) (by simpa [attach] using hrep)
  | launch _ _ _ due outcome _ hn _ =>
    cases hst : (s.slots key).stale? cfg s.now with
    | some v =>
      obtain ⟨t, hl, _⟩ := hr.stale?_eq_some.1 hst
      exact .inl ⟨v, t, hl, hw, by simp [attach, Notice.reportOf?]⟩
    | none =>
      have hend := hr.silent s.nextLoad (.inl (Nat.le_refl _))
      refine .inr (.inl ⟨s.nextLoad, .inr ⟨by simp [hopen, hn], by simp⟩, hend, by
        simp [attach, Notice.reportOf?], ?_⟩)
      exact .waits ⟨s.nextLoad, key, due, outcome⟩ (by simp) rfl rfl
        (by rw [waitersOf_attach_none, waitersOf_start, hw]; rfl)
        (by simp [attach, hend, Notice.endingOf?]) (by simp [attach, hrep, Notice.reportOf?])

theorem call_answered (cfg : Settings) {before after : List (Event κ ν ε ι)} {id : ι}
    (hb : id ∉ callers before) (ha : id ∉ callers after) (hc : .cancel id ∉ after) (key : κ)
    (loader : Loader ν ε) :
    let s := (Cache.empty.run cfg before).1
    let past := (Cache.empty.run cfg before).2
    let atOnce := (s.step cfg (.call id key loader)).2
    let whole := Cache.empty.run cfg (before ++ .call id key loader :: after)
    (∃ v t, latest? past key = some (v, t) ∧ reports atOnce id = [(.value v, s.now)] ∧
      reports whole.2 id = [(.value v, s.now)] ∧ whole.1.waitersOf id = []) ∨
    (∃ load, (openLoads past key = [load] ∨
        openLoads past key = [] ∧ .invoked id key (some load) s.now ∈ atOnce) ∧
      endings past load = [] ∧ reports atOnce id = [] ∧
      Hearing id key load whole.1 whole.2) ∨
    (loader = .crash ∧ openLoads past key = [] ∧ .invoked id key none s.now ∈ atOnce ∧
      reports atOnce id = [(.callerPanic, s.now)] ∧
      reports whole.2 id = [(.callerPanic, s.now)]) := by
  intro s past atOnce whole
  obtain ⟨hs, hr⟩ := run_coherent cfg before
  obtain ⟨hw, hrep⟩ := run_silent cfg (s := Cache.empty) rfl hb
  have hsplit : reports whole.2 id = reports atOnce id ++
      reports ((s.step cfg (.call id key loader)).1.run cfg after).2 id := by
    simp [whole, atOnce, s, run_append, run_cons, hrep]
  rcases call_received hs hr hw hrep key loader with
    ⟨v, t, hl, hw', hat⟩ | ⟨load, hj, hend, hat, hh⟩ | ⟨hk, hopen, hinv, hw', hat⟩
  · obtain ⟨hgone, hmore⟩ := run_silent cfg hw' ha
    refine .inl ⟨v, t, hl, hat, hsplit.trans (congrArg₂ (· ++ ·) hat hmore), ?_⟩
    simpa [whole, run_append, run_cons] using hgone
  · refine .inr (.inl ⟨load, hj, hend, hat, ?_⟩)
    have h := hh.run cfg (hs.move (step_move cfg s _)) ha hc
    simpa [whole, run_append, run_cons] using h
  · refine .inr (.inr ⟨hk, hopen, hinv, hat, ?_⟩)
    obtain ⟨-, hmore⟩ := run_silent cfg hw' ha
    exact hsplit.trans (congrArg₂ (· ++ ·) hat hmore)

/-- All that a call can be told, whatever the order of events: at once the value of the key's last
successful load, later the end of the one load that was open as it came or that it started itself,
or the breakdown of its own loader. What it hears of a load depends on that load only. -/
theorem reports_of_call (cfg : Settings) (before after : List (Event κ ν ε ι)) (id : ι) (key : κ)
    (loader : Loader ν ε) (hb : id ∉ callers before) (ha : id ∉ callers after)
    (hc : .cancel id ∉ after) :
    let es := before ++ .call id key loader :: after
    let s := (Cache.empty.run cfg before).1
    let past := (Cache.empty.run cfg before).2
    let atOnce := (s.step cfg (.call id key loader)).2
    let log := (Cache.empty.run cfg es).2
    (∃ v t, latest? past key = some (v, t) ∧ reports atOnce id = [(.value v, s.now)] ∧
      reports log id = [(.value v, s.now)]) ∨
    (∃ load, (openLoads past key = [load] ∨
        openLoads past key = [] ∧ .invoked id key (some load) s.now ∈ atOnce) ∧
      reports atOnce id = [] ∧ endings past load = [] ∧ (endings log load).length ≤ 1 ∧
      reports log id = (endings log load).map told ∧
      ∀ ending ∈ endings log load, ending.1 = key ∧
        ∃ starter source t, .call starter key source ∈ es ∧
          .invoked starter key (some load) t ∈ log ∧ source.Gives cfg.loadTimeout ending.2.1) ∨
    (loader = .crash ∧ openLoads past key = [] ∧ .invoked id key none s.now ∈ atOnce ∧
      reports atOnce id = [(.callerPanic, s.now)] ∧ reports log id = [(.callerPanic, s.now)]) := by
  intro es s past atOnce log
  rcases call_answered cfg hb ha hc key loader with
    ⟨v, t, hl, hat, hrep, _⟩ | ⟨load, hj, hpast, hat, hh⟩ | hcrash
  · exact .inl ⟨v, t, hl, hat, hrep⟩
  · refine .inr (.inl ⟨load, hj, hat, hpast, ?_⟩)
    cases hh with
    | waits l _ _ _ _ hend hrep =>
      change endings log load = [] at hend
      exact ⟨by simp [hend], hrep.trans (by rw [hend]; rfl), by simp [hend]⟩
    | told outcome t _ _ _ hend hrep =>
      change endings log load = _ at hend
      refine ⟨by simp [hend], hrep.trans (by rw [hend]; rfl), ?_⟩
      intro ending hmem
      obtain rfl : ending = (key, outcome, t) := by simpa [hend] using hmem
      obtain ⟨due, starter, source, t₀, hcall, hstart, hplan⟩ :=
        (run_sourced cfg es).2 load key outcome t (mem_endings.1 hmem)
      exact ⟨rfl, starter, source, t₀, hcall, hstart, source.gives_of_plan? hplan⟩
  · exact .inr (.inr hcrash)

/-- A call joins a load that fails: it is told the failure of the other call's loader. -/
theorem reports_of_call_joined :
    let cfg : Settings := ⟨100, 1000, .waitForRefresh⟩
    let before : List (Event Nat Nat Nat Nat) := [.call 0 7 (.finishing 5 (.error 9))]
    let after : List (Event Nat Nat Nat Nat) := [.pass 1000000, .finish 0]
    let log := (Cache.empty.run cfg (before ++ .call 1 7 .hanging :: after)).2
    1 ∉ callers before ∧ 1 ∉ callers after ∧ .cancel 1 ∉ after ∧
      reports log 1 = (endings log 0).map told ∧
      reports log 1 = [(.failure (.load 9), 1000000)] := by
  intro cfg before after log
  have hb : 1 ∉ callers before := by decide
  have ha : 1 ∉ callers after := by decide
  have hc : .cancel 1 ∉ after := by simp [after]
  have hnone : latest? (Cache.empty.run cfg before).2 7 = none := by decide
  have hopen : openLoads (Cache.empty.run cfg before).2 7 = [0] := by decide
  refine ⟨hb, ha, hc, ?_, by decide⟩
  rcases reports_of_call cfg before after 1 7 .hanging hb ha hc with
    ⟨v, t, hl, _⟩ | ⟨load, hj | ⟨hj, _⟩, _, _, _, hrep, _⟩ | ⟨hk, _⟩
  · cases hnone.symm.trans hl
  · cases hopen.symm.trans hj
    exact hrep
  · cases hopen.symm.trans hj
  · cases hk

end BearerAccess.Cache
