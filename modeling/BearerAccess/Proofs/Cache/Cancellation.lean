import BearerAccess.Proofs.Cache.View
set_option autoImplicit false

namespace BearerAccess.Cache

variable {κ ν ε ι : Type}

def Event.isCancel : Event κ ν ε ι → Bool
  | .cancel _ => true
  | _ => false

def uncancelled (es : List (Event κ ν ε ι)) : List (Event κ ν ε ι) := es.filter (!·.isCancel)

theorem uncancelled_snoc_cancel (es : List (Event κ ν ε ι)) (id : ι) :
    uncancelled (es ++ [.cancel id]) = uncancelled es := by
  simp [uncancelled, Event.isCancel]

theorem uncancelled_snoc (es : List (Event κ ν ε ι)) {e : Event κ ν ε ι}
    (he : e.isCancel = false) : uncancelled (es ++ [e]) = uncancelled es ++ [e] := by
  simp [uncancelled, he]

variable [DecidableEq κ] [DecidableEq ι]

/-- Two results that differ only in who waits and in what is told to calls that do not count. -/
structure Agree (counts : ι → Prop) (r t : Cache κ ν ε ι × List (Notice κ ν ε ι)) : Prop where
  now : r.1.now = t.1.now
  slots : r.1.slots = t.1.slots
  running : r.1.running = t.1.running
  nextLoad : r.1.nextLoad = t.1.nextLoad
  invoked : ∀ key, invocations r.2 key = invocations t.2 key
  ended : ∀ load, endings r.2 load = endings t.2 load
  waiters : ∀ id, counts id → r.1.waitersOf id = t.1.waitersOf id
  told : ∀ id, counts id → reports r.2 id = reports t.2 id

namespace Agree

variable {counts : ι → Prop} {r t u : Cache κ ν ε ι × List (Notice κ ν ε ι)}
  {s s' : Cache κ ν ε ι} {log log' : List (Notice κ ν ε ι)}

theorem refl (counts : ι → Prop) (r : Cache κ ν ε ι × List (Notice κ ν ε ι)) : Agree counts r r :=
  ⟨rfl, rfl, rfl, rfl, fun _ => rfl, fun _ => rfl, fun _ _ => rfl, fun _ _ => rfl⟩

theorem symm (h : Agree counts r t) : Agree counts t r :=
  ⟨h.now.symm, h.slots.symm, h.running.symm, h.nextLoad.symm, fun key => (h.invoked key).symm,
    fun load => (h.ended load).symm, fun id hid => (h.waiters id hid).symm,
    fun id hid => (h.told id hid).symm⟩

theorem trans (h : Agree counts r t) (h' : Agree counts t u) : Agree counts r u :=
  ⟨h.now.trans h'.now, h.slots.trans h'.slots, h.running.trans h'.running,
    h.nextLoad.trans h'.nextLoad, fun key => (h.invoked key).trans (h'.invoked key),
    fun load => (h.ended load).trans (h'.ended load),
    fun id hid => (h.waiters id hid).trans (h'.waiters id hid),
    fun id hid => (h.told id hid).trans (h'.told id hid)⟩

theorem mono {fewer : ι → Prop} (h : Agree counts r t) (hf : ∀ id, fewer id → counts id) :
    Agree fewer r t :=
  ⟨h.now, h.slots, h.running, h.nextLoad, h.invoked, h.ended,
    fun id hid => h.waiters id (hf id hid), fun id hid => h.told id (hf id hid)⟩

theorem notice (h : Agree counts (s, log) (s', log')) (more : List (Notice κ ν ε ι)) :
    Agree counts (s, log ++ more) (s', log' ++ more) := by
  refine ⟨h.now, h.slots, h.running, h.nextLoad, ?_, ?_, h.waiters, ?_⟩
  · intro key
    simpa using h.invoked key
  · intro load
    simpa using h.ended load
  · intro id hid
    simpa using h.told id hid

theorem attach (h : Agree counts (s, log) (s', log')) (call : ι) (load : Nat)
    (stale? : Option ν) :
    Agree counts ((s.attach call load stale?).1, log ++ (s.attach call load stale?).2)
      ((s'.attach call load stale?).1, log' ++ (s'.attach call load stale?).2) := by
  rw [attach_notices h.now call load load stale?]
  cases stale? with
  | some v => exact h.notice _
  | none =>
    refine ⟨h.now, h.slots, h.running, h.nextLoad, ?_, ?_, ?_, ?_⟩
    · simpa [Cache.attach] using h.invoked
    · simpa [Cache.attach] using h.ended
    · intro id hid
      have hw : s.waitersOf id = s'.waitersOf id := h.waiters id hid
      simp only [Cache.attach, waitersOf, List.filter_append] at hw ⊢
      rw [hw]
    · simpa [Cache.attach] using h.told

theorem start (h : Agree counts (s, log) (s', log')) (key : κ) (due : Nat)
    (outcome : Outcome ν ε) :
    Agree counts (s.start key due outcome, log) (s'.start key due outcome, log') := by
  have hslots : s.slots = s'.slots := h.slots
  have hrunning : s.running = s'.running := h.running
  have hnext : s.nextLoad = s'.nextLoad := h.nextLoad
  refine ⟨h.now, ?_, ?_, ?_, h.invoked, h.ended, h.waiters, h.told⟩
  · funext k
    simp only [start_slots, hslots, hnext]
  · simp only [start_running, hrunning, hnext]
  · simp only [start_nextLoad, hnext]

theorem land (h : Agree counts (s, log) (s', log')) (cfg : Settings) (l : Load κ ν ε) :
    Agree counts (s.land cfg l, log ++ .ended l.id l.key l.outcome s.now :: s.announce l)
      (s'.land cfg l, log' ++ .ended l.id l.key l.outcome s'.now :: s'.announce l) := by
  have hnow : s.now = s'.now := h.now
  have hslots : s.slots = s'.slots := h.slots
  have hrunning : s.running = s'.running := h.running
  have hwaiters (id : ι) (hid : counts id) : s.waitersOf id = s'.waitersOf id := h.waiters id hid
  refine ⟨h.now, ?_, ?_, h.nextLoad, ?_, ?_, ?_, ?_⟩
  · funext k
    simp only [land_slots, hslots, hnow]
  · simp only [Cache.land, hrunning]
  · intro key
    simpa [Notice.invocationOf?] using h.invoked key
  · intro load
    simpa [hnow, endings_loadFree (announce_loadFree _ l)] using h.ended load
  · intro id hid
    simp only [waitersOf_land, hwaiters id hid]
  · intro id hid
    simpa [reports_announce, hwaiters id hid, hnow, Notice.reportOf?] using h.told id hid

theorem call (h : Agree counts (s, log) (s', log')) (cfg : Settings) (id : ι) (key : κ)
    (loader : Loader ν ε) :
    Agree counts ((s.call cfg id key loader).1, log ++ (s.call cfg id key loader).2)
      ((s'.call cfg id key loader).1, log' ++ (s'.call cfg id key loader).2) := by
  have hnow : s'.now = s.now := h.now.symm
  have hslots : s'.slots = s.slots := h.slots.symm
  have hnext : s'.nextLoad = s.nextLoad := h.nextLoad.symm
  have m := call_move cfg s id key loader
  generalize s.call cfg id key loader = r at m ⊢
  cases m with
  | hit _ _ _ v hf =>
    have hsame : s'.call cfg id key loader = (s', [.reported id (.value v) s.now]) := by
      simp [Cache.call, hnow, hslots, hf]
    rw [hsame]
    exact h.notice _
  | join _ _ _ load hf hc =>
    have hsame : s'.call cfg id key loader =
        s'.attach id load ((s.slots key).stale? cfg s.now) := by
      simp [Cache.call, hnow, hslots, hf, hc]
    rw [hsame]
    exact h.attach id load _
  | crash _ _ hf hn =>
    have hsame : s'.call cfg id key .crash =
        (s', [.invoked id key none s.now, .reported id .callerPanic s.now]) := by
      simp [Cache.call, hnow, hslots, hf, hn, Loader.plan?]
    rw [hsame]
    exact h.notice _
  | launch _ _ _ due outcome hf hn hp =>
    have hsame : s'.call cfg id key loader =
        (((s'.start key due outcome).attach id s.nextLoad ((s.slots key).stale? cfg s.now)).1,
          .invoked id key (some s.nextLoad) s.now ::
            ((s'.start key due outcome).attach id s.nextLoad
              ((s.slots key).stale? cfg s.now)).2) := by
      simp [Cache.call, hnow, hslots, hnext, hf, hn, hp]
    have hstarted := (h.notice [.invoked id key (some s.nextLoad) s.now]).start key due outcome
    rw [hsame]
    simpa using hstarted.attach id s.nextLoad ((s.slots key).stale? cfg s.now)

theorem finish (h : Agree counts (s, log) (s', log')) (cfg : Settings) (load : Nat) :
    Agree counts ((s.finish cfg load).1, log ++ (s.finish cfg load).2)
      ((s'.finish cfg load).1, log' ++ (s'.finish cfg load).2) := by
  have hfind : (s'.running.find? fun l => l.id = load ∧ l.due ≤ s'.now) =
      s.running.find? fun l => l.id = load ∧ l.due ≤ s.now := by
    have hnow : s.now = s'.now := h.now
    have hrunning : s.running = s'.running := h.running
    rw [hnow, hrunning]
  cases hf : s.running.find? fun l => l.id = load ∧ l.due ≤ s.now with
  | none =>
    have hidle : s.finish cfg load = (s, []) := by simp only [Cache.finish, hf]
    have hidle' : s'.finish cfg load = (s', []) := by simp only [Cache.finish, hfind, hf]
    rw [hidle, hidle']
    exact h.notice []
  | some l =>
    obtain ⟨rfl, -⟩ : l.id = load ∧ l.due ≤ s.now := by simpa using List.find?_some hf
    have hland : s.finish cfg l.id =
        (s.land cfg l, .ended l.id l.key l.outcome s.now :: s.announce l) := by
      simp only [Cache.finish, hf, Cache.land, announce]
    have hland' : s'.finish cfg l.id =
        (s'.land cfg l, .ended l.id l.key l.outcome s'.now :: s'.announce l) := by
      simp only [Cache.finish, hfind, hf, Cache.land, announce]
    rw [hland, hland']
    exact h.land cfg l

theorem step (h : Agree counts (s, log) (s', log')) (cfg : Settings) {e : Event κ ν ε ι}
    (he : e.isCancel = false) :
    Agree counts ((s.step cfg e).1, log ++ (s.step cfg e).2)
      ((s'.step cfg e).1, log' ++ (s'.step cfg e).2) := by
  cases e with
  | call id key loader => exact h.call cfg id key loader
  | cancel id => cases he
  | finish load => exact h.finish cfg load
  | pass target =>
    have hnow : s.now = s'.now := h.now
    have hrunning : s.running = s'.running := h.running
    have hpass := h.notice []
    refine ⟨?_, hpass.slots, hpass.running, hpass.nextLoad, hpass.invoked, hpass.ended,
      hpass.waiters, hpass.told⟩
    simp only [Cache.step, firstDue, hnow, hrunning]

theorem run (h : Agree counts (s, log) (s', log')) (cfg : Settings) {es : List (Event κ ν ε ι)}
    (hes : ∀ e ∈ es, e.isCancel = false) :
    Agree counts ((s.run cfg es).1, log ++ (s.run cfg es).2)
      ((s'.run cfg es).1, log' ++ (s'.run cfg es).2) := by
  induction es generalizing s s' log log' with
  | nil => simpa using h
  | cons e es ih =>
    have hnext := ih (h.step cfg (hes e (.head _))) fun e he => hes e (.tail _ he)
    simpa [run_cons] using hnext

theorem cancel (h : Agree counts (s, log) (s', log')) (cfg : Settings) {id : ι} {fewer : ι → Prop}
    (hf : ∀ c, fewer c → counts c) (hid : fewer id → s.waitersOf id = []) :
    Agree fewer ((s.step cfg (.cancel id)).1, log ++ (s.step cfg (.cancel id)).2) (s', log') := by
  have hfewer := h.mono hf
  refine ⟨hfewer.now, hfewer.slots, hfewer.running, hfewer.nextLoad, ?_, ?_, ?_, ?_⟩
  · simpa [Cache.step] using hfewer.invoked
  · simpa [Cache.step] using hfewer.ended
  · intro c hc
    refine (waitersOf_cancel cfg s id c).trans ?_
    by_cases he : c = id
    · subst he
      rw [if_pos rfl]
      exact (hid hc).symm.trans (hfewer.waiters c hc)
    · rw [if_neg he]
      exact hfewer.waiters c hc
  · simpa [Cache.step] using hfewer.told

end Agree

/-- A call is cancelled at some moment at which it waits. -/
def GivesUp (cfg : Settings) (es : List (Event κ ν ε ι)) (id : ι) : Prop :=
  ∃ before after, es = before ++ .cancel id :: after ∧
    (Cache.empty.run cfg before).1.waitersOf id ≠ []

variable {cfg : Settings} {es : List (Event κ ν ε ι)} {id : ι}

theorem GivesUp.append (h : GivesUp cfg es id) (more : List (Event κ ν ε ι)) :
    GivesUp cfg (es ++ more) id := by
  obtain ⟨before, after, rfl, hw⟩ := h
  exact ⟨before, after ++ more, by simp, hw⟩

theorem GivesUp.cancel_mem (h : GivesUp cfg es id) : .cancel id ∈ es := by
  obtain ⟨before, after, rfl, -⟩ := h
  simp

theorem run_uncancelled (cfg : Settings) (es : List (Event κ ν ε ι)) :
    Agree (fun id => ¬GivesUp cfg es id) (Cache.empty.run cfg es)
      (Cache.empty.run cfg (uncancelled es)) := by
  induction es using List.reverseRecOn with
  | nil => exact .refl _ _
  | append_singleton es e ih =>
    have hfewer (id : ι) (h : ¬GivesUp cfg (es ++ [e]) id) : ¬GivesUp cfg es id :=
      fun hg => h (hg.append [e])
    cases he : e.isCancel with
    | false =>
      rw [uncancelled_snoc es he, run_snoc, run_snoc]
      exact (ih.mono hfewer).step cfg he
    | true =>
      cases e with
      | cancel id =>
        -- who waits for something gives up here
        have hnone (h : ¬GivesUp cfg (es ++ [.cancel id]) id) :
            (Cache.empty.run cfg es).1.waitersOf id = [] :=
          not_not.1 fun hw => h ⟨es, [], rfl, hw⟩
        rw [uncancelled_snoc_cancel, run_snoc]
        exact ih.cancel cfg hfewer hnone
      | call | finish | pass => cases he

omit [DecidableEq κ] [DecidableEq ι] in
theorem exists_prefix_uncancelled {other past : List (Event κ ν ε ι)}
    (h : uncancelled es = uncancelled other) (hp : past <+: es) :
    ∃ past', past' <+: other ∧ uncancelled past = uncancelled past' := by
  have hpast : uncancelled past <+: uncancelled es := hp.filter _
  rw [h] at hpast
  exact List.prefix_filter_iff.1 hpast

theorem run_waits_untold (cfg : Settings) (es : List (Event κ ν ε ι)) {id : ι}
    (h : (callers es).count id ≤ 1) :
    (Cache.empty.run cfg es).1.waitersOf id = [] ∨
      ∃ load, (Cache.empty.run cfg es).1.waitersOf id = [⟨id, load⟩] ∧
        reports (Cache.empty.run cfg es).2 id = [] := by
  induction es using List.reverseRecOn with
  | nil => exact .inl rfl
  | append_singleton es e ih =>
    obtain ⟨hs, hr⟩ := run_coherent (ν := ν) (ε := ε) cfg es
    have m := step_move cfg (Cache.empty.run cfg es).1 e
    rw [run_snoc]
    rw [callers_append, List.count_append] at h
    by_cases he : e.caller? = some id
    · cases e with
      | call c key loader =>
        obtain rfl : c = id := Option.some.inj he
        have hfirst : c ∉ callers es := by
          rw [callers_call, List.count_cons_self] at h
          exact List.count_eq_zero.1 (by omega)
        obtain ⟨hw, hrep⟩ := run_silent cfg (s := Cache.empty) rfl hfirst
        rcases call_received hs hr hw hrep key loader with
          ⟨_, _, _, hgone, _⟩ | ⟨load, _, _, _, hh⟩ | ⟨_, _, _, hgone, _⟩
        · exact .inl hgone
        · cases hh with
          | waits l _ _ _ hwaits _ huntold => exact .inr ⟨load, hwaits, huntold⟩
          | told _ _ _ _ hgone _ _ => exact .inl hgone
        · exact .inl hgone
      | cancel | finish | pass => cases he
    · rcases ih (by omega) with hw | ⟨load, hw, hrep⟩
      · exact .inl (m.silent he hw).1
      · rcases m.lands_or_calm with ⟨l, _, _, hland⟩ | hcalm
        · -- the end of the load that the call waits for is the end of its waiting
          by_cases hl : load = l.id
          · exact .inl (by simp [hland, waitersOf_land, hw, hl])
          · refine .inr ⟨load, by simp [hland, waitersOf_land, hw, hl], ?_⟩
            simp [hland, hrep, Notice.reportOf?, reports_announce, hw, hl]
        · by_cases hc : e = .cancel id
          · subst hc
            exact .inl ((waitersOf_cancel cfg _ id id).trans (if_pos rfl))
          · refine .inr ⟨load, (hcalm.waiters id he hc).trans hw, ?_⟩
            simp [hrep, hcalm.noReport id he]

/-- A call that is made once and gives up as it waits is told nothing. -/
theorem reports_of_givesUp (h : GivesUp cfg es id) (honce : (callers es).count id ≤ 1) :
    reports (Cache.empty.run cfg es).2 id = [] := by
  obtain ⟨before, after, rfl, hwaits⟩ := h
  have hcalled : id ∈ callers before :=
    not_not.1 fun hn => hwaits (run_silent cfg (s := Cache.empty) rfl hn).1
  rw [callers_append, callers_cancel, List.count_append] at honce
  have hpast : 0 < (callers before).count id := List.count_pos_iff.2 hcalled
  have hafter : id ∉ callers after := List.count_eq_zero.1 (by omega)
  have hearlier : (callers before).count id ≤ 1 := by omega
  rcases run_waits_untold (ν := ν) (ε := ε) cfg before hearlier with hgone | ⟨load, -, huntold⟩
  · exact absurd hgone hwaits
  · have hw := (waitersOf_cancel cfg (Cache.empty.run cfg before).1 id id).trans (if_pos rfl)
    have hlater := (run_silent cfg hw hafter).2
    have hnow : ((Cache.empty.run cfg before).1.step cfg (.cancel id)).2 = [] := rfl
    rw [run_append, run_cons]
    simp [huntold, hnow, hlater]

/-- Two runs with the same events but for cancellations, at any instant of the first: at the same
instant of the second the clock, all slots and the loads under way are the same, the same loaders
have been invoked and the same loads have ended alike, and every call that has not given up while
waiting in either run has been told the same. A call that gives up while it waits is told nothing.
-/
theorem cancellation_unnoticed (cfg : Settings) (es other : List (Event κ ν ε ι))
    (h : uncancelled es = uncancelled other) :
    (∀ past, past <+: es → ∃ past', past' <+: other ∧ uncancelled past = uncancelled past' ∧
      Agree (fun id => ¬GivesUp cfg past id ∧ ¬GivesUp cfg past' id)
        (Cache.empty.run cfg past) (Cache.empty.run cfg past')) ∧
      ∀ id, GivesUp cfg es id → (callers es).count id ≤ 1 →
        reports (Cache.empty.run cfg es).2 id = [] := by
  refine ⟨?_, fun id hid honce => reports_of_givesUp hid honce⟩
  intro past hp
  obtain ⟨past', hp', hsame⟩ := exists_prefix_uncancelled h hp
  have hleft := (run_uncancelled (ν := ν) (ε := ε) cfg past).mono fun id
    (hid : ¬GivesUp cfg past id ∧ ¬GivesUp cfg past' id) => hid.1
  have hright := (run_uncancelled (ν := ν) (ε := ε) cfg past').mono fun id
    (hid : ¬GivesUp cfg past id ∧ ¬GivesUp cfg past' id) => hid.2
  rw [hsame] at hleft
  exact ⟨past', hp', hsame, hleft.trans hright.symm⟩

/-- A load outlives the call that started it: the other call is told its value all the same. -/
theorem cancellation_unnoticed_starter :
    let cfg : Settings := ⟨60, Duration.seconds 10, .waitForRefresh⟩
    let calls : List (Event Nat Nat Nat Nat) :=
      [.call 0 7 (.finishing 5 (.value 3)), .call 1 7 .hanging]
    let later : List (Event Nat Nat Nat Nat) := [.pass 1000000, .finish 0]
    let left := Cache.empty.run cfg (calls ++ .cancel 0 :: later)
    let right := Cache.empty.run cfg (calls ++ later)
    reports left.2 0 = [] ∧ reports right.2 0 = [(.value 3, 1000000)] ∧
      reports left.2 1 = reports right.2 1 ∧ reports left.2 1 = [(.value 3, 1000000)] ∧
      left.1.slots = right.1.slots ∧ left.1.slots 7 = ⟨some ⟨3, 1000060⟩, none⟩ := by
  intro cfg calls later left right
  obtain ⟨hagree, htold⟩ := cancellation_unnoticed cfg (calls ++ .cancel 0 :: later)
    (calls ++ later) rfl
  obtain ⟨past, hp, hsame, ha⟩ := hagree _ (List.prefix_refl _)
  -- nothing of the second run is left out, for it has no cancellation
  have hwhole : past = calls ++ later := by
    have hpast : uncancelled past = past := List.filter_eq_self.2 fun e he =>
      (by decide +kernel : ∀ e ∈ calls ++ later, (!e.isCancel) = true) e (hp.subset he)
    rw [← hpast, ← hsame]
    rfl
  subst hwhole
  have hcalm : ¬GivesUp cfg (calls ++ .cancel 0 :: later) 1 ∧ ¬GivesUp cfg (calls ++ later) 1 :=
    ⟨fun h => by simpa [calls, later] using h.cancel_mem,
      fun h => by simpa [calls, later] using h.cancel_mem⟩
  have hgave : GivesUp cfg (calls ++ .cancel 0 :: later) 0 :=
    ⟨calls, later, rfl, by decide +kernel⟩
  exact ⟨htold 0 hgave (by decide), by decide +kernel, ha.told 1 hcalm, by decide +kernel, ha.slots,
    by decide +kernel⟩

end BearerAccess.Cache
