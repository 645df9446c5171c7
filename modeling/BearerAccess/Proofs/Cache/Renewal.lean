import BearerAccess.Proofs.Cache.Clock
import BearerAccess.Proofs.Cache.Delivery
import BearerAccess.Proofs.Cache.Demand
import BearerAccess.Proofs.Cache.SingleFlight
import BearerAccess.Proofs.Cache.Staleness
set_option autoImplicit false

namespace BearerAccess.Cache

variable {κ ν ε ι : Type}

/-- The instant after which calls are told nothing that was loaded from before another instant. -/
def Settings.renewedBy (cfg : Settings) (since : Nat) : Nat :=
  Duration.ceilMillis (since + cfg.loadTimeout) + cfg.ttl + cfg.grace

theorem Settings.le_renewedBy (cfg : Settings) (since : Nat) : since ≤ cfg.renewedBy since := by
  have hle := Duration.le_ceilMillis (since + cfg.loadTimeout)
  unfold renewedBy
  omega

variable [DecidableEq κ]

def Notice.startSince? (key : κ) (since : Nat) : Notice κ ν ε ι → Option Nat
  | .invoked _ k load? now => if k = key ∧ since ≤ now then load? else none
  | _ => none

def startsSince (log : List (Notice κ ν ε ι)) (key : κ) (since : Nat) : List Nat :=
  log.filterMap (Notice.startSince? key since)

/-- A load of the key that started at an instant or later has given a value. -/
def Succeeded (log : List (Notice κ ν ε ι)) (key : κ) (since : Nat) : Prop :=
  ∃ load ∈ startsSince log key since, ∃ v t, .ended load key (.ok v) t ∈ log

section Log

variable {log : List (Notice κ ν ε ι)} {key : κ} {since : Nat}

@[simp] theorem startsSince_append (more : List (Notice κ ν ε ι)) :
    startsSince (log ++ more) key since = startsSince log key since ++ startsSince more key since :=
  List.filterMap_append

theorem mem_startsSince {load : Nat} : load ∈ startsSince log key since ↔
    ∃ call start, .invoked call key (some load) start ∈ log ∧ since ≤ start := by
  simp only [startsSince, List.mem_filterMap]
  constructor
  · rintro ⟨n, hn, hload⟩
    cases n with
    | invoked call k load? start =>
      obtain ⟨⟨rfl, hle⟩, rfl⟩ : (k = key ∧ since ≤ start) ∧ load? = some load := by
        simpa [Notice.startSince?] using hload
      exact ⟨call, start, hn, hle⟩
    | ended | reported => cases hload
  · rintro ⟨call, start, hn, hle⟩
    exact ⟨_, hn, by simp [Notice.startSince?, hle]⟩

theorem exists_latest? {load t : Nat} {v : ν} (h : .ended load key (.ok v) t ∈ log) :
    ∃ p, latest? log key = some p := by
  apply Option.ne_none_iff_exists'.1
  intro hnone
  have hnil := List.filterMap_eq_nil_iff.1 (List.getLast?_eq_none_iff.1 hnone) _ h
  simp [Notice.valueOf?] at hnil

end Log

variable [DecidableEq ι] {cfg : Settings} {s : Cache κ ν ε ι} {log : List (Notice κ ν ε ι)}
  {e : Event κ ν ε ι} {r : Cache κ ν ε ι × List (Notice κ ν ε ι)} {key : κ} {since : Nat}

/-- What is stored and what is under way for a key comes from loads that started at an instant or
later. -/
structure Ahead (key : κ) (since : Nat) (s : Cache κ ν ε ι) (log : List (Notice κ ν ε ι)) :
    Prop where
  latest : ∀ v t, latest? log key = some (v, t) →
    ∃ load ∈ startsSince log key since, .ended load key (.ok v) t ∈ log
  running : ∀ l ∈ s.running, l.key = key → l.id ∈ startsSince log key since

theorem Move.startsSince_eq (m : Move cfg s e r) {load : Nat}
    (h : load ∈ startsSince r.2 key since) : load = s.nextLoad ∧ since ≤ s.now := by
  obtain ⟨call, start, hstart, hle⟩ := mem_startsSince.1 h
  obtain ⟨-, rfl, rfl⟩ := m.claim_free hstart
  exact ⟨rfl, hle⟩

theorem Ahead.move (h : Ahead key since s log) (hnow : since ≤ s.now) (m : Move cfg s e r) :
    Ahead key since r.1 (log ++ r.2) := by
  refine ⟨?_, ?_⟩
  · intro v t hl
    rw [latest?_append, Option.or_eq_some_iff] at hl
    rcases hl with hl | ⟨-, hl⟩
    · obtain ⟨d, hd⟩ := ended_of_latest? hl
      obtain ⟨-, l, hl, -, rfl, hk, -⟩ := m.ended_lands hd
      exact ⟨l.id, by simp [h.running l hl hk], List.mem_append_right _ hd⟩
    · obtain ⟨d, hd, hm⟩ := h.latest v t hl
      exact ⟨d, by simp [hd], List.mem_append_left _ hm⟩
  · intro l hl hk
    rcases m.running_cases hl with hold | ⟨call, loader, t, -, hstart, -⟩
    · simp [h.running l hold hk]
    · obtain ⟨-, -, rfl⟩ := m.claim_free hstart
      exact mem_startsSince.2 ⟨call, s.now, List.mem_append_right _ (hk ▸ hstart), hnow⟩

theorem Move.ahead (m : Move cfg s e r) (hs : Sound s) {load t : Nat} {v : ν}
    (hload : load ∈ startsSince (log ++ r.2) key since) (hended : .ended load key (.ok v) t ∈ r.2) :
    Ahead key since r.1 (log ++ r.2) := by
  obtain ⟨-, l, hl, -, rfl, rfl, -, he, hr⟩ := m.ended_lands hended
  refine ⟨?_, ?_⟩
  · intro w stored hlatest
    obtain ⟨p, hp⟩ := exists_latest? hended
    rw [latest?_append, hp, Option.some_or] at hlatest
    cases hlatest
    obtain ⟨d, hd⟩ := ended_of_latest? hp
    obtain ⟨-, l', -, -, rfl, -, -, he', -⟩ := m.ended_lands hd
    have hid : l.id = l'.id := Event.finish.inj (he.symm.trans he')
    exact ⟨l'.id, hid ▸ hload, List.mem_append_right _ hd⟩
  · intro l' hl' hk
    rw [hr] at hl'
    obtain ⟨hl', hne⟩ := List.mem_filter.1 hl'
    simp [hs.eq_of_key hl' hl hk] at hne

theorem run_ahead_of_succeeded (cfg : Settings) (es : List (Event κ ν ε ι)) (key : κ)
    (since : Nat) : Succeeded (Cache.empty.run cfg es).2 key since →
      Ahead key since (Cache.empty.run cfg es).1 (Cache.empty.run cfg es).2 := by
  refine run_sound_induction cfg
    (P := fun _ s log => Succeeded log key since → Ahead key since s log)
    (fun ⟨load, hload, _⟩ => nomatch hload) ?_ es
  rintro _ s log e r hs hr m ih ⟨load, hload, v, t, hended⟩
  rcases List.mem_append.1 hended with hold | hnew
  · -- the load ended before this step, so it has started before as well
    have hstarted : load ∈ startsSince log key since := by
      rw [startsSince_append] at hload
      rcases List.mem_append.1 hload with hm | hm
      · exact hm
      · obtain ⟨rfl, -⟩ := m.startsSince_eq hm
        exact absurd (hr.lt_of_mem_ends (mem_ends.2 ⟨_, _, hold⟩)) (Nat.lt_irrefl _)
    obtain ⟨call, start, hm, hle⟩ := mem_startsSince.1 hstarted
    exact (ih ⟨load, hstarted, v, t, hold⟩).move (Nat.le_trans hle (hr.past _ hm)) m
  · exact m.ahead hs hload hnew

/-- Whether calls that are made in a state are told of loads only that start at an instant or later:
either what started before can be told no more, or a later load has succeeded. -/
def Renewing (cfg : Settings) (s : Cache κ ν ε ι) (log : List (Notice κ ν ε ι)) (key : κ)
    (since : Nat) : Prop :=
  cfg.renewedBy since < s.now ∨ Succeeded log key since

omit [DecidableEq ι] in
theorem Renewing.le_now (h : Renewing cfg s log key since) (hr : Recorded cfg s log) :
    since ≤ s.now := by
  rcases h with hlate | ⟨load, hload, -⟩
  · have hle := cfg.le_renewedBy since
    omega
  · obtain ⟨call, start, hm, hle⟩ := mem_startsSince.1 hload
    exact Nat.le_trans hle (hr.past _ hm)

theorem Renewing.running {es : List (Event κ ν ε ι)}
    (h : Renewing cfg (Cache.empty.run cfg es).1 (Cache.empty.run cfg es).2 key since)
    {l : Load κ ν ε} (hl : l ∈ (Cache.empty.run cfg es).1.running) (hk : l.key = key) :
    l.id ∈ startsSince (Cache.empty.run cfg es).2 key since := by
  rcases h with hlate | hsucceeded
  · obtain ⟨call, start, hstart, hdue⟩ := run_due cfg es hl
    refine mem_startsSince.2 ⟨call, start, hk ▸ hstart, Nat.le_of_not_lt fun hlt => ?_⟩
    -- a load that started before would have ended by now
    have hahead := run_ahead cfg es l hl
    have hlimit := cfg.limit_le (Nat.le_of_lt hlt)
    unfold Settings.renewedBy at hlate
    omega
  · exact (run_ahead_of_succeeded cfg es key since hsucceeded).running l hl hk

theorem Renewing.served {es : List (Event κ ν ε ι)}
    (h : Renewing cfg (Cache.empty.run cfg es).1 (Cache.empty.run cfg es).2 key since) {v : ν}
    {stored : Nat} (hl : latest? (Cache.empty.run cfg es).2 key = some (v, stored))
    (hlt : (Cache.empty.run cfg es).1.now < stored + cfg.ttl + cfg.grace) :
    ∃ load ∈ startsSince (Cache.empty.run cfg es).2 key since,
      .ended load key (.ok v) stored ∈ (Cache.empty.run cfg es).2 := by
  rcases h with hlate | hsucceeded
  · obtain ⟨load, hended⟩ := ended_of_latest? hl
    obtain ⟨call, start, hstart, hdue⟩ := run_ended_due cfg es hended
    refine ⟨load, mem_startsSince.2 ⟨call, start, hstart, Nat.le_of_not_lt fun hlt' => ?_⟩, hended⟩
    -- what a load that started before has left would have lapsed by now
    have hlimit := cfg.limit_le (Nat.le_of_lt hlt')
    unfold Settings.renewedBy at hlate
    omega
  · exact (run_ahead_of_succeeded cfg es key since hsucceeded).latest v stored hl

omit [DecidableEq κ] in
theorem Hearing.reports_of_ended {id : ι} {load t : Nat} {k : κ} {outcome : Outcome ν ε}
    (h : Hearing id key load s log) (hm : .ended load k outcome t ∈ log) :
    reports log id = [(.ofOutcome outcome, t)] := by
  have hm := mem_endings.2 hm
  cases h with
  | waits _ _ _ _ _ hnone _ =>
    rw [hnone] at hm
    cases hm
  | told o now _ _ _ hend hrep =>
    rw [hend] at hm
    cases List.mem_singleton.1 hm
    exact hrep

theorem Hearing.eq_of_running {id : ι} {load : Nat} (h : Hearing id key load s log) (hs : Sound s)
    (hnone : reports log id = []) {l : Load κ ν ε} (hl : l ∈ s.running) (hk : l.key = key) :
    load = l.id := by
  cases h with
  | waits d hd hid hdk _ _ _ => rw [← hid, hs.eq_of_key hd hl (hdk.trans hk.symm)]
  | told _ _ _ _ _ _ hrep => cases hnone.symm.trans hrep

section Call

variable {before later : List (Event κ ν ε ι)} {id : ι} (cfg)
  (hb : id ∉ callers before) (hl : id ∉ callers later) (hc : .cancel id ∉ later) (key)
  (loader : Loader ν ε)

include hb hl hc

theorem told_since {v : ν} {t : Nat}
    (hrep : reports (Cache.empty.run cfg (before ++ .call id key loader :: later)).2 id =
      [(.value v, t)])
    (h : Renewing cfg (Cache.empty.run cfg before).1 (Cache.empty.run cfg before).2 key since) :
    ∃ load ∈ startsSince (Cache.empty.run cfg (before ++ .call id key loader :: later)).2 key since,
      ∃ stored, .ended load key (.ok v) stored ∈
        (Cache.empty.run cfg (before ++ .call id key loader :: later)).2 := by
  obtain ⟨hs, hr⟩ := run_coherent (ν := ν) (ε := ε) cfg before
  have hanswered := call_answered cfg hb hl hc key loader
  rw [run_append, run_cons] at hrep hanswered ⊢
  generalize (step cfg _ _).1.run cfg later = rest at hrep hanswered ⊢
  rcases hanswered with ⟨w, _, _, hat, hrep', _⟩ | ⟨load, hj, _, _, hh⟩ | ⟨_, _, _, _, hrep'⟩
  · -- the value stood in the slot as the call came
    cases hrep.symm.trans hrep'
    have hm := mem_reports.1 (hat ▸ List.mem_singleton_self _)
    have m := call_move cfg (Cache.empty.run cfg before).1 id key loader
    obtain ⟨-, hserved⟩ := m.served_cases hm
    obtain ⟨stored, hlatest, hlt⟩ := hr.served_latest hserved
    obtain ⟨load, hload, hended⟩ := h.served hlatest hlt
    exact ⟨load, by simp [hload], stored, List.mem_append_left _ hended⟩
  · cases hh with
    | waits _ _ _ _ _ _ hnone => cases hrep.symm.trans hnone
    | told outcome now _ _ _ hend hrep' =>
      cases outcome with
      | error cause => cases hrep.symm.trans hrep'
      | ok w =>
        cases hrep.symm.trans hrep'
        refine ⟨load, ?_, _, mem_endings.1 (hend ▸ List.mem_singleton_self _)⟩
        rcases hj with hopen | ⟨-, hstart⟩
        · -- the load was under way as the call came
          have hload : load ∈ (Cache.empty.run cfg before).1.loadsOf key := by
            rw [← hr.opened key, hopen]
            simp
          obtain ⟨l, hrunning, hk, rfl⟩ := mem_loadsOf.1 hload
          simp [h.running hrunning hk]
        · exact mem_startsSince.2 ⟨id, _, by simp [hstart], h.le_now hr⟩
  · cases hrep.symm.trans hrep'

omit hc in
theorem told_fresh {load stored : Nat} {v : ν}
    (hended : .ended load key (.ok v) stored ∈ (Cache.empty.run cfg before).2)
    (hfresh : (Cache.empty.run cfg before).1.now < deadline stored cfg.ttl) :
    reports (Cache.empty.run cfg (before ++ .call id key loader :: later)).2 id =
      [(.value v, (Cache.empty.run cfg before).1.now)] := by
  obtain ⟨hw, hpast⟩ := run_silent cfg (s := Cache.empty) rfl hb
  have hslot : ((Cache.empty.run cfg before).1.slots key).fresh?
      (Cache.empty.run cfg before).1.now = some v := by
    rcases run_standing hended with hstored | hexpired
    · simp [hstored, Slot.fresh?, hfresh]
    · exact absurd hfresh (Nat.not_lt.2 hexpired)
  have hcall : (Cache.empty.run cfg before).1.step cfg (.call id key loader) =
      ((Cache.empty.run cfg before).1,
        [.reported id (.value v) (Cache.empty.run cfg before).1.now]) := by
    simp [step, Cache.call, hslot]
  have hmore := (run_silent cfg hw hl).2
  simp [run_append, run_cons, hcall, hpast, hmore, Notice.reportOf?]

theorem told_awaited {load stored : Nat} {v : ν} {x y : List (Notice κ ν ε ι)}
    (hheard : ((Cache.empty.run cfg before).1.run cfg (.call id key loader :: later)).2 =
      x ++ .ended load key (.ok v) stored :: y) (hx : reports x id = []) :
    reports (Cache.empty.run cfg (before ++ .call id key loader :: later)).2 id =
      [(.value v, stored)] := by
  obtain ⟨a, e, b, x', y', hsplit, rfl, hstep⟩ := run_split cfg hheard
  have hnotice : .ended load key (.ok v) stored ∈
      (((Cache.empty.run cfg before).1.run cfg a).1.step cfg e).2 := by simp [hstep]
  obtain ⟨-, l, hrunning, -, rfl, hk, -, he, -⟩ := (step_move cfg _ e).ended_lands hnotice
  cases a with
  | nil =>
    obtain ⟨rfl, -⟩ := List.cons.inj hsplit
    cases he
  | cons call a =>
    obtain ⟨rfl, hrest⟩ := List.cons.inj hsplit
    obtain rfl : later = a ++ e :: b := hrest
    obtain ⟨hla, hlb⟩ := not_or.1 (mt List.mem_append.2 (callers_append a (e :: b) ▸ hl))
    obtain ⟨hca, hcb⟩ := not_or.1 (mt List.mem_append.2 hc)
    have hpast := (run_silent cfg (s := Cache.empty) rfl hb).2
    have hnone : reports (Cache.empty.run cfg (before ++ .call id key loader :: a)).2 id = [] := by
      rw [run_append, reports_append, hpast]
      exact (List.append_eq_nil_iff.1 (reports_append _ x' id ▸ hx)).1
    rcases call_answered cfg hb hla hca key loader with
      ⟨_, _, _, _, hrep, _⟩ | ⟨other, _, _, _, hh⟩ | ⟨_, _, _, _, hrep⟩
    · cases hnone.symm.trans hrep
    · -- the call waits for the one load of the key that is under way
      have hsound := (run_coherent (ν := ν) (ε := ε) cfg (before ++ .call id key loader :: a)).1
      have hstate : ((Cache.empty.run cfg before).1.run cfg (.call id key loader :: a)).1 =
          (Cache.empty.run cfg (before ++ .call id key loader :: a)).1 := by rw [run_append]
      rw [hstate] at hrunning hnotice
      have hsame := hh.eq_of_running hsound hnone hrunning hk
      have hlater := (hsame ▸ hh).run cfg hsound hlb hcb
      have hwhole : before ++ .call id key loader :: (a ++ e :: b) =
          (before ++ .call id key loader :: a) ++ e :: b := by simp
      rw [hwhole, run_append]
      exact hlater.reports_of_ended (List.mem_append_right _ (List.mem_append_left _ hnotice))
    · cases hnone.symm.trans hrep

end Call

theorem run_calls (cfg : Settings) {es : List (Event κ ν ε ι)} (h : ∀ e ∈ es, e.caller? ≠ none)
    (s : Cache κ ν ε ι) : (s.run cfg es).1.now = s.now ∧
      ∀ load k outcome t, .ended load k outcome t ∉ (s.run cfg es).2 := by
  induction es generalizing s with
  | nil => simp
  | cons e es ih =>
    have m := step_move cfg s e
    obtain ⟨hnow, hquiet⟩ := ih (fun e he => h e (.tail _ he)) (s.step cfg e).1
    have hcall := h e (.head _)
    rw [run_cons]
    refine ⟨hnow.trans ?_, fun load k outcome t hm => ?_⟩
    · generalize s.step cfg e = r at m
      cases m with
      | hit | crash => rfl
      | join | launch => simp
      | cancel | idle | land | pass => exact absurd rfl hcall
    · rcases List.mem_append.1 hm with hm | hm
      · obtain ⟨-, l, -, -, -, -, -, rfl, -⟩ := m.ended_lands hm
        exact hcall rfl
      · exact hquiet load k outcome t hm

end BearerAccess.Cache
