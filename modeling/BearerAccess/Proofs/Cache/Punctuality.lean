import BearerAccess.Proofs.Cache.Clock
import BearerAccess.Proofs.Cache.SingleFlight
import BearerAccess.Proofs.Cache.Waiting
set_option autoImplicit false

namespace BearerAccess.Cache

variable {κ ν ε ι : Type} [DecidableEq κ] [DecidableEq ι] {cfg : Settings}
  {es : List (Event κ ν ε ι)}

def StartedOnce (log : List (Notice κ ν ε ι)) : Prop :=
  ∀ call call' key key' load start start', .invoked call key (some load) start ∈ log →
    .invoked call' key' (some load) start' ∈ log → start = start'

theorem run_startedOnce (cfg : Settings) (es : List (Event κ ν ε ι)) :
    StartedOnce (Cache.empty.run cfg es).2 := by
  refine run_sound_induction cfg (P := fun _ _ log => StartedOnce log) (by simp [StartedOnce]) ?_ es
  intro _ s log e r _ hr m ih call call' key key' load start start' h h'
  have hlt {call : ι} {key : κ} {start : Nat} (h : .invoked call key (some load) start ∈ log) :
      load < s.nextLoad := hr.started key load (mem_starts.2 ⟨call, start, h⟩)
  rcases List.mem_append.1 h with hold | hnew <;> rcases List.mem_append.1 h' with hold' | hnew'
  · exact ih _ _ _ _ _ _ _ hold hold'
  · exact absurd (m.claim_free hnew').2.1 (Nat.ne_of_lt (hlt hold))
  · exact absurd (m.claim_free hnew).2.1 (Nat.ne_of_lt (hlt hold'))
  · exact (m.claim_free hnew).2.2.trans (m.claim_free hnew').2.2.symm

section Start

variable {call : ι} {key : κ} {load start : Nat}

theorem run_due_by (hstart : .invoked call key (some load) start ∈ (Cache.empty.run cfg es).2)
    {l : Load κ ν ε} (hl : l ∈ (Cache.empty.run cfg es).1.running) (hid : l.id = load) :
    l.due ≤ cfg.limit start := by
  obtain ⟨_, t, ht, hdue⟩ := run_due cfg es hl
  rw [hid] at ht
  rwa [run_startedOnce cfg es _ _ _ _ _ _ _ hstart ht]

theorem run_ended_by (hstart : .invoked call key (some load) start ∈ (Cache.empty.run cfg es).2)
    {k : κ} {outcome : Outcome ν ε} {now : Nat}
    (hended : .ended load k outcome now ∈ (Cache.empty.run cfg es).2) : now ≤ cfg.limit start := by
  obtain ⟨_, t, ht, hdue⟩ := run_ended_due cfg es hended
  rwa [run_startedOnce cfg es _ _ _ _ _ _ _ hstart ht]

end Start

/-- A call that has been told once, by an instant, and waits no more. -/
def ToldBy (latest : Nat) (id : ι) (r : Cache κ ν ε ι × List (Notice κ ν ε ι)) : Prop :=
  ∃ report t, reports r.2 id = [(report, t)] ∧ t ≤ latest ∧ r.1.waitersOf id = []

/-- A call that waits for a load which is due by an instant, with the clock not past the load. -/
def WaitsBy (latest : Nat) (id : ι) (r : Cache κ ν ε ι × List (Notice κ ν ε ι)) : Prop :=
  ∃ l ∈ r.1.running, r.1.now ≤ l.due ∧ l.due ≤ latest ∧ r.1.waitersOf id = [⟨id, l.id⟩] ∧
    reports r.2 id = []

theorem Hearing.told_or_waits {id starter : ι} {key k : κ} {load start latest : Nat}
    (h : Hearing id key load (Cache.empty.run cfg es).1 (Cache.empty.run cfg es).2)
    (hstart : .invoked starter k (some load) start ∈ (Cache.empty.run cfg es).2)
    (hle : cfg.limit start ≤ latest) :
    ToldBy latest id (Cache.empty.run cfg es) ∨ WaitsBy latest id (Cache.empty.run cfg es) := by
  cases h with
  | waits l hl hid _ hwaits _ huntold =>
    have hdue := Nat.le_trans (run_due_by hstart hl hid) hle
    subst hid
    exact .inr ⟨l, hl, run_ahead cfg es l hl, hdue, hwaits, huntold⟩
  | told outcome t _ _ hgone hend htold =>
    have hended : .ended load key outcome t ∈ (Cache.empty.run cfg es).2 :=
      mem_endings.1 (hend ▸ List.mem_singleton_self _)
    exact .inl ⟨_, t, htold, Nat.le_trans (run_ended_by hstart hended) hle, hgone⟩

section Call

variable {before after : List (Event κ ν ε ι)} {id : ι} {key : κ} {loader : Loader ν ε}

theorem toldBy_of_atOnce {report : Report ν ε} {latest : Nat} (hb : id ∉ callers before)
    (ha : id ∉ callers after) (hle : (Cache.empty.run cfg before).1.now ≤ latest)
    (hw : ((Cache.empty.run cfg before).1.step cfg (.call id key loader)).1.waitersOf id = [])
    (hat : reports ((Cache.empty.run cfg before).1.step cfg (.call id key loader)).2 id =
      [(report, (Cache.empty.run cfg before).1.now)]) :
    ToldBy latest id (Cache.empty.run cfg (before ++ .call id key loader :: after)) := by
  have hpast := (run_silent cfg (s := (Cache.empty : Cache κ ν ε ι)) rfl hb).2
  obtain ⟨hgone, hmore⟩ := run_silent cfg hw ha
  rw [run_append, run_cons]
  exact ⟨report, _, by simp [hpast, hat, hmore], hle, hgone⟩

/-- A call is told by the time limit of a load that starts as it comes, or waits for a load that is
due by then. -/
theorem told_or_waits (key : κ) (loader : Loader ν ε) (hb : id ∉ callers before)
    (ha : id ∉ callers after) (hc : .cancel id ∉ after) :
    let latest := Duration.ceilMillis ((Cache.empty.run cfg before).1.now + cfg.loadTimeout)
    let r := Cache.empty.run cfg (before ++ .call id key loader :: after)
    ToldBy latest id r ∨ WaitsBy latest id r := by
  intro latest r
  obtain ⟨hs, hr⟩ := run_coherent (ν := ν) (ε := ε) cfg before
  obtain ⟨hw, hrep⟩ := run_silent cfg (s := (Cache.empty : Cache κ ν ε ι)) rfl hb
  have hle : (Cache.empty.run cfg before).1.now ≤ latest :=
    Nat.le_trans (Nat.le_add_right _ _) (Duration.le_ceilMillis _)
  rcases call_received hs hr hw hrep key loader with
    ⟨v, t, _, hgone, hat⟩ | ⟨load, hj, _, _, hh⟩ | ⟨_, _, _, hgone, hat⟩
  · exact .inl (toldBy_of_atOnce hb ha hle hgone hat)
  · have hwhole : r = ((((Cache.empty.run cfg before).1.step cfg (.call id key loader)).1.run cfg
        after).1, (Cache.empty.run cfg before).2 ++
        (((Cache.empty.run cfg before).1.step cfg (.call id key loader)).2 ++
          (((Cache.empty.run cfg before).1.step cfg (.call id key loader)).1.run cfg after).2)) := by
      simp only [r, run_append, run_cons]
    have hlater : Hearing id key load r.1 r.2 := by
      rw [hwhole, ← List.append_assoc]
      exact hh.run cfg (hs.move (step_move cfg _ _)) ha hc
    -- the load was under way as the call came, or the call started it
    obtain ⟨starter, start, hstart, hearly⟩ : ∃ starter start,
        .invoked starter key (some load) start ∈ r.2 ∧
          start ≤ (Cache.empty.run cfg before).1.now := by
      rw [hwhole]
      rcases hj with hopen | ⟨-, hnew⟩
      · have hm : load ∈ openLoads (Cache.empty.run cfg before).2 key := by simp [hopen]
        obtain ⟨starter, start, hm⟩ := mem_starts.1 (List.mem_filter.1 hm).1
        exact ⟨starter, start, List.mem_append_left _ hm, hr.past _ hm⟩
      · exact ⟨id, _, List.mem_append_right _ (List.mem_append_left _ hnew), Nat.le_refl _⟩
    exact hlater.told_or_waits hstart (cfg.limit_le hearly)
  · exact .inl (toldBy_of_atOnce hb ha hle hgone hat)

end Call

theorem run_clock (cfg : Settings) (target : Nat) (s : Cache κ ν ε ι)
    (h : ∀ e ∈ es, (∃ load, e = .finish load) ∨ ∃ t ≤ target, e = .pass t) :
    s.now ≤ (s.run cfg es).1.now ∧ (s.run cfg es).1.now ≤ max s.now target := by
  induction es generalizing s with
  | nil => exact ⟨Nat.le_refl _, Nat.le_max_left _ _⟩
  | cons e es ih =>
    obtain ⟨hlow, hhigh⟩ := ih (s.step cfg e).1 fun e he => h e (.tail _ he)
    have hstep : s.now ≤ (s.step cfg e).1.now ∧ (s.step cfg e).1.now ≤ max s.now target := by
      have m := step_move cfg s e
      rcases h e (.head _) with ⟨load, rfl⟩ | ⟨t, ht, rfl⟩
      · generalize s.step cfg (.finish load) = r at m ⊢
        cases m with
        | idle => exact ⟨Nat.le_refl _, Nat.le_max_left _ _⟩
        | land l _ _ => exact ⟨Nat.le_refl _, Nat.le_max_left _ _⟩
      · have hfirst : s.firstDue t ≤ t := (le_firstDue.1 (Nat.le_refl _)).1
        simp only [step]
        omega
    rw [run_cons]
    simp only
    omega

theorem Sound.runUntil_now {s : Cache κ ν ε ι} (h : Sound s) (cfg : Settings) (target : Nat) :
    (s.runUntil cfg target).1.now = max s.now target := by
  have hby (l : Load κ ν ε) (hl : l ∈ s.dueBy target) : l.due ≤ target := (mem_dueBy.1 hl).2
  have hevents (e : Event κ ν ε ι)
      (he : e ∈ (s.dueBy target).flatMap fun l => [.pass l.due, .finish l.id]) :
      (∃ load, e = .finish load) ∨ ∃ t ≤ target, e = .pass t := by
    obtain ⟨l, hl, he⟩ := List.mem_flatMap.1 he
    rcases List.mem_cons.1 he with rfl | he
    · exact .inr ⟨l.due, hby l hl, rfl⟩
    · exact .inl ⟨l.id, List.mem_singleton.1 he⟩
  have hclock := run_clock cfg target s hevents
  have hleft := h.all_end cfg target (dueBy_pairwise s target) hby fun l hl hle =>
    mem_dueBy.2 ⟨hl, hle⟩
  rw [runUntil, agenda, run_snoc]
  generalize (s.run cfg ((s.dueBy target).flatMap _)).1 = s' at hclock hleft ⊢
  have hfirst : s'.firstDue target = target :=
    foldl_min_due fun l hl => Nat.le_of_lt (hleft l hl)
  simp only [step, hfirst]
  omega

def runThrough (cfg : Settings) (es : List (Event κ ν ε ι)) (target : Nat) :
    Cache κ ν ε ι × List (Notice κ ν ε ι) :=
  Cache.empty.run cfg (es ++ (Cache.empty.run cfg es).1.agenda target)

theorem runThrough_eq (cfg : Settings) (es : List (Event κ ν ε ι)) (target : Nat) :
    runThrough cfg es target = (((Cache.empty.run cfg es).1.runUntil cfg target).1,
      (Cache.empty.run cfg es).2 ++ ((Cache.empty.run cfg es).1.runUntil cfg target).2) :=
  run_append cfg _ _ _

theorem runThrough_now (cfg : Settings) (es : List (Event κ ν ε ι)) (target : Nat) :
    (runThrough cfg es target).1.now = max (Cache.empty.run cfg es).1.now target := by
  rw [runThrough_eq]
  exact (run_coherent cfg es).1.runUntil_now cfg target

theorem runThrough_due (cfg : Settings) (es : List (Event κ ν ε ι)) (target : Nat) :
    ∀ l ∈ (runThrough cfg es target).1.running, target < l.due := by
  rw [runThrough_eq]
  exact (run_coherent cfg es).1.runUntil_due cfg target

theorem toldBy_through {before after : List (Event κ ν ε ι)} {id : ι} (key : κ)
    (loader : Loader ν ε) (hb : id ∉ callers before) (ha : id ∉ callers after)
    (hc : .cancel id ∉ after) {target : Nat}
    (hle : Duration.ceilMillis ((Cache.empty.run cfg before).1.now + cfg.loadTimeout) ≤ target) :
    ToldBy (Duration.ceilMillis ((Cache.empty.run cfg before).1.now + cfg.loadTimeout)) id
      (runThrough cfg (before ++ .call id key loader :: after) target) := by
  have hquiet := agenda_unprompted
    (Cache.empty.run cfg (before ++ .call id key loader :: after)).1 target
  have hleft := runThrough_due cfg (before ++ .call id key loader :: after) target
  rw [runThrough, List.append_assoc] at hleft ⊢
  generalize agenda _ target = waits at hquiet hleft ⊢
  have ha' : id ∉ callers (after ++ waits) := by simp [ha, callers_unprompted hquiet]
  have hc' : .cancel id ∉ after ++ waits := by simpa [hc] using cancel_not_mem_unprompted hquiet id
  rcases told_or_waits key loader hb ha' hc' with htold | ⟨l, hl, _, hdue, _⟩
  · exact htold
  · -- what is due by the target has ended
    exact absurd (Nat.le_trans hdue hle) (Nat.not_le.2 (hleft l hl))

theorem claim_expires {key : κ} {load : Nat}
    (hc : ((Cache.empty.run cfg es).1.slots key).inFlight? = some load) :
    ∃ call start, .invoked call key (some load) start ∈ (Cache.empty.run cfg es).2 ∧
      (Cache.empty.run cfg es).1.now ≤ cfg.limit start ∧
      ∀ target, cfg.limit start ≤ target →
        ((runThrough cfg es target).1.slots key).inFlight? ≠ some load := by
  obtain ⟨l, hl, rfl, rfl⟩ := (run_coherent (ν := ν) (ε := ε) cfg es).1.exists_claimant hc
  obtain ⟨call, start, hstart, hdue⟩ := run_due cfg es hl
  refine ⟨call, start, hstart, Nat.le_trans (run_ahead cfg es l hl) hdue, ?_⟩
  intro target hle hkept
  obtain ⟨r, hr, -, hid⟩ := (run_coherent cfg (es ++ _)).1.exists_claimant hkept
  have hlater : .invoked call l.key (some l.id) start ∈ (runThrough cfg es target).2 := by
    rw [runThrough_eq]
    exact List.mem_append_left _ hstart
  have hstill := run_due_by hlater hr hid
  have hlate := runThrough_due cfg es target r hr
  omega

/-- Every call that is not cancelled has been told by the first whole millisecond not before the
load timeout has passed since it came; until then it waits for a load that is due by then. Time can
pass until any instant, and when it has passed until then the call has been told. No slot keeps the
claim of a load for longer than that, counted from the start of the load. -/
theorem told_in_time (cfg : Settings) (es : List (Event κ ν ε ι)) :
    let r := Cache.empty.run cfg es
    (∀ before after id key loader, es = before ++ .call id key loader :: after →
      id ∉ callers before → id ∉ callers after → .cancel id ∉ after →
      let latest := Duration.ceilMillis ((Cache.empty.run cfg before).1.now + cfg.loadTimeout)
      (ToldBy latest id r ∨ WaitsBy latest id r) ∧ (latest < r.1.now → ToldBy latest id r) ∧
        ∀ target, latest ≤ target → ToldBy latest id (runThrough cfg es target)) ∧
    (∀ target, (runThrough cfg es target).1.now = max r.1.now target) ∧
    ∀ key load, (r.1.slots key).inFlight? = some load →
      ∃ call start, .invoked call key (some load) start ∈ r.2 ∧
        let latest := Duration.ceilMillis (start + cfg.loadTimeout)
        r.1.now ≤ latest ∧ ∀ target, latest ≤ target →
          ((runThrough cfg es target).1.slots key).inFlight? ≠ some load := by
  intro r
  refine ⟨?_, runThrough_now cfg es, ?_⟩
  · rintro before after id key loader rfl hb ha hc latest
    have hnow : ToldBy latest id r ∨ WaitsBy latest id r := told_or_waits key loader hb ha hc
    refine ⟨hnow, ?_, fun target hle => toldBy_through key loader hb ha hc hle⟩
    intro hlt
    rcases hnow with htold | ⟨l, _, hahead, hdue, _⟩
    · exact htold
    · omega
  · intro key load hclaim
    obtain ⟨call, start, hstart, hahead, hgone⟩ := claim_expires hclaim
    have hlimit := cfg.limit_le (Nat.le_refl start)
    exact ⟨call, start, hstart, Nat.le_trans hahead hlimit, fun target hle =>
      hgone target (Nat.le_trans hlimit hle)⟩

/-- A call joins a load that hangs: it is told within its own ten seconds. -/
theorem told_in_time_joined :
    let cfg : Settings := ⟨60, Duration.seconds 10, .waitForRefresh⟩
    let before : List (Event Nat Nat Nat Nat) :=
      [.call 0 7 .hanging, .pass (Duration.seconds 4)]
    let r := Cache.empty.run cfg (before ++ [.call 1 7 .hanging])
    let later := runThrough cfg (before ++ [.call 1 7 .hanging]) (Duration.seconds 14)
    r.1.waitersOf 1 = [⟨1, 0⟩] ∧ ToldBy (Duration.seconds 14) 1 later ∧
      later.1.now = Duration.seconds 14 ∧ (r.1.slots 7).inFlight? = some 0 ∧
      (later.1.slots 7).inFlight? ≠ some 0 := by
  intro cfg before r later
  obtain ⟨hcall, hclock, hclaim⟩ := told_in_time cfg (before ++ [.call 1 7 .hanging])
  have hlatest : Duration.ceilMillis ((Cache.empty.run cfg before).1.now + cfg.loadTimeout) =
      Duration.seconds 14 := by decide +kernel
  have htold := (hcall before [] 1 7 .hanging rfl (by decide) (by decide) (by simp)).2.2
    (Duration.seconds 14) (Nat.le_of_eq hlatest)
  rw [hlatest] at htold
  have hheld : (r.1.slots 7).inFlight? = some 0 := by decide +kernel
  obtain ⟨call, start, hstart, -, hgone⟩ := hclaim 7 0 hheld
  have hzero : start = 0 :=
    run_startedOnce cfg (before ++ [.call 1 7 .hanging]) _ 0 _ 7 0 _ _ hstart (.head _)
  refine ⟨by decide +kernel, htold, (hclock _).trans (by decide +kernel), hheld, hgone _ ?_⟩
  rw [hzero]
  decide +kernel

end BearerAccess.Cache
