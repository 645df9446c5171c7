import BearerAccess.Proofs.Cache.Provenance
set_option autoImplicit false

namespace BearerAccess.Cache

variable {κ ν ε ι : Type}

/-- The instant by which a load that starts at an instant has ended. -/
def Settings.limit (cfg : Settings) (start : Nat) : Nat :=
  Duration.ceilMillis (deadline start cfg.loadTimeout)

theorem Settings.limit_le (cfg : Settings) {start t : Nat} (h : start ≤ t) :
    cfg.limit start ≤ Duration.ceilMillis (t + cfg.loadTimeout) := by
  have hd := deadline_le start cfg.loadTimeout
  exact Duration.ceilMillis_mono (by omega)

theorem Loader.plan?_due {cfg : Settings} {now due : Nat} {loader : Loader ν ε}
    {outcome : Outcome ν ε} (h : loader.plan? cfg now = some (due, outcome)) :
    now ≤ due ∧ due ≤ cfg.limit now := by
  have hlimit : now ≤ cfg.limit now :=
    Nat.le_trans (le_deadline now cfg.loadTimeout) (Duration.le_ceilMillis _)
  cases loader with
  | crash => cases h
  | hanging =>
    obtain ⟨rfl, -⟩ := Prod.ext_iff.1 (Option.some.inj h)
    exact ⟨hlimit, Nat.le_refl _⟩
  | finishing delay ending =>
    have hfinish : now ≤ if delay = 0 then now else Duration.ceilMillis (deadline now delay) := by
      split
      · exact Nat.le_refl _
      · exact Nat.le_trans (le_deadline now delay) (Duration.le_ceilMillis _)
    simp only [Loader.plan?] at h
    generalize (if delay = 0 then now else _) = finish at h hfinish
    split at h
    · rename_i hle
      obtain ⟨rfl, -⟩ := Prod.ext_iff.1 (Option.some.inj h)
      exact ⟨hfinish, hle⟩
    · obtain ⟨rfl, -⟩ := Prod.ext_iff.1 (Option.some.inj h)
      exact ⟨hlimit, Nat.le_refl _⟩

theorem le_foldl_min_due {loads : List (Load κ ν ε)} {t x : Nat} :
    x ≤ loads.foldl (fun t l => min t l.due) t ↔ x ≤ t ∧ ∀ l ∈ loads, x ≤ l.due := by
  induction loads generalizing t with
  | nil => simp
  | cons l loads ih => simp only [List.foldl_cons, List.forall_mem_cons, ih, Nat.le_min, and_assoc]

theorem le_firstDue {s : Cache κ ν ε ι} {target x : Nat} :
    x ≤ s.firstDue target ↔ x ≤ target ∧ ∀ l ∈ s.running, x ≤ l.due := le_foldl_min_due

variable [DecidableEq κ] [DecidableEq ι]

theorem run_ahead (cfg : Settings) (es : List (Event κ ν ε ι)) :
    ∀ l ∈ (Cache.empty.run cfg es).1.running, (Cache.empty.run cfg es).1.now ≤ l.due := by
  refine run_induction cfg (P := fun _ s _ => ∀ l ∈ s.running, s.now ≤ l.due)
    (by simp [Cache.empty]) ?_ es
  intro _ s _ e h
  have m := step_move cfg s e
  generalize s.step cfg e = r at m ⊢
  cases m with
  | hit | crash | cancel | idle => exact h
  | join => simpa using h
  | launch id key loader due outcome _ _ hp =>
    intro l hl
    simp only [attach_running, attach_now, start_running, start_now, List.mem_append,
      List.mem_singleton] at hl ⊢
    rcases hl with hl | rfl
    · exact h l hl
    · exact (Loader.plan?_due hp).1
  | land l _ _ => exact fun r hr => h r (List.mem_filter.1 hr).1
  | pass target =>
    exact fun l hl => Nat.max_le.2 ⟨h l hl, (le_firstDue.1 (Nat.le_refl _)).2 l hl⟩

theorem run_due (cfg : Settings) (es : List (Event κ ν ε ι)) {l : Load κ ν ε}
    (hl : l ∈ (Cache.empty.run cfg es).1.running) :
    ∃ call start, .invoked call l.key (some l.id) start ∈ (Cache.empty.run cfg es).2 ∧
      l.due ≤ cfg.limit start := by
  obtain ⟨call, loader, start, -, hstart, hplan⟩ := (run_sourced cfg es).1 l hl
  exact ⟨call, start, hstart, (Loader.plan?_due hplan).2⟩

theorem run_ended_due (cfg : Settings) (es : List (Event κ ν ε ι)) {load now : Nat} {key : κ}
    {outcome : Outcome ν ε} (h : .ended load key outcome now ∈ (Cache.empty.run cfg es).2) :
    ∃ call start, .invoked call key (some load) start ∈ (Cache.empty.run cfg es).2 ∧
      now ≤ cfg.limit start := by
  obtain ⟨a, e, b, rfl, hstep⟩ := exists_step_of_mem cfg h
  obtain ⟨rfl, l, hl, -, rfl, rfl, -, -, -⟩ := (step_move cfg _ e).ended_lands hstep
  obtain ⟨call, start, hstart, hdue⟩ := run_due cfg a hl
  refine ⟨call, start, ?_, Nat.le_trans (run_ahead cfg a l hl) hdue⟩
  rw [run_append]
  exact List.mem_append_left _ hstart

end BearerAccess.Cache
