import BearerAccess.Cache.Schedule
import BearerAccess.Proofs.Cache.Delivery
set_option autoImplicit false

namespace BearerAccess.Cache

variable {κ ν ε ι : Type}

inductive Event.Unprompted : Event κ ν ε ι → Prop where
  | finish (load : Nat) : Unprompted (.finish load)
  | pass (target : Nat) : Unprompted (.pass target)

theorem callers_unprompted {es : List (Event κ ν ε ι)} (h : ∀ e ∈ es, e.Unprompted) :
    callers es = [] := by
  apply List.filterMap_eq_nil_iff.2
  intro e he
  cases h e he <;> rfl

theorem cancel_not_mem_unprompted {es : List (Event κ ν ε ι)} (h : ∀ e ∈ es, e.Unprompted)
    (id : ι) : .cancel id ∉ es := fun hm => nomatch h _ hm

theorem foldl_min_due {loads : List (Load κ ν ε)} {t : Nat} (h : ∀ l ∈ loads, t ≤ l.due) :
    loads.foldl (fun t l => min t l.due) t = t := by
  induction loads with
  | nil => rfl
  | cons l loads ih =>
    rw [List.foldl_cons, Nat.min_eq_left (h l (.head _))]
    exact ih fun r hr => h r (.tail _ hr)

variable [DecidableEq κ] [DecidableEq ι] {s : Cache κ ν ε ι} {log : List (Notice κ ν ε ι)}
  {es : List (Event κ ν ε ι)}

theorem Sound.run (h : Sound s) (cfg : Settings) (es : List (Event κ ν ε ι)) :
    Sound (s.run cfg es).1 := by
  induction es generalizing s with
  | nil => exact h
  | cons e es ih => exact ih (h.move (step_move cfg s e))

theorem running_unprompted (cfg : Settings) (h : ∀ e ∈ es, e.Unprompted) :
    (s.run cfg es).1.running ⊆ s.running := by
  induction es generalizing s with
  | nil => exact fun _ hl => hl
  | cons e es ih =>
    intro l hl
    have hlater := ih (fun e he => h e (.tail _ he)) hl
    rcases (step_move cfg s e).running_cases hlater with hold | ⟨call, loader, _, hcall, _⟩
    · exact hold
    · cases List.mem_singleton.1 hcall
      cases h _ (.head _)

omit [DecidableEq κ] [DecidableEq ι] in
theorem agenda_unprompted (s : Cache κ ν ε ι) (target : Nat) :
    ∀ e ∈ s.agenda target, e.Unprompted := by
  intro e he
  rcases List.mem_append.1 he with he | he
  · obtain ⟨l, _, hl⟩ := List.mem_flatMap.1 he
    rcases List.mem_cons.1 hl with rfl | hl
    · exact .pass l.due
    · obtain rfl := List.mem_singleton.1 hl
      exact .finish l.id
  · obtain rfl := List.mem_singleton.1 he
    exact .pass target

theorem first_ends (cfg : Settings) {l : Load κ ν ε} (hl : l ∈ s.running)
    (hfirst : ∀ r ∈ s.running, l.due ≤ r.due) :
    l ∉ (s.run cfg [.pass l.due, .finish l.id]).1.running := by
  have hdue : s.firstDue l.due = l.due := foldl_min_due hfirst
  have hpass : (s.step cfg (.pass l.due)).1 = { s with now := max s.now l.due } := by
    simp only [step, hdue]
  simp only [run_cons, run_nil, hpass]
  generalize hid : l.id = load
  have m := step_move cfg { s with now := max s.now l.due } (.finish load)
  generalize step cfg { s with now := max s.now l.due } (.finish load) = r at m ⊢
  cases m with
  | idle _ hnone => exact absurd (hnone l hl hid) (Nat.not_lt.2 (Nat.le_max_right _ _))
  | land d _ _ => simp [Cache.land, hid]

theorem Sound.all_end (cfg : Settings) (target : Nat) {loads : List (Load κ ν ε)}
    (hsorted : loads.Pairwise fun a b => a.due ≤ b.due) (hby : ∀ l ∈ loads, l.due ≤ target)
    (h : Sound s) (hall : ∀ l ∈ s.running, l.due ≤ target → l ∈ loads) :
    ∀ l ∈ (s.run cfg (loads.flatMap fun l => [.pass l.due, .finish l.id])).1.running,
      target < l.due := by
  induction loads generalizing s with
  | nil =>
    intro l hl
    exact Nat.lt_of_not_le fun hle => List.not_mem_nil (hall l hl hle)
  | cons d loads ih =>
    obtain ⟨hmin, hsorted⟩ := List.pairwise_cons.1 hsorted
    have hd : d.due ≤ target := hby d (.head _)
    rw [List.flatMap_cons, run_append]
    have hsub : (s.run cfg [.pass d.due, .finish d.id]).1.running ⊆ s.running :=
      running_unprompted cfg (by simpa using ⟨.pass _, .finish _⟩)
    refine ih hsorted (fun l hl => hby l (.tail _ hl)) (h.run cfg _) ?_
    intro l hl hle
    rcases List.mem_cons.1 (hall l (hsub hl) hle) with rfl | hm
    · -- what is not due by the target is due after this load as well
      refine absurd hl (first_ends cfg (hsub hl) fun r hr => ?_)
      by_cases hr' : r.due ≤ target
      · rcases List.mem_cons.1 (hall r hr hr') with rfl | hm
        · exact Nat.le_refl _
        · exact hmin r hm
      · omega
    · exact hm

omit [DecidableEq κ] [DecidableEq ι] in
theorem dueBy_pairwise (s : Cache κ ν ε ι) (target : Nat) :
    (s.dueBy target).Pairwise fun a b => a.due ≤ b.due := by
  have htrans (a b c : Load κ ν ε) (hab : decide (a.due ≤ b.due)) (hbc : decide (b.due ≤ c.due)) :
      decide (a.due ≤ c.due) := by
    simp only [decide_eq_true_eq] at hab hbc ⊢
    omega
  have htotal (a b : Load κ ν ε) : decide (a.due ≤ b.due) || decide (b.due ≤ a.due) := by
    simp only [Bool.or_eq_true, decide_eq_true_eq]
    omega
  have h := List.pairwise_mergeSort htrans htotal (s.running.filter fun l => l.due ≤ target)
  simpa [dueBy] using h

omit [DecidableEq κ] [DecidableEq ι] in
theorem mem_dueBy {target : Nat} {l : Load κ ν ε} :
    l ∈ s.dueBy target ↔ l ∈ s.running ∧ l.due ≤ target := by
  simp [dueBy]

/-- After time has passed until an instant, every load that is left is due later. -/
theorem Sound.runUntil_due (h : Sound s) (cfg : Settings) (target : Nat) :
    ∀ l ∈ (s.runUntil cfg target).1.running, target < l.due := by
  intro l hl
  refine h.all_end cfg target (dueBy_pairwise s target) (fun l hl => (mem_dueBy.1 hl).2)
    (fun l hl hle => mem_dueBy.2 ⟨hl, hle⟩) l ?_
  rw [runUntil, agenda, run_append] at hl
  exact running_unprompted cfg (by simpa using .pass target) hl

theorem awaited?_eq_some (h : Sound s) {id : ι} {l : Load κ ν ε} (hl : l ∈ s.running)
    (hw : s.waitersOf id = [⟨id, l.id⟩]) : s.awaited? id = some l.due := by
  have hwaiter : s.waiting.find? (fun w => w.call = id) = some ⟨id, l.id⟩ := by
    rw [← List.head?_filter]
    exact congrArg List.head? hw
  cases hload : s.running.find? fun r => r.id = l.id with
  | none => exact absurd hl fun hm => by simpa using List.find?_eq_none.1 hload l hm
  | some r =>
    have hid : r.id = l.id := by simpa using List.find?_some hload
    obtain rfl := h.distinct r (List.mem_of_find?_eq_some hload) l hl hid
    simp [awaited?, hwaiter, hload]

theorem Hearing.await {id : ι} {key : κ} {load : Nat} (h : Hearing id key load s log)
    (hs : Sound s) (cfg : Settings) : (s.await cfg id).1.waitersOf id = [] := by
  have hquiet := agenda_unprompted s ((s.awaited? id).getD s.now)
  have hlater := h.run cfg hs (by simp [callers_unprompted hquiet])
    (cancel_not_mem_unprompted hquiet id)
  change Hearing id key load (s.await cfg id).1 _ at hlater
  cases hlater with
  | told _ _ _ _ hw _ _ => exact hw
  | waits r hr hid _ _ _ _ =>
    have hrs : r ∈ s.running := running_unprompted cfg hquiet hr
    cases h with
    | told _ _ _ hgone _ _ _ => exact absurd hid (hgone r hrs)
    | waits l hl hidl _ hw _ _ =>
      obtain rfl := hs.distinct r hrs l hl (hid.trans hidl.symm)
      subst hid
      have hdue := hs.runUntil_due cfg _ r hr
      rw [awaited?_eq_some hs hl hw] at hdue
      exact absurd hdue (Nat.lt_irrefl _)

end BearerAccess.Cache
