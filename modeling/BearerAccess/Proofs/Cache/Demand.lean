import BearerAccess.Proofs.Cache.Provenance
set_option autoImplicit false

namespace BearerAccess.Cache

variable {κ ν ε ι : Type}

def Slot.needsLoad (slot : Slot ν) (now : Nat) : Bool :=
  (slot.stored?.all fun e => e.expires ≤ now) && slot.inFlight?.isNone

theorem Slot.fresh?_eq_none {slot : Slot ν} {now : Nat} :
    slot.fresh? now = none ↔ ∀ e, slot.stored? = some e → e.expires ≤ now := by
  cases h : slot.stored? with
  | none => simp [fresh?, h]
  | some e => simp [fresh?, h]

theorem Slot.needsLoad_iff {slot : Slot ν} {now : Nat} :
    slot.needsLoad now = true ↔ slot.fresh? now = none ∧ slot.inFlight? = none := by
  simp [needsLoad, fresh?_eq_none, Option.all_eq_true]

@[simp] theorem invocations_attach [DecidableEq κ] (s : Cache κ ν ε ι) (call : ι) (load : Nat)
    (stale? : Option ν) (key : κ) : invocations (s.attach call load stale?).2 key = [] := by
  cases stale? <;> rfl

@[simp] theorem invocations_announce [DecidableEq κ] (s : Cache κ ν ε ι) (l : Load κ ν ε)
    (key : κ) : invocations (s.announce l) key = [] := by
  simp [invocations, announce, Notice.invocationOf?]

variable [DecidableEq κ] {cfg : Settings} {s : Cache κ ν ε ι} {e : Event κ ν ε ι}
  {r : Cache κ ν ε ι × List (Notice κ ν ε ι)}

/-- The invocation that an event makes for a key: that of a call that needs a load. -/
def demand? (s : Cache κ ν ε ι) (key : κ) : Event κ ν ε ι → Option (ι × Nat)
  | .call id k _ => if k = key ∧ (s.slots key).needsLoad s.now then some (id, s.now) else none
  | _ => none

theorem demand?_eq_none {id : ι} {k key : κ} {loader : Loader ν ε}
    (h : (s.slots k).needsLoad s.now = false) : s.demand? key (.call id k loader) = none := by
  by_cases hk : k = key
  · subst hk
    simp [demand?, h]
  · simp [demand?, hk]

theorem demand?_toList {id : ι} {k key : κ} {loader : Loader ν ε}
    (h : (s.slots k).needsLoad s.now = true) (load? : Option Nat) :
    (s.demand? key (.call id k loader)).toList =
      ((Notice.invoked id k load? s.now : Notice κ ν ε ι).invocationOf? key).toList := by
  by_cases hk : k = key
  · subst hk
    simp [demand?, h, Notice.invocationOf?]
  · simp [demand?, hk, Notice.invocationOf?]

variable [DecidableEq ι]

theorem Move.invocations_eq (m : Move cfg s e r) (key : κ) :
    invocations r.2 key = (s.demand? key e).toList := by
  cases m with
  | hit id k loader v hf =>
    rw [demand?_eq_none (by simp [← Bool.not_eq_true, Slot.needsLoad_iff, hf])]
    simp [Notice.invocationOf?]
  | join id k loader load _ hc =>
    rw [demand?_eq_none (by simp [← Bool.not_eq_true, Slot.needsLoad_iff, hc])]
    simp
  | crash id k hf hn =>
    rw [demand?_toList (Slot.needsLoad_iff.2 ⟨hf, hn⟩) none]
    simp [Notice.invocationOf?]
  | launch id k loader due outcome hf hn _ =>
    rw [demand?_toList (Slot.needsLoad_iff.2 ⟨hf, hn⟩) (some s.nextLoad)]
    simp
  | land l _ _ => simp [demand?, Notice.invocationOf?]
  | cancel | idle | pass => rfl

theorem Move.needsLoad_of_invoked (m : Move cfg s e r) {call : ι} {key : κ} {load? : Option Nat}
    {now : Nat} (h : .invoked call key load? now ∈ r.2) :
    (s.slots key).needsLoad s.now = true ∧ now = s.now := by
  have hi : (call, now) ∈ invocations r.2 key := mem_invocations.2 ⟨load?, h⟩
  rw [m.invocations_eq key] at hi
  cases e with
  | call id k loader =>
    simp only [demand?] at hi
    split at hi
    · rename_i hk
      obtain ⟨-, rfl⟩ : call = id ∧ now = s.now := by simpa using hi
      exact ⟨hk.2, rfl⟩
    · simp at hi
  | cancel | finish | pass => simp [demand?] at hi

theorem run_invocations (cfg : Settings) (es : List (Event κ ν ε ι)) (key : κ) :
    invocations (Cache.empty.run cfg es).2 key =
      inTurn (fun past => (Cache.empty.run cfg past).1.demand? key) es := by
  induction es using List.reverseRecOn with
  | nil => rfl
  | append_singleton es e ih =>
    have hnew := (step_move cfg (Cache.empty.run cfg es).1 e).invocations_eq key
    rw [inTurn_append_singleton, ← ih, ← hnew]
    simp [run_append, run_cons]

/-- What a load in flight is to replace is out of date. -/
def Lapsed (s : Cache κ ν ε ι) : Prop :=
  ∀ key load, (s.slots key).inFlight? = some load → (s.slots key).fresh? s.now = none

omit [DecidableEq κ] [DecidableEq ι] in
theorem Slot.fresh?_later {slot : Slot ν} {now later : Nat} (h : slot.fresh? now = none)
    (hle : now ≤ later) : slot.fresh? later = none :=
  fresh?_eq_none.2 fun e he => Nat.le_trans (fresh?_eq_none.1 h e he) hle

theorem Lapsed.move (h : Lapsed s) (m : Move cfg s e r) : Lapsed r.1 := by
  cases m with
  | hit | crash | idle | cancel => exact h
  | join id k loader load _ _ =>
    intro key l hl
    simp only [attach_slots, attach_now] at hl ⊢
    exact h key l hl
  | launch id k loader due outcome hf hn _ =>
    intro key l hl
    simp only [attach_slots, attach_now, start_slots, start_now] at hl ⊢
    by_cases hk : key = k
    · subst hk
      simpa [Slot.fresh?] using hf
    · rw [if_neg hk] at hl ⊢
      exact h key l hl
  | land l _ _ =>
    intro key load hl
    rw [land_slots] at hl ⊢
    by_cases hk : key = l.key
    · rw [if_pos hk, Sound.complete_inFlight?] at hl
      cases hl
    · rw [if_neg hk] at hl ⊢
      exact h key load hl
  | pass target =>
    exact fun key load hl => Slot.fresh?_later (h key load hl) (Nat.le_max_left _ _)

theorem run_lapsed (cfg : Settings) (es : List (Event κ ν ε ι)) :
    Lapsed (Cache.empty.run cfg es).1 := by
  refine run_induction cfg (P := fun _ s _ => Lapsed s) (fun _ _ h => nomatch h) ?_ es
  exact fun _ s _ e h => h.move (step_move cfg s e)

theorem Move.now_le (m : Move cfg s e r) : s.now ≤ r.1.now := by
  cases m with
  | hit | crash | cancel | idle | land => exact Nat.le_refl _
  | join | launch => simp
  | pass target => exact Nat.le_max_left _ _

theorem Move.unclaimed_slot (m : Move cfg s e r) (hs : Sound s) {key : κ}
    (hn : (s.slots key).inFlight? = none) :
    r.1.slots key = s.slots key ∨
      (s.slots key).fresh? s.now = none ∧ ∃ id loader, e = .call id key loader := by
  cases m with
  | hit | crash | cancel | idle | pass => exact .inl rfl
  | join => exact .inl (by simp)
  | launch id k loader due outcome hf _ _ =>
    by_cases hk : key = k
    · subst hk
      exact .inr ⟨hf, id, loader, rfl⟩
    · exact .inl (by simp [start_slots, hk])
  | land l hl _ =>
    refine .inl ?_
    rw [land_slots, if_neg]
    rintro rfl
    cases hn.symm.trans (hs.claim_of_mem hl)

/-- The entry of a key stands and nothing is loaded for it, until an instant. -/
def Standing (s : Cache κ ν ε ι) (key : κ) (entry : Entry ν) : Prop :=
  s.slots key = ⟨some entry, none⟩ ∨ entry.expires ≤ s.now

theorem Standing.move {key : κ} {entry : Entry ν} (h : s.Standing key entry) (hs : Sound s)
    (m : Move cfg s e r) : r.1.Standing key entry := by
  rcases h with h | h
  · rcases m.unclaimed_slot hs (by rw [h]) with hsame | ⟨hf, -⟩
    · exact .inl (hsame.trans h)
    · have hexpired := Slot.fresh?_eq_none.1 hf entry (by rw [h])
      exact .inr (Nat.le_trans hexpired m.now_le)
  · exact .inr (Nat.le_trans h m.now_le)

theorem Standing.run {key : κ} {entry : Entry ν} (h : s.Standing key entry) (hs : Sound s)
    (cfg : Settings) (es : List (Event κ ν ε ι)) : (s.run cfg es).1.Standing key entry := by
  induction es generalizing s with
  | nil => exact h
  | cons e es ih =>
    have m := step_move cfg s e
    exact ih (h.move hs m) (hs.move m)

omit [DecidableEq κ] [DecidableEq ι] in
theorem Standing.expires_le {key : κ} {entry : Entry ν} (h : s.Standing key entry)
    (hn : (s.slots key).needsLoad s.now = true) : entry.expires ≤ s.now := by
  rcases h with h | h
  · exact Slot.fresh?_eq_none.1 (Slot.needsLoad_iff.1 hn).1 entry (by rw [h])
  · exact h

theorem Move.standing (m : Move cfg s e r) {load now : Nat} {key : κ} {v : ν}
    (h : .ended load key (.ok v) now ∈ r.2) : r.1.Standing key ⟨v, deadline now cfg.ttl⟩ := by
  obtain ⟨rfl, l, -, -, rfl, rfl, ho, -, rfl⟩ := m.ended_lands h
  refine .inl ?_
  rw [land_slots, if_pos rfl, ho]
  rfl

theorem run_standing {cfg : Settings} {es : List (Event κ ν ε ι)} {load now : Nat} {key : κ} {v : ν}
    (h : .ended load key (.ok v) now ∈ (Cache.empty.run cfg es).2) :
    (Cache.empty.run cfg es).1.Standing key ⟨v, deadline now cfg.ttl⟩ := by
  obtain ⟨a, e, b, rfl, hstep⟩ := exists_step_of_mem cfg h
  have m := step_move cfg (Cache.empty.run cfg a).1 e
  have hs := (run_coherent cfg a).1
  rw [run_append, run_cons]
  exact (m.standing hstep).run (hs.move m) cfg b

/-- Over every run: the loaders of a key are invoked by the calls that need a load, each once and at
its own step; whatever is being loaded was so invoked and ends as its loader plans; from the end of
a load that succeeded until its value's time is up no loader is invoked; and as long as a load is in
flight there is no entry or its time is up. -/
theorem loads_on_demand (cfg : Settings) (es : List (Event κ ν ε ι)) (key : κ) :
    let s := (Cache.empty.run cfg es).1
    let log := (Cache.empty.run cfg es).2
    invocations log key = inTurn (fun past => (Cache.empty.run cfg past).1.demand? key) es ∧
      (∀ l ∈ s.running, l.key = key → ∃ call loader t, .call call key loader ∈ es ∧
        .invoked call key (some l.id) t ∈ log ∧ loader.plan? cfg t = some (l.due, l.outcome)) ∧
      (∀ before after load v stored, es = before ++ after →
        .ended load key (.ok v) stored ∈ (Cache.empty.run cfg before).2 →
        ∀ call t, (call, t) ∈ invocations ((Cache.empty.run cfg before).1.run cfg after).2 key →
          deadline stored cfg.ttl ≤ t) ∧
      ∀ load entry, (s.slots key).inFlight? = some load → (s.slots key).stored? = some entry →
        entry.expires ≤ s.now := by
  intro s log
  refine ⟨run_invocations cfg es key, ?_, ?_, ?_⟩
  · rintro l hl rfl
    exact (run_sourced cfg es).1 l hl
  · rintro before after load v stored rfl hended call t ht
    obtain ⟨load?, hm⟩ := mem_invocations.1 ht
    obtain ⟨a, e, b, rfl, hstep⟩ := exists_step_of_mem cfg hm
    have hstanding := (run_standing hended).run (run_coherent cfg before).1 cfg a
    obtain ⟨hneeds, rfl⟩ := (step_move cfg _ e).needsLoad_of_invoked hstep
    exact hstanding.expires_le hneeds
  · intro load entry hl he
    exact Slot.fresh?_eq_none.1 (run_lapsed cfg es key load hl) entry he

/-- A key is loaded as it is first asked for and again just as its entry's time is up, by the calls
that come then; a call in between loads nothing. -/
theorem loads_on_demand_twice :
    let cfg : Settings := ⟨10, 20, .staleWhileRevalidate⟩
    let loaded : List (Event Nat Nat Nat Nat) := [.call 0 7 (.finishing 0 (.value 5)), .finish 0]
    let later : List (Event Nat Nat Nat Nat) :=
      [.pass 9, .call 1 7 .hanging, .pass 10, .call 2 7 .hanging, .call 3 7 .hanging]
    let log := (Cache.empty.run cfg (loaded ++ later)).2
    .ended 0 7 (.ok 5) 0 ∈ (Cache.empty.run cfg loaded).2 ∧
      invocations log 7 = [(0, 0), (2, 10)] ∧ deadline 0 10 ≤ 10 := by
  intro cfg loaded later log
  have hended : .ended 0 7 (.ok 5) 0 ∈ (Cache.empty.run cfg loaded).2 := mem_endings.1 (by decide)
  obtain ⟨heq, -, hrate, -⟩ := loads_on_demand cfg (loaded ++ later) 7
  refine ⟨hended, heq.trans (by decide), ?_⟩
  exact hrate loaded later 0 5 0 rfl hended 2 10 (by decide)

end BearerAccess.Cache
