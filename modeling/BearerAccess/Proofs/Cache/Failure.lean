import BearerAccess.Proofs.Cache.Delivery
import BearerAccess.Proofs.Cache.Demand
import BearerAccess.Proofs.Cache.Staleness
set_option autoImplicit false

namespace BearerAccess.Cache

variable {κ ν ε ι : Type}

/-- An attempt to load a key fails: a load ends without a value, or a loader breaks down. -/
inductive Notice.Failed (key : κ) : Notice κ ν ε ι → Prop where
  | ended (load : Nat) (error : CacheError ε) (now : Nat) :
      Failed key (.ended load key (.error error) now)
  | broken (call : ι) (now : Nat) : Failed key (.invoked call key none now)

variable [DecidableEq κ] [DecidableEq ι] {cfg : Settings} {s : Cache κ ν ε ι}
  {log : List (Notice κ ν ε ι)} {e : Event κ ν ε ι} {r : Cache κ ν ε ι × List (Notice κ ν ε ι)}

theorem Move.failed_end (m : Move cfg s e r) (hs : Sound s) {load now : Nat} {key : κ}
    {error : CacheError ε} (h : .ended load key (.error error) now ∈ r.2) :
    (s.slots key).inFlight? = some load ∧
      r.1 = { s.setSlot key ⟨(s.slots key).stored?, none⟩ with
        running := s.running.filter fun l => l.id ≠ load
        waiting := s.waiting.filter fun w => w.load ≠ load } := by
  obtain ⟨-, l, hl, -, rfl, rfl, ho, -, rfl⟩ := m.ended_lands h
  refine ⟨hs.claim_of_mem hl, ?_⟩
  rw [Cache.land, ho]
  rfl

theorem Move.broken (m : Move cfg s e r) {call : ι} {key : κ} {now : Nat}
    (h : .invoked call key none now ∈ r.2) : (s.slots key).inFlight? = none ∧ r.1 = s := by
  have hneeds := (m.needsLoad_of_invoked h).1
  refine ⟨(Slot.needsLoad_iff.1 hneeds).2, ?_⟩
  cases m with
  | hit | crash | idle => rfl
  | launch id k loader due outcome _ _ _ =>
    rcases List.mem_cons.1 h with he | hm
    · cases he
    · have hi := mem_invocations.2 ⟨none, hm⟩
      simp at hi
  | join id k loader load _ _ =>
    have hi := mem_invocations.2 ⟨none, h⟩
    simp at hi
  | land l _ _ =>
    have hi := mem_invocations.2 ⟨none, h⟩
    simp [Notice.invocationOf?] at hi
  | cancel | pass => simp at h

theorem Move.failed_slot (m : Move cfg s e r) (hs : Sound s) {key : κ} {n : Notice κ ν ε ι}
    (hn : n ∈ r.2) (hf : n.Failed key) : r.1.slots key = ⟨(s.slots key).stored?, none⟩ := by
  cases hf with
  | ended load error now =>
    rw [(m.failed_end hs hn).2]
    simp [setSlot]
  | broken call now =>
    obtain ⟨hfree, hsame⟩ := m.broken hn
    rw [hsame, ← hfree]

theorem Sound.idle_slot (hs : Sound s) (cfg : Settings) {key : κ}
    (hn : (s.slots key).inFlight? = none) {es : List (Event κ ν ε ι)}
    (hquiet : ∀ id loader, .call id key loader ∉ es) :
    (s.run cfg es).1.slots key = s.slots key := by
  induction es generalizing s with
  | nil => rfl
  | cons e es ih =>
    have m := step_move cfg s e
    have hsame : (s.step cfg e).1.slots key = s.slots key := by
      rcases m.unclaimed_slot hs hn with hsame | ⟨-, id, loader, rfl⟩
      · exact hsame
      · exact absurd (.head _) (hquiet id loader)
    have hrest := ih (hs.move m) (by rw [hsame, hn]) fun id loader h => hquiet id loader (.tail _ h)
    exact hrest.trans hsame

theorem invoked_of_needsLoad (cfg : Settings) {key : κ} (h : (s.slots key).needsLoad s.now = true)
    (id : ι) (loader : Loader ν ε) :
    ∃ load?, .invoked id key load? s.now ∈ (s.step cfg (.call id key loader)).2 ∧
      (load? = none ↔ loader = .crash) := by
  obtain ⟨hf, hn⟩ := Slot.needsLoad_iff.1 h
  have m := step_move cfg s (.call id key loader)
  generalize s.step cfg (.call id key loader) = r at m ⊢
  cases m with
  | hit _ _ _ v hv => cases hf.symm.trans hv
  | join _ _ _ load _ hc => cases hn.symm.trans hc
  | crash => exact ⟨none, .head _, by simp⟩
  | launch _ _ _ due outcome _ _ hp =>
    refine ⟨some s.nextLoad, .head _, ?_⟩
    simp only [reduceCtorEq, false_iff]
    rintro rfl
    cases hp

theorem Move.failure_told (m : Move cfg s e r) {call : ι} {error : CacheError ε} {now : Nat}
    (h : .reported call (.failure error) now ∈ r.2) :
    ∃ load key, .ended load key (.error error) now ∈ r.2 ∧ ⟨call, load⟩ ∈ s.waiting := by
  obtain ⟨rfl, ⟨_, _, _, _, hv, _⟩ | ⟨_, _, hv⟩ | ⟨l, _, hw, ho, hend⟩⟩ := m.reported_cases h
  · cases hv
  · cases hv
  · cases hl : l.outcome with
    | ok v => cases (hl ▸ ho : Report.failure error = .ofOutcome (.ok v))
    | error cause =>
      cases (hl ▸ ho : Report.failure error = .ofOutcome (.error cause))
      exact ⟨l.id, l.key, hl ▸ hend, hw⟩

theorem Recorded.value_source (hr : Recorded cfg s log) (m : Move cfg s e r) {call : ι} {v : ν}
    {now : Nat} (h : .reported call (.value v) now ∈ r.2) :
    ∃ load key t, .ended load key (.ok v) t ∈ log ++ r.2 := by
  obtain ⟨rfl, ⟨key, _, _, _, hv, hserved⟩ | ⟨_, _, hv⟩ | ⟨l, _, _, ho, hend⟩⟩ := m.reported_cases h
  · cases hv
    obtain ⟨t, hlatest, -⟩ := hr.served_latest hserved
    obtain ⟨load, hm⟩ := ended_of_latest? hlatest
    exact ⟨load, key, t, List.mem_append_left _ hm⟩
  · cases hv
  · cases hl : l.outcome with
    | error cause => cases (hl ▸ ho : Report.value v = .ofOutcome (.error cause))
    | ok w =>
      cases (hl ▸ ho : Report.value v = .ofOutcome (.ok w))
      exact ⟨l.id, l.key, s.now, List.mem_append_right _ (hl ▸ hend)⟩

theorem run_value_source (cfg : Settings) (es : List (Event κ ν ε ι)) {call : ι} {v : ν} {now : Nat}
    (h : .reported call (.value v) now ∈ (Cache.empty.run cfg es).2) :
    ∃ load key t, .ended load key (.ok v) t ∈ (Cache.empty.run cfg es).2 := by
  obtain ⟨a, e, b, rfl, hstep⟩ := exists_step_of_mem cfg h
  have m := step_move cfg (Cache.empty.run cfg a).1 e
  obtain ⟨load, key, t, hm⟩ := (run_coherent cfg a).2.value_source m hstep
  refine ⟨load, key, t, ?_⟩
  rw [run_append, run_cons, ← List.append_assoc]
  exact List.mem_append_left _ hm

theorem run_endings (cfg : Settings) (es : List (Event κ ν ε ι)) (load : Nat) :
    (endings (Cache.empty.run cfg es).2 load).length ≤ 1 := by
  induction es using List.reverseRecOn with
  | nil => simp
  | append_singleton es e ih =>
    obtain ⟨hs, hr⟩ := run_coherent (ν := ν) (ε := ε) cfg es
    rw [run_append, run_cons]
    rcases (step_move cfg (Cache.empty.run cfg es).1 e).lands_or_calm with
      ⟨l, hl, -, heq⟩ | hcalm
    · -- the load that ends has not ended before, and no other ends here
      by_cases hid : l.id = load
      · have hpast := hr.silent load (.inr ⟨l, hl, hid⟩)
        simp [heq, hpast, Notice.endingOf?, hid, endings_loadFree (announce_loadFree _ l)]
      · simpa [heq, Notice.endingOf?, hid, endings_loadFree (announce_loadFree _ l)] using ih
    · simpa [hcalm.noEnding] using ih

theorem endings_of_mem {cfg : Settings} {es : List (Event κ ν ε ι)} {load now : Nat} {key : κ}
    {outcome : Outcome ν ε} (h : .ended load key outcome now ∈ (Cache.empty.run cfg es).2) :
    endings (Cache.empty.run cfg es).2 load = [(key, outcome, now)] := by
  have hm := mem_endings.2 h
  have hone := Nat.le_antisymm (run_endings cfg es load) (List.length_pos_of_mem hm)
  obtain ⟨ending, hending⟩ := List.length_eq_one_iff.1 hone
  rw [hending] at hm ⊢
  rw [List.mem_singleton.1 hm]

/-- In every reachable state: the end of a load without a value gives up the claim of its key and
leaves its entry and every other slot as they were; a loader that breaks down leaves the whole
state. Until the key is next called for its slot stays so, and a call that needs a load then invokes
its own loader. Failures are told only as their loads end and only to calls that wait; what is stored
or told afterwards comes from other loads, as a load that has failed has ended for good. -/
theorem failure_forgotten (cfg : Settings) (es : List (Event κ ν ε ι)) :
    let s := (Cache.empty.run cfg es).1
    let log := (Cache.empty.run cfg es).2
    (∀ e load key error now, .ended load key (.error error) now ∈ (s.step cfg e).2 →
      (s.slots key).inFlight? = some load ∧
        (s.step cfg e).1.slots key = ⟨(s.slots key).stored?, none⟩ ∧
        (∀ k, k ≠ key → (s.step cfg e).1.slots k = s.slots k) ∧ (s.step cfg e).1.now = s.now ∧
        (s.step cfg e).1.running = (s.running.filter fun l => l.id ≠ load) ∧
        (s.step cfg e).1.waiting = s.waiting.filter fun w => w.load ≠ load) ∧
      (∀ e call key now, .invoked call key none now ∈ (s.step cfg e).2 → (s.step cfg e).1 = s) ∧
      (∀ e key n, n ∈ (s.step cfg e).2 → n.Failed key →
        ∀ more, (∀ id loader, .call id key loader ∉ more) →
          ((s.step cfg e).1.run cfg more).1.slots key = ⟨(s.slots key).stored?, none⟩) ∧
      (∀ id key loader, (s.slots key).needsLoad s.now = true →
        ∃ load?, .invoked id key load? s.now ∈ (s.step cfg (.call id key loader)).2 ∧
          (load? = none ↔ loader = .crash)) ∧
      (∀ e call error now, .reported call (.failure error) now ∈ (s.step cfg e).2 →
        ∃ load key, .ended load key (.error error) now ∈ (s.step cfg e).2 ∧
          ⟨call, load⟩ ∈ s.waiting) ∧
      ∀ load key error now, .ended load key (.error error) now ∈ log →
        endings log load = [(key, .error error, now)] ∧
          (∀ k entry, (s.slots k).stored? = some entry → ∃ other t, other ≠ load ∧
            .ended other k (.ok entry.value) t ∈ log ∧ entry.expires = deadline t cfg.ttl) ∧
          ∀ call v t, .reported call (.value v) t ∈ log → ∃ other k t', other ≠ load ∧
            .ended other k (.ok v) t' ∈ log := by
  intro s log
  obtain ⟨hs, hr⟩ := run_coherent (ν := ν) (ε := ε) cfg es
  refine ⟨?_, ?_, ?_, ?_, ?_, ?_⟩
  · intro e load key error now h
    obtain ⟨hclaim, hstate⟩ := (step_move cfg s e).failed_end hs h
    rw [hstate]
    refine ⟨hclaim, by simp [setSlot], ?_, rfl, rfl, rfl⟩
    intro k hk
    simp [setSlot, hk]
  · intro e call key now h
    exact ((step_move cfg s e).broken h).2
  · intro e key n hn hf more hquiet
    have m := step_move cfg s e
    have hslot := m.failed_slot hs hn hf
    rw [(hs.move m).idle_slot cfg (by rw [hslot]) hquiet, hslot]
  · intro id key loader hneeds
    exact invoked_of_needsLoad cfg hneeds id loader
  · intro e call error now h
    exact (step_move cfg s e).failure_told h
  · intro load key error now h
    have honce : endings log load = [(key, .error error, now)] := endings_of_mem h
    have hother {other : Nat} {k : κ} {v : ν} {t : Nat} (hv : .ended other k (.ok v) t ∈ log) :
        other ≠ load := by
      rintro rfl
      have hm := mem_endings.2 hv
      rw [honce] at hm
      cases List.mem_singleton.1 hm
    refine ⟨honce, ?_, ?_⟩
    · intro k entry he
      obtain ⟨p, hp, rfl⟩ := Option.map_eq_some_iff.1 ((hr.stored k).symm.trans he)
      obtain ⟨other, hm⟩ := ended_of_latest? hp
      exact ⟨other, p.2, hother hm, hm, rfl⟩
    · intro call v t hv
      obtain ⟨other, k, t', hm⟩ := run_value_source cfg es hv
      exact ⟨other, k, t', hother hm, hm⟩

/-- A refresh fails and the entry that is out of date stays; the next call makes a load of its own.
-/
theorem failure_forgotten_refresh :
    let cfg : Settings := ⟨10, 10, .waitForRefresh⟩
    let before : List (Event Nat Nat Nat Nat) := [.call 0 7 (.finishing 0 (.value 5)), .finish 0,
      .pass 10, .call 1 7 (.finishing 0 (.error 9))]
    let s := (Cache.empty.run cfg before).1
    let s' := (Cache.empty.run cfg (before ++ [.finish 1])).1
    .ended 1 7 (.error (.load 9)) 10 ∈ (s.step cfg (.finish 1)).2 ∧
      (s.step cfg (.finish 1)).1.slots 7 = ⟨some ⟨5, 10⟩, none⟩ ∧
      (s'.slots 7).needsLoad s'.now = true ∧
      ∃ load?, .invoked 2 7 load? s'.now ∈ (s'.step cfg (.call 2 7 .hanging)).2 := by
  intro cfg before s s'
  have hended : .ended 1 7 (.error (.load 9)) 10 ∈ (s.step cfg (.finish 1)).2 :=
    mem_endings.1 (by decide)
  have hstored : (s.slots 7).stored? = some ⟨5, 10⟩ := by decide
  have hslot : (s.step cfg (.finish 1)).1.slots 7 = ⟨(s.slots 7).stored?, none⟩ :=
    ((failure_forgotten cfg before).1 (.finish 1) 1 7 (.load 9) 10 hended).2.1
  have hneeds : (s'.slots 7).needsLoad s'.now = true := by decide
  obtain ⟨-, -, -, hcall, -, -⟩ := failure_forgotten cfg (before ++ [.finish 1])
  obtain ⟨load?, hinvoked, -⟩ := hcall 2 7 .hanging hneeds
  exact ⟨hended, hslot.trans (by rw [hstored]), hneeds, load?, hinvoked⟩

end BearerAccess.Cache
