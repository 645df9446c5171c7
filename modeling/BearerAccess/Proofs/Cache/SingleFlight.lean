import BearerAccess.Proofs.Cache.Coherence
set_option autoImplicit false

namespace BearerAccess.Cache

variable {κ ν ε ι : Type} [DecidableEq κ] [DecidableEq ι]

/-- A load starts only where nothing holds the claim, under a number not given out before. -/
theorem Move.claim_free {cfg : Settings} {s : Cache κ ν ε ι} {e : Event κ ν ε ι}
    {r : Cache κ ν ε ι × List (Notice κ ν ε ι)} (m : Move cfg s e r) {call : ι} {key : κ}
    {load now : Nat} (h : .invoked call key (some load) now ∈ r.2) :
    (s.slots key).inFlight? = none ∧ load = s.nextLoad ∧ now = s.now := by
  cases m with
  | launch id k loader due outcome _ hn _ =>
    rcases List.mem_cons.1 h with he | hm
    · cases he
      exact ⟨hn, rfl, rfl⟩
    · cases attach_loadFree _ _ _ _ _ hm
  | join id k loader l _ _ => cases attach_loadFree _ _ _ _ _ h
  | land l _ _ =>
    rcases List.mem_cons.1 h with he | hm
    · cases he
    · cases announce_loadFree _ _ _ hm
  | hit | crash | cancel | idle | pass => simp at h

theorem Sound.finish_slots {s : Cache κ ν ε ι} (h : Sound s) (cfg : Settings) {key : κ}
    {load other : Nat} (hc : (s.slots key).inFlight? = some load) (hne : other ≠ load) :
    (s.step cfg (.finish other)).1.slots key = s.slots key := by
  have m := step_move cfg s (.finish other)
  generalize s.step cfg (.finish other) = r at m ⊢
  cases m with
  | idle => rfl
  | land l hl _ =>
    rw [land_slots, if_neg]
    rintro rfl
    exact hne (Option.some.inj ((h.claim_of_mem hl).symm.trans hc))

/-- In every reachable state the claim of a key is held exactly by the one open load of the key, a
load starts after all earlier ones of its key have ended, and no other load's end touches the slot.
-/
theorem single_flight (cfg : Settings) (es : List (Event κ ν ε ι)) (key : κ) :
    let s := (Cache.empty.run cfg es).1
    let log := (Cache.empty.run cfg es).2
    (∀ load, (s.slots key).inFlight? = some load ↔ openLoads log key = [load]) ∧
      (openLoads log key).length ≤ 1 ∧ s.loadsOf key = openLoads log key ∧
      (∀ e call load now, .invoked call key (some load) now ∈ (s.step cfg e).2 →
        ∀ earlier ∈ starts log key,
          earlier ≠ load ∧ ∃ outcome t, .ended earlier key outcome t ∈ log ∧ t ≤ now) ∧
      (∀ load other, (s.slots key).inFlight? = some load → other ≠ load →
        (s.step cfg (.finish other)).1.slots key = s.slots key) := by
  intro s log
  obtain ⟨hs, hr⟩ := run_coherent (ν := ν) (ε := ε) cfg es
  have hopen : openLoads log key = (s.slots key).inFlight?.toList :=
    (hr.opened key).trans (hs.claimed key).symm
  refine ⟨?_, ?_, (hr.opened key).symm, ?_, ?_⟩
  · intro load
    rw [hopen, Option.toList_eq_singleton_iff]
  · rw [hopen]
    exact Option.length_toList_le
  · intro e call load now hstart earlier hearlier
    obtain ⟨hfree, rfl, rfl⟩ := (step_move cfg s e).claim_free hstart
    refine ⟨Nat.ne_of_lt (hr.started key earlier hearlier), ?_⟩
    -- nothing is open where the claim is free, so what has started has ended
    have hended : earlier ∈ ends log key := by
      by_contra hopened
      have hmem : earlier ∈ openLoads log key :=
        List.mem_filter.2 ⟨hearlier, by simpa using hopened⟩
      rw [hopen, hfree] at hmem
      cases hmem
    obtain ⟨outcome, t, hm⟩ := mem_ends.1 hended
    exact ⟨outcome, t, hm, hr.past _ hm⟩
  · intro load other hc hne
    exact hs.finish_slots cfg hc hne

/-- A key is loaded again once its entry is out of date: the first load has ended by then. -/
theorem single_flight_reload :
    let cfg : Settings := ⟨100, 1000, .waitForRefresh⟩
    let r := (Cache.empty (κ := Nat) (ν := Nat) (ε := Nat) (ι := Nat)).run cfg
      [.call 0 7 (.finishing 0 (.value 5)), .finish 0, .pass 100]
    .invoked 1 7 (some 1) 100 ∈ (r.1.step cfg (.call 1 7 .hanging)).2 ∧
      ∃ outcome t, .ended 0 7 outcome t ∈ r.2 ∧ t ≤ 100 := by
  intro cfg r
  have hstart : .invoked 1 7 (some 1) 100 ∈ (r.1.step cfg (.call 1 7 .hanging)).2 := .head _
  have h := (single_flight (ι := Nat) cfg _ 7).2.2.2.1 _ _ _ _ hstart 0 (.head _)
  exact ⟨hstart, h.2⟩

end BearerAccess.Cache
