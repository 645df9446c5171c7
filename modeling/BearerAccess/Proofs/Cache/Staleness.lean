import BearerAccess.Proofs.Cache.Provenance
set_option autoImplicit false

namespace BearerAccess.Cache

variable {κ ν ε ι : Type}

/-- How much longer than its time to live a value may be served. -/
def Settings.grace (cfg : Settings) : Nat :=
  if cfg.policy = .staleWhileRevalidate then cfg.loadTimeout else 0

theorem add_min_le_deadline {start : Nat} (h : start + farFuture ≤ horizon) (span : Nat) :
    start + min span farFuture ≤ deadline start span := by
  unfold deadline
  split
  · omega
  · omega

variable [DecidableEq κ] [DecidableEq ι] {cfg : Settings} {s : Cache κ ν ε ι}
  {log : List (Notice κ ν ε ι)}

omit [DecidableEq ι] in
theorem Recorded.latest?_past (h : Recorded cfg s log) {key : κ} {v : ν} {t : Nat}
    (hl : latest? log key = some (v, t)) : t ≤ s.now := by
  obtain ⟨load, hm⟩ := ended_of_latest? hl
  exact h.past _ hm

omit [DecidableEq ι] in
theorem Recorded.served_latest (h : Recorded cfg s log) {key : κ} {v : ν}
    (hserved : (s.slots key).fresh? s.now = some v ∨ (s.slots key).stale? cfg s.now = some v) :
    ∃ stored, latest? log key = some (v, stored) ∧ s.now < stored + cfg.ttl + cfg.grace := by
  rcases hserved with hf | hst
  · obtain ⟨stored, hl, hlt⟩ := h.fresh?_eq_some.1 hf
    have hle := deadline_le stored cfg.ttl
    exact ⟨stored, hl, by omega⟩
  · obtain ⟨stored, hl, hp, hlt⟩ := h.stale?_eq_some.1 hst
    have hle := deadline_le stored cfg.ttl
    have hgrace := deadline_le (deadline stored cfg.ttl) cfg.loadTimeout
    refine ⟨stored, hl, ?_⟩
    rw [Settings.grace, if_pos hp]
    omega

theorem Move.served_cases {id c : ι} {key : κ} {loader : Loader ν ε}
    {r : Cache κ ν ε ι × List (Notice κ ν ε ι)} (m : Move cfg s (.call c key loader) r) {v : ν}
    {t : Nat} (h : .reported id (.value v) t ∈ r.2) :
    t = s.now ∧
      ((s.slots key).fresh? s.now = some v ∨ (s.slots key).stale? cfg s.now = some v) := by
  obtain ⟨ht, ⟨k, l, w, he, hv, hserved⟩ | ⟨k, he, hv⟩ | ⟨l, _, _, _, hend⟩⟩ := m.reported_cases h
  · cases he
    cases hv
    exact ⟨ht, hserved⟩
  · cases hv
  · obtain ⟨-, _, _, _, _, _, _, he, _⟩ := m.ended_lands hend
    cases he

/-- A value given at once is younger than the policy allows, in unbounded sums; one that is younger
than the time to live, or than thirty years, is given at once and nothing is loaded. -/
theorem served_within_bound (cfg : Settings) (es : List (Event κ ν ε ι)) (id : ι) (key : κ)
    (loader : Loader ν ε) :
    let s := (Cache.empty.run cfg es).1
    let log := (Cache.empty.run cfg es).2
    let r := s.step cfg (.call id key loader)
    (∀ v t, .reported id (.value v) t ∈ r.2 → ∃ stored,
      latest? log key = some (v, stored) ∧ (∃ load, .ended load key (.ok v) stored ∈ log) ∧
        t = s.now ∧ stored ≤ t ∧
        (cfg.policy = .waitForRefresh → t < stored + cfg.ttl) ∧
        (cfg.policy = .staleWhileRevalidate → t < stored + cfg.ttl + cfg.loadTimeout)) ∧
      ∀ v stored, latest? log key = some (v, stored) → stored + farFuture ≤ horizon →
        s.now < stored + min cfg.ttl farFuture →
        stored ≤ s.now ∧ r = (s, [.reported id (.value v) s.now]) := by
  intro s log r
  obtain ⟨-, hr⟩ := run_coherent cfg es
  refine ⟨?_, ?_⟩
  · intro v t hm
    obtain ⟨rfl, hf | hst⟩ := (step_move cfg s (.call id key loader)).served_cases hm
    · obtain ⟨stored, hl, hlt⟩ := hr.fresh?_eq_some.1 hf
      have hle := deadline_le stored cfg.ttl
      refine ⟨stored, hl, ended_of_latest? hl, rfl, hr.latest?_past hl, ?_, ?_⟩
      · exact fun _ => Nat.lt_of_lt_of_le hlt hle
      · exact fun _ => Nat.lt_add_right _ (Nat.lt_of_lt_of_le hlt hle)
    · obtain ⟨stored, hl, hp, hlt⟩ := hr.stale?_eq_some.1 hst
      have hle := deadline_le stored cfg.ttl
      have hgrace := deadline_le (deadline stored cfg.ttl) cfg.loadTimeout
      refine ⟨stored, hl, ended_of_latest? hl, rfl, hr.latest?_past hl, ?_, ?_⟩
      · intro hw
        cases hw.symm.trans hp
      · intro _
        change s.now < _ at hlt
        omega
  · intro v stored hl hfar hlt
    have hdue : s.now < deadline stored cfg.ttl :=
      Nat.lt_of_lt_of_le hlt (add_min_le_deadline hfar cfg.ttl)
    have hf : (s.slots key).fresh? s.now = some v := hr.fresh?_eq_some.2 ⟨stored, hl, hdue⟩
    refine ⟨hr.latest?_past hl, ?_⟩
    change s.call cfg id key loader = _
    simp [Cache.call, hf]

/-- A value is given until its time is up; after that, and a refresh that failed, it is given for
one time limit more. -/
theorem served_within_bound_grace :
    let cfg : Settings := ⟨10, 10, .staleWhileRevalidate⟩
    let loaded : List (Event Nat Nat Nat Nat) := [.call 0 7 (.finishing 0 (.value 5)), .finish 0]
    let fresh := (Cache.empty.run cfg (loaded ++ [.pass 9])).1
    let late := Cache.empty.run cfg (loaded ++ [.pass 10, .call 1 7 (.finishing 0 (.error 9)),
      .finish 1, .pass 15])
    fresh.step cfg (.call 2 7 .hanging) = (fresh, [.reported 2 (.value 5) 9]) ∧
      latest? late.2 7 = some (5, 0) ∧
      .reported 2 (.value 5) 15 ∈ (late.1.step cfg (.call 2 7 .hanging)).2 ∧ 15 < 0 + 10 + 10 := by
  intro cfg loaded fresh late
  have hlatest : latest? late.2 7 = some (5, 0) := by decide
  have hm : .reported 2 (.value 5) 15 ∈ (late.1.step cfg (.call 2 7 .hanging)).2 :=
    mem_reports.1 (by decide)
  obtain ⟨stored, hl, -, -, -, -, hgrace⟩ :=
    (served_within_bound cfg _ 2 7 (.hanging : Loader Nat Nat)).1 5 15 hm
  cases hlatest.symm.trans hl
  have hfresh := (served_within_bound cfg (loaded ++ [.pass 9]) 2 7 .hanging).2 5 0 (by decide)
    (by decide) (by decide)
  exact ⟨hfresh.2, hlatest, hm, hgrace rfl⟩

end BearerAccess.Cache
