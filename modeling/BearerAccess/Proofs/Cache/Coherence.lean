import BearerAccess.Proofs.Cache.Moves
/-!
What every reachable cache obeys, and how its state can be read off the notices of its run: the
loads under way are those that have started and not ended, and the entry of a key is what its last
successful load left there.
-/
set_option autoImplicit false

namespace BearerAccess.Cache

variable {κ ν ε ι : Type} [DecidableEq κ]

/-- Loads have numbers of their own; the claim of a key is held by the one load of the key that is
under way; who waits, waits for a load that is under way. -/
structure Sound (s : Cache κ ν ε ι) : Prop where
  numbered : ∀ l ∈ s.running, l.id < s.nextLoad
  distinct : ∀ l ∈ s.running, ∀ r ∈ s.running, l.id = r.id → l = r
  claimed : ∀ key, (s.slots key).inFlight?.toList = s.loadsOf key
  attached : ∀ w ∈ s.waiting, ∃ l ∈ s.running, l.id = w.load

theorem mem_loadsOf {s : Cache κ ν ε ι} {key : κ} {load : Nat} :
    load ∈ s.loadsOf key ↔ ∃ l ∈ s.running, l.key = key ∧ l.id = load := by
  simp [loadsOf, and_assoc]

theorem loadsOf_start (s : Cache κ ν ε ι) (key : κ) (due : Nat) (outcome : Outcome ν ε) (k : κ) :
    (s.start key due outcome).loadsOf k = s.loadsOf k ++ if key = k then [s.nextLoad] else [] := by
  by_cases hk : key = k <;> simp [loadsOf, hk]

theorem loadsOf_land (cfg : Settings) (s : Cache κ ν ε ι) (l : Load κ ν ε) (k : κ) :
    (s.land cfg l).loadsOf k = (s.loadsOf k).filter (· ≠ l.id) := by
  simp only [loadsOf, land, List.filter_map, List.filter_filter, Function.comp_def]
  congr 2
  funext r
  exact Bool.and_comm _ _

namespace Sound

theorem empty : Sound (Cache.empty : Cache κ ν ε ι) :=
  ⟨by simp [Cache.empty], by simp [Cache.empty], fun _ => rfl, by simp [Cache.empty]⟩

variable {s : Cache κ ν ε ι}

theorem exists_claimant (h : Sound s) {key : κ} {load : Nat}
    (hc : (s.slots key).inFlight? = some load) : ∃ l ∈ s.running, l.key = key ∧ l.id = load := by
  apply mem_loadsOf.1
  rw [← h.claimed key, hc]
  simp

theorem claim_of_mem (h : Sound s) {l : Load κ ν ε} (hl : l ∈ s.running) :
    (s.slots l.key).inFlight? = some l.id := by
  have hm : l.id ∈ s.loadsOf l.key := mem_loadsOf.2 ⟨l, hl, rfl, rfl⟩
  rw [← h.claimed l.key] at hm
  simpa using hm

theorem eq_of_key (h : Sound s) {l r : Load κ ν ε} (hl : l ∈ s.running) (hr : r ∈ s.running)
    (hk : l.key = r.key) : l = r := by
  have hclaim := h.claim_of_mem hl
  rw [hk, h.claim_of_mem hr] at hclaim
  exact h.distinct l hl r hr (Option.some.inj hclaim).symm

theorem loadsOf_eq_nil (h : Sound s) {key : κ} (hn : (s.slots key).inFlight? = none) :
    s.loadsOf key = [] := by
  rw [← h.claimed key, hn]
  rfl

theorem ne_of_mem_loadsOf (h : Sound s) {l : Load κ ν ε} (hl : l ∈ s.running) {key : κ}
    (hk : key ≠ l.key) {load : Nat} (hm : load ∈ s.loadsOf key) : load ≠ l.id := by
  rintro rfl
  obtain ⟨r, hr, rfl, he⟩ := mem_loadsOf.1 hm
  exact hk (congrArg Load.key (h.distinct r hr l hl he))

theorem filter_loadsOf (h : Sound s) {l : Load κ ν ε} (hl : l ∈ s.running) {key : κ}
    (hk : key ≠ l.key) : (s.loadsOf key).filter (· ≠ l.id) = s.loadsOf key :=
  List.filter_eq_self.2 fun _ hm => by simpa using h.ne_of_mem_loadsOf hl hk hm

theorem attach (h : Sound s) {load : Nat} (hl : ∃ l ∈ s.running, l.id = load) (call : ι)
    (stale? : Option ν) : Sound (s.attach call load stale?).1 := by
  refine ⟨by simpa using h.numbered, by simpa using h.distinct, ?_, ?_⟩
  · intro key
    simpa [loadsOf] using h.claimed key
  · intro w hw
    cases stale? with
    | some v => exact h.attached w hw
    | none =>
      simp only [Cache.attach, List.mem_append, List.mem_singleton] at hw ⊢
      rcases hw with hw | rfl
      · exact h.attached w hw
      · exact hl

theorem start (h : Sound s) {key : κ} (hn : (s.slots key).inFlight? = none) (due : Nat)
    (outcome : Outcome ν ε) : Sound (s.start key due outcome) := by
  refine ⟨?_, ?_, ?_, ?_⟩
  · intro l hl
    simp only [start_running, start_nextLoad, List.mem_append, List.mem_singleton] at hl ⊢
    rcases hl with hl | rfl
    · exact Nat.lt_succ_of_lt (h.numbered l hl)
    · exact Nat.lt_succ_self _
  · intro l hl r hr he
    simp only [start_running, List.mem_append, List.mem_singleton] at hl hr
    rcases hl with hl | rfl <;> rcases hr with hr | rfl
    · exact h.distinct l hl r hr he
    · exact absurd he (Nat.ne_of_lt (h.numbered l hl))
    · exact absurd he.symm (Nat.ne_of_lt (h.numbered r hr))
    · rfl
  · intro k
    rw [loadsOf_start, start_slots]
    by_cases hk : k = key
    · subst hk
      simp [h.loadsOf_eq_nil hn]
    · simpa [hk, Ne.symm hk] using h.claimed k
  · intro w hw
    obtain ⟨l, hl, he⟩ := h.attached w hw
    exact ⟨l, by simp [hl], he⟩

theorem complete_inFlight? (cfg : Settings) (now : Nat) (slot : Slot ν) (outcome : Outcome ν ε) :
    (slot.complete cfg now outcome).inFlight? = none := by
  cases outcome <;> rfl

theorem land (h : Sound s) (cfg : Settings) {l : Load κ ν ε} (hl : l ∈ s.running) :
    Sound (s.land cfg l) := by
  refine ⟨?_, ?_, ?_, ?_⟩
  · intro r hr
    exact h.numbered r (List.mem_filter.1 hr).1
  · intro a ha b hb
    exact h.distinct a (List.mem_filter.1 ha).1 b (List.mem_filter.1 hb).1
  · intro k
    rw [loadsOf_land, ← h.claimed k, land_slots]
    by_cases hk : k = l.key
    · subst hk
      simp [complete_inFlight?, h.claim_of_mem hl]
    · rw [if_neg hk, h.claimed k, h.filter_loadsOf hl hk]
  · intro w hw
    obtain ⟨hw, hne⟩ := List.mem_filter.1 hw
    obtain ⟨r, hr, he⟩ := h.attached w hw
    exact ⟨r, List.mem_filter.2 ⟨hr, by simpa [he] using hne⟩, he⟩

theorem move [DecidableEq ι] {cfg : Settings} {e : Event κ ν ε ι}
    {r : Cache κ ν ε ι × List (Notice κ ν ε ι)} (h : Sound s) (m : Move cfg s e r) :
    Sound r.1 := by
  cases m with
  | hit => exact h
  | join id key loader load _ hc =>
    obtain ⟨l, hl, _, he⟩ := h.exists_claimant hc
    exact h.attach ⟨l, hl, he⟩ id _
  | crash => exact h
  | launch id key loader due outcome _ hn _ =>
    exact (h.start hn due outcome).attach ⟨⟨s.nextLoad, key, due, outcome⟩, by simp, rfl⟩ id _
  | cancel =>
    exact ⟨h.numbered, h.distinct, h.claimed, fun w hw => h.attached w (List.mem_filter.1 hw).1⟩
  | idle => exact h
  | land l hl _ => exact h.land cfg hl
  | pass => exact ⟨h.numbered, h.distinct, h.claimed, h.attached⟩

end Sound

/-- The state of a cache as its notices tell it. Only the last successful load of a key counts for
the entry, whatever has been tried since. -/
structure Recorded (cfg : Settings) (s : Cache κ ν ε ι) (log : List (Notice κ ν ε ι)) : Prop where
  opened : ∀ key, openLoads log key = s.loadsOf key
  stored : ∀ key, (s.slots key).stored? =
    (latest? log key).map fun p => ⟨p.1, deadline p.2 cfg.ttl⟩
  past : ∀ n ∈ log, n.time ≤ s.now
  started : ∀ key, ∀ load ∈ starts log key, load < s.nextLoad
  silent : ∀ load, (s.nextLoad ≤ load ∨ ∃ l ∈ s.running, l.id = load) → endings log load = []

inductive Notice.LoadFree (now : Nat) : Notice κ ν ε ι → Prop where
  | reported (call : ι) (report : Report ν ε) : LoadFree now (.reported call report now)
  | broken (call : ι) (key : κ) : LoadFree now (.invoked call key none now)

omit [DecidableEq κ] in
theorem filterMap_loadFree {β : Type} {f : Notice κ ν ε ι → Option β}
    {more : List (Notice κ ν ε ι)} {now : Nat} (hm : ∀ n ∈ more, n.LoadFree now)
    (hr : ∀ c r t, f (.reported c r t) = none) (hb : ∀ c k t, f (.invoked c k none t) = none) :
    more.filterMap f = [] := by
  apply List.filterMap_eq_nil_iff.2
  intro n hn
  cases hm n hn with
  | reported c r => exact hr c r _
  | broken c k => exact hb c k _

omit [DecidableEq κ] in
theorem endings_loadFree {more : List (Notice κ ν ε ι)} {now : Nat}
    (hm : ∀ n ∈ more, n.LoadFree now) (load : Nat) : endings more load = [] :=
  filterMap_loadFree hm (fun _ _ _ => rfl) fun _ _ _ => rfl

omit [DecidableEq κ] in
theorem attach_loadFree (s : Cache κ ν ε ι) (call : ι) (load : Nat) (stale? : Option ν) :
    ∀ n ∈ (s.attach call load stale?).2, n.LoadFree s.now := by
  cases stale? with
  | none => simp [attach]
  | some v => simpa [attach] using Notice.LoadFree.reported call (.value v)

omit [DecidableEq κ] in
theorem announce_loadFree (s : Cache κ ν ε ι) (l : Load κ ν ε) :
    ∀ n ∈ s.announce l, n.LoadFree s.now := by
  intro n hn
  obtain ⟨w, _, rfl⟩ := List.mem_map.1 hn
  exact .reported w.call _

namespace Recorded

variable {cfg : Settings} {s : Cache κ ν ε ι} {log : List (Notice κ ν ε ι)}

theorem empty : Recorded cfg (Cache.empty : Cache κ ν ε ι) [] :=
  ⟨fun _ => rfl, fun _ => rfl, by simp, by simp [starts], fun _ _ => rfl⟩

theorem frame {s' : Cache κ ν ε ι} (h : Recorded cfg s log) (hr : s'.running = s.running)
    (hs : s'.slots = s.slots) (hl : s'.nextLoad = s.nextLoad) (hn : s.now ≤ s'.now) :
    Recorded cfg s' log := by
  refine ⟨?_, ?_, ?_, ?_, ?_⟩
  · intro key
    rw [h.opened key, loadsOf, loadsOf, hr]
  · intro key
    rw [hs]
    exact h.stored key
  · intro n hm
    exact Nat.le_trans (h.past n hm) hn
  · intro key load hm
    rw [hl]
    exact h.started key load hm
  · intro load hload
    rw [hl, hr] at hload
    exact h.silent load hload

theorem loadFree {more : List (Notice κ ν ε ι)} (h : Recorded cfg s log)
    (hm : ∀ n ∈ more, n.LoadFree s.now) : Recorded cfg s (log ++ more) := by
  have hstarts (key : κ) : starts more key = [] :=
    filterMap_loadFree hm (fun _ _ _ => rfl) fun _ _ _ => by simp [Notice.startOf?]
  have hends (key : κ) : ends more key = [] :=
    filterMap_loadFree hm (fun _ _ _ => rfl) fun _ _ _ => rfl
  have hvalues (key : κ) : more.filterMap (Notice.valueOf? key) = [] :=
    filterMap_loadFree hm (fun _ _ _ => rfl) fun _ _ _ => rfl
  refine ⟨?_, ?_, ?_, ?_, ?_⟩
  · intro key
    simpa [openLoads, hstarts, hends] using h.opened key
  · intro key
    simpa [latest?_append, latest?, hvalues] using h.stored key
  · intro n hn
    rcases List.mem_append.1 hn with hn | hn
    · exact h.past n hn
    · cases hm n hn <;> exact Nat.le_refl _
  · intro key
    simpa [hstarts] using h.started key
  · intro load hload
    simp [endings_loadFree hm, h.silent load hload]

theorem attach (h : Recorded cfg s log) (call : ι) (load : Nat) (stale? : Option ν) :
    Recorded cfg (s.attach call load stale?).1 (log ++ (s.attach call load stale?).2) := by
  have hr := h.loadFree (attach_loadFree s call load stale?)
  exact hr.frame (by simp) (by simp) (by simp) (by simp)

theorem lt_of_mem_ends (h : Recorded cfg s log) {key : κ} {load : Nat}
    (hl : load ∈ ends log key) : load < s.nextLoad := by
  obtain ⟨o, t, hm⟩ := mem_ends.1 hl
  by_contra hge
  have hnil := h.silent load (.inl (Nat.le_of_not_lt hge))
  have hend := mem_endings.2 hm
  rw [hnil] at hend
  cases hend

theorem start (h : Recorded cfg s log) (call : ι) (key : κ) (due : Nat)
    (outcome : Outcome ν ε) : Recorded cfg (s.start key due outcome)
      (log ++ [.invoked call key (some s.nextLoad) s.now]) := by
  have hstarts (k : κ) : starts (log ++ [.invoked call key (some s.nextLoad) s.now]) k =
      starts log k ++ if key = k then [s.nextLoad] else [] := by
    by_cases hk : key = k <;> simp [Notice.startOf?, hk]
  have hends (k : κ) : ends (log ++ [.invoked call key (some s.nextLoad) s.now]) k =
      ends log k := by
    simp [Notice.endOf?]
  refine ⟨?_, ?_, ?_, ?_, ?_⟩
  · intro k
    have hfresh : s.nextLoad ∉ ends log k := fun hm => Nat.lt_irrefl _ (h.lt_of_mem_ends hm)
    rw [loadsOf_start, ← h.opened k, openLoads, hstarts, hends, List.filter_append]
    by_cases hk : key = k <;> simp [openLoads, hk, hfresh]
  · intro k
    rw [start_slots]
    have hk := h.stored k
    by_cases he : k = key
    · subst he
      simpa [latest?, Notice.valueOf?] using hk
    · simpa [latest?, Notice.valueOf?, he] using hk
  · intro n hn
    rcases List.mem_append.1 hn with hn | hn
    · exact h.past n hn
    · obtain rfl := List.mem_singleton.1 hn
      exact Nat.le_refl _
  · intro k load hm
    rw [hstarts k] at hm
    rcases List.mem_append.1 hm with hm | hm
    · exact Nat.lt_succ_of_lt (h.started k load hm)
    · by_cases hk : key = k
      · have he : load = s.nextLoad := by simpa [hk] using hm
        simp [he]
      · simp [hk] at hm
  · intro load hload
    have hold : s.nextLoad ≤ load ∨ ∃ l ∈ s.running, l.id = load := by
      rcases hload with hload | ⟨l, hl, he⟩
      · exact .inl (Nat.le_of_succ_le hload)
      · simp only [start_running, List.mem_append, List.mem_singleton] at hl
        rcases hl with hl | rfl
        · exact .inr ⟨l, hl, he⟩
        · exact .inl (Nat.le_of_eq he)
    simp [Notice.endingOf?, h.silent load hold]

theorem land (h : Recorded cfg s log) (hs : Sound s) {l : Load κ ν ε} (hl : l ∈ s.running) :
    Recorded cfg (s.land cfg l) (log ++ [.ended l.id l.key l.outcome s.now]) := by
  have hstarts (k : κ) : starts (log ++ [.ended l.id l.key l.outcome s.now]) k = starts log k := by
    simp [Notice.startOf?]
  have hends (k : κ) : ends (log ++ [.ended l.id l.key l.outcome s.now]) k =
      ends log k ++ if l.key = k then [l.id] else [] := by
    by_cases hk : l.key = k <;> simp [Notice.endOf?, hk]
  refine ⟨?_, ?_, ?_, ?_, ?_⟩
  · intro k
    rw [loadsOf_land]
    by_cases hk : k = l.key
    · subst hk
      rw [← h.opened l.key, openLoads, openLoads, hstarts, hends, List.filter_filter]
      simp [and_comm]
    · rw [hs.filter_loadsOf hl hk, ← h.opened k, openLoads, openLoads, hstarts, hends]
      simp [Ne.symm hk]
  · intro k
    rw [land_slots, latest?_append]
    by_cases hk : k = l.key
    · subst hk
      cases ho : l.outcome with
      | ok v => simp [Slot.complete, latest?, Notice.valueOf?]
      | error e => simpa [Slot.complete, latest?, Notice.valueOf?] using h.stored l.key
    · have hv : Notice.valueOf? k (.ended l.id l.key l.outcome s.now : Notice κ ν ε ι) = none := by
        cases l.outcome <;> simp [Notice.valueOf?, Ne.symm hk]
      simpa [hk, latest?, hv] using h.stored k
  · intro n hn
    rcases List.mem_append.1 hn with hn | hn
    · exact h.past n hn
    · obtain rfl := List.mem_singleton.1 hn
      exact Nat.le_refl _
  · intro k
    rw [hstarts k]
    exact h.started k
  · intro load hload
    -- what is still running, or not numbered yet, is not the load that has ended
    have hold : (s.nextLoad ≤ load ∨ ∃ r ∈ s.running, r.id = load) ∧ l.id ≠ load := by
      rcases hload with hge | ⟨r, hr, rfl⟩
      · exact ⟨.inl hge, Nat.ne_of_lt (Nat.lt_of_lt_of_le (hs.numbered l hl) hge)⟩
      · obtain ⟨hr, hne⟩ := List.mem_filter.1 hr
        exact ⟨.inr ⟨r, hr, rfl⟩, by simpa using Ne.symm (by simpa using hne)⟩
    simp [Notice.endingOf?, hold.2, h.silent load hold.1]

theorem move [DecidableEq ι] {e : Event κ ν ε ι} {r : Cache κ ν ε ι × List (Notice κ ν ε ι)}
    (h : Recorded cfg s log) (hs : Sound s) (m : Move cfg s e r) :
    Recorded cfg r.1 (log ++ r.2) := by
  cases m with
  | hit id key loader v _ => exact h.loadFree (by simpa using .reported id (.value v))
  | join id key loader load _ _ => exact h.attach id load _
  | crash id key _ _ =>
    exact h.loadFree (by simpa using ⟨.broken id key, .reported id .callerPanic⟩)
  | launch id key loader due outcome _ hn _ =>
    have ha := (h.start id key due outcome).attach id s.nextLoad ((s.slots key).stale? cfg s.now)
    simpa using ha
  | cancel id =>
    simp only [List.append_nil]
    exact h.frame rfl rfl rfl (Nat.le_refl _)
  | idle load => simpa using h
  | land l hl _ =>
    have ha := (h.land hs hl).loadFree (announce_loadFree s l)
    simpa using ha
  | pass target =>
    simp only [List.append_nil]
    exact h.frame rfl rfl rfl (Nat.le_max_left _ _)

theorem fresh?_eq_some (h : Recorded cfg s log) {key : κ} {v : ν} :
    (s.slots key).fresh? s.now = some v ↔
      ∃ t, latest? log key = some (v, t) ∧ s.now < deadline t cfg.ttl := by
  rw [Slot.fresh?, h.stored key]
  cases latest? log key with
  | none => simp
  | some p => simp [Prod.ext_iff, and_comm]

theorem stale?_eq_some (h : Recorded cfg s log) {key : κ} {v : ν} :
    (s.slots key).stale? cfg s.now = some v ↔
      ∃ t, latest? log key = some (v, t) ∧ cfg.policy = .staleWhileRevalidate ∧
        s.now < deadline (deadline t cfg.ttl) cfg.loadTimeout := by
  rw [Slot.stale?, h.stored key]
  cases latest? log key with
  | none => simp
  | some p => simp [Prod.ext_iff, and_comm, and_assoc]

end Recorded

/-- Every run from the empty cache leads to a sound state that its notices tell. -/
theorem run_coherent [DecidableEq ι] (cfg : Settings) (es : List (Event κ ν ε ι)) :
    Sound (Cache.empty.run cfg es).1 ∧
      Recorded cfg (Cache.empty.run cfg es).1 (Cache.empty.run cfg es).2 := by
  refine run_induction cfg (P := fun _ s log => Sound s ∧ Recorded cfg s log)
    ⟨.empty, .empty⟩ ?_ es
  rintro _ s log e ⟨hs, hr⟩
  have m := step_move cfg s e
  exact ⟨hs.move m, hr.move hs m⟩

theorem run_sound_induction [DecidableEq ι] (cfg : Settings)
    {P : List (Event κ ν ε ι) → Cache κ ν ε ι → List (Notice κ ν ε ι) → Prop}
    (start : P [] .empty [])
    (next : ∀ es s log e r, Sound s → Recorded cfg s log → Move cfg s e r → P es s log →
      P (es ++ [e]) r.1 (log ++ r.2))
    (es : List (Event κ ν ε ι)) : P es (Cache.empty.run cfg es).1 (Cache.empty.run cfg es).2 := by
  induction es using List.reverseRecOn with
  | nil => exact start
  | append_singleton es e ih =>
    obtain ⟨hs, hr⟩ := run_coherent (ν := ν) (ε := ε) cfg es
    rw [run_snoc]
    exact next _ _ _ e _ hs hr (step_move cfg _ e) ih

end BearerAccess.Cache
