import BearerAccess.Proofs.Cache.Coherence
/-!
Where loads come from. Every load was started by a call of its key, and its end is one that the
loader of that call can give.
-/
set_option autoImplicit false

namespace BearerAccess.Cache

variable {κ ν ε ι : Type}

/-- The outcomes that a loader can lead to under a time limit. -/
inductive Loader.Gives (limit : Nat) : Loader ν ε → Outcome ν ε → Prop where
  | value (delay : Nat) (v : ν) : Gives limit (.finishing delay (.value v)) (.ok v)
  | error (delay : Nat) (e : ε) : Gives limit (.finishing delay (.error e)) (.error (.load e))
  | panic (delay : Nat) :
      Gives limit (.finishing delay .panic) (.error (.aborted "loader panicked"))
  | late (delay : Nat) (ending : Ending ν ε) :
      Gives limit (.finishing delay ending) (.error (.timeout limit))
  | hung : Gives limit .hanging (.error (.timeout limit))

theorem Loader.gives_of_plan? {cfg : Settings} {now due : Nat} {loader : Loader ν ε}
    {outcome : Outcome ν ε} (h : loader.plan? cfg now = some (due, outcome)) :
    loader.Gives cfg.loadTimeout outcome := by
  cases loader with
  | crash => cases h
  | hanging =>
    obtain ⟨-, rfl⟩ : _ ∧ _ = outcome := by simpa [Loader.plan?] using h
    exact .hung
  | finishing delay ending =>
    simp only [Loader.plan?] at h
    generalize (if delay = 0 then now else _) = finish at h
    split at h
    · obtain ⟨-, rfl⟩ := Prod.ext_iff.1 (Option.some.inj h)
      cases ending with
      | value v => exact .value delay v
      | error e => exact .error delay e
      | panic => exact .panic delay
    · obtain ⟨-, rfl⟩ := Prod.ext_iff.1 (Option.some.inj h)
      exact .late delay ending

/-- Where a load comes from: a call of its key invoked its loader, which planned this end. -/
def Source (cfg : Settings) (es : List (Event κ ν ε ι)) (log : List (Notice κ ν ε ι)) (key : κ)
    (load due : Nat) (outcome : Outcome ν ε) : Prop :=
  ∃ call loader t, .call call key loader ∈ es ∧ .invoked call key (some load) t ∈ log ∧
    loader.plan? cfg t = some (due, outcome)

theorem Source.mono {cfg : Settings} {es es' : List (Event κ ν ε ι)}
    {log log' : List (Notice κ ν ε ι)} {key : κ} {load due : Nat} {outcome : Outcome ν ε}
    (h : Source cfg es log key load due outcome) (he : es ⊆ es') (hl : log ⊆ log') :
    Source cfg es' log' key load due outcome := by
  obtain ⟨call, loader, t, hcall, hstart, hplan⟩ := h
  exact ⟨call, loader, t, he hcall, hl hstart, hplan⟩

variable [DecidableEq κ] [DecidableEq ι] {cfg : Settings} {s : Cache κ ν ε ι} {e : Event κ ν ε ι}
  {r : Cache κ ν ε ι × List (Notice κ ν ε ι)}

theorem Move.running_cases (m : Move cfg s e r) {l : Load κ ν ε} (hl : l ∈ r.1.running) :
    l ∈ s.running ∨ Source cfg [e] r.2 l.key l.id l.due l.outcome := by
  cases m with
  | launch call key loader due outcome _ _ hp =>
    simp only [attach_running, start_running, List.mem_append, List.mem_singleton] at hl
    rcases hl with hl | rfl
    · exact .inl hl
    · exact .inr ⟨call, loader, s.now, .head _, .head _, hp⟩
  | join call key loader load _ _ => exact .inl (by simpa using hl)
  | land d _ _ => exact .inl (List.mem_filter.1 hl).1
  | hit | crash | cancel | idle | pass => exact .inl hl

theorem Move.ended_lands (m : Move cfg s e r) {load now : Nat} {key : κ} {outcome : Outcome ν ε}
    (h : .ended load key outcome now ∈ r.2) :
    now = s.now ∧ ∃ l ∈ s.running, l.due ≤ s.now ∧ l.id = load ∧ l.key = key ∧
      l.outcome = outcome ∧ e = .finish l.id ∧
        r = (s.land cfg l, .ended l.id l.key l.outcome s.now :: s.announce l) := by
  cases m with
  | land l hl hd =>
    rcases List.mem_cons.1 h with he | hm
    · obtain ⟨rfl, rfl, rfl, rfl⟩ : load = l.id ∧ key = l.key ∧ outcome = l.outcome ∧
          now = s.now := by simpa using he
      exact ⟨rfl, l, hl, hd, rfl, rfl, rfl, rfl, rfl⟩
    · cases announce_loadFree _ _ _ hm
  | join call k loader n _ _ => cases attach_loadFree _ _ _ _ _ h
  | launch call k loader due o _ _ _ =>
    rcases List.mem_cons.1 h with he | hm
    · cases he
    · cases attach_loadFree _ _ _ _ _ hm
  | hit | crash | cancel | idle | pass => simp at h

omit [DecidableEq κ] [DecidableEq ι] in
theorem reported_attach {call id : ι} {load now : Nat} {stale? : Option ν} {report : Report ν ε}
    (h : .reported id report now ∈ (s.attach call load stale?).2) :
    id = call ∧ now = s.now ∧ ∃ v, stale? = some v ∧ report = .value v := by
  cases stale? with
  | none => simp [attach] at h
  | some v =>
    obtain ⟨rfl, rfl, rfl⟩ : id = call ∧ report = .value v ∧ now = s.now := by
      simpa [attach] using h
    exact ⟨rfl, rfl, v, rfl, rfl⟩

omit [DecidableEq κ] [DecidableEq ι] in
theorem reported_announce {id : ι} {l : Load κ ν ε} {now : Nat} {report : Report ν ε}
    (h : .reported id report now ∈ s.announce l) :
    now = s.now ∧ report = .ofOutcome l.outcome ∧ ⟨id, l.id⟩ ∈ s.waiting := by
  obtain ⟨w, hw, he⟩ := List.mem_map.1 h
  obtain ⟨hwait, hload⟩ := List.mem_filter.1 hw
  obtain ⟨rfl, rfl, rfl⟩ : w.call = id ∧ .ofOutcome l.outcome = report ∧ s.now = now := by
    simpa using he
  refine ⟨rfl, rfl, ?_⟩
  rwa [← of_decide_eq_true hload]

/-- What an event can tell: to the call that it is, a value that stands in the slot or the breakdown
of its loader; to a call that waits for a load, how the load ends. -/
theorem Move.reported_cases (m : Move cfg s e r) {call : ι} {report : Report ν ε} {now : Nat}
    (h : .reported call report now ∈ r.2) :
    now = s.now ∧
      ((∃ key loader v, e = .call call key loader ∧ report = .value v ∧
          ((s.slots key).fresh? s.now = some v ∨ (s.slots key).stale? cfg s.now = some v)) ∨
        (∃ key, e = .call call key .crash ∧ report = .callerPanic) ∨
        ∃ l ∈ s.running, ⟨call, l.id⟩ ∈ s.waiting ∧ report = .ofOutcome l.outcome ∧
          .ended l.id l.key l.outcome s.now ∈ r.2) := by
  cases m with
  | hit id key loader v hf =>
    obtain ⟨rfl, rfl, rfl⟩ : call = id ∧ report = .value v ∧ now = s.now := by simpa using h
    exact ⟨rfl, .inl ⟨key, loader, v, rfl, rfl, .inl hf⟩⟩
  | join id key loader load _ _ =>
    obtain ⟨rfl, rfl, v, hst, rfl⟩ := reported_attach h
    exact ⟨rfl, .inl ⟨key, loader, v, rfl, rfl, .inr hst⟩⟩
  | crash id key _ _ =>
    obtain ⟨rfl, rfl, rfl⟩ : call = id ∧ report = .callerPanic ∧ now = s.now := by simpa using h
    exact ⟨rfl, .inr (.inl ⟨key, rfl, rfl⟩)⟩
  | launch id key loader due outcome _ _ _ =>
    rcases List.mem_cons.1 h with he | hm
    · cases he
    · obtain ⟨rfl, rfl, v, hst, rfl⟩ := reported_attach hm
      exact ⟨rfl, .inl ⟨key, loader, v, rfl, rfl, .inr hst⟩⟩
  | land l hl _ =>
    rcases List.mem_cons.1 h with he | hm
    · cases he
    · obtain ⟨rfl, rfl, hw⟩ := reported_announce hm
      exact ⟨rfl, .inr (.inr ⟨l, hl, hw, rfl, .head _⟩)⟩
  | cancel | idle | pass => simp at h

theorem run_sourced (cfg : Settings) (es : List (Event κ ν ε ι)) :
    (∀ l ∈ (Cache.empty.run cfg es).1.running,
      Source cfg es (Cache.empty.run cfg es).2 l.key l.id l.due l.outcome) ∧
    ∀ load key outcome now, .ended load key outcome now ∈ (Cache.empty.run cfg es).2 →
      ∃ due, Source cfg es (Cache.empty.run cfg es).2 key load due outcome := by
  refine run_induction cfg
    (P := fun es s log => (∀ l ∈ s.running, Source cfg es log l.key l.id l.due l.outcome) ∧
      ∀ load key outcome now, .ended load key outcome now ∈ log →
        ∃ due, Source cfg es log key load due outcome)
    ⟨by simp [Cache.empty], by simp⟩ ?_ es
  rintro es s log e ⟨hrunning, hended⟩
  have m := step_move cfg s e
  have hes : es ⊆ es ++ [e] := List.subset_append_left _ _
  have hlog : log ⊆ log ++ (s.step cfg e).2 := List.subset_append_left _ _
  refine ⟨?_, ?_⟩
  · intro l hl
    rcases m.running_cases hl with hold | hnew
    · exact (hrunning l hold).mono hes hlog
    · exact hnew.mono (List.subset_append_right _ _) (List.subset_append_right _ _)
  · intro load key outcome now hm
    rcases List.mem_append.1 hm with hm | hm
    · obtain ⟨due, hsource⟩ := hended load key outcome now hm
      exact ⟨due, hsource.mono hes hlog⟩
    · obtain ⟨-, l, hl, -, rfl, rfl, rfl, -, -⟩ := m.ended_lands hm
      exact ⟨l.due, (hrunning l hl).mono hes hlog⟩

end BearerAccess.Cache
