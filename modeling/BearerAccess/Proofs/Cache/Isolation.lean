import BearerAccess.Proofs.Cache.View
set_option autoImplicit false

namespace BearerAccess.Cache

variable {κ ν ε ι : Type} [DecidableEq κ]

def Event.calls [DecidableEq ι] (id : ι) (key : κ) : Event κ ν ε ι → Bool
  | .call c k _ => c = id ∧ k = key
  | _ => false

variable {s : Cache κ ν ε ι} {key : κ} {cfg : Settings} {log : List (Notice κ ν ε ι)}

theorem Recorded.mem_starts (h : Recorded cfg s log) {load : Nat}
    (hl : load ∈ s.loadsOf key) : load ∈ starts log key := by
  rw [← h.opened key] at hl
  exact (List.mem_filter.1 hl).1

theorem Recorded.new_load (h : Recorded cfg s log) (key : κ) : s.nextLoad ∉ starts log key :=
  fun hm => Nat.lt_irrefl _ (h.started key _ hm)

variable [DecidableEq ι]

/-- What is kept of an event when only one key counts: a call of the key, the cancellation of one,
the end of a load of it, and the time that passes. -/
def keep? (cfg : Settings) (key : κ) (past : List (Event κ ν ε ι)) :
    Event κ ν ε ι → Option (Event κ ν ε ι)
  | .call id k loader => if k = key then some (.call id k loader) else none
  | .cancel id => if past.any (Event.calls id key) then some (.cancel id) else none
  | .finish load =>
    let r := Cache.empty.run cfg past
    if load ∈ r.1.loadsOf key then some (.finish ((starts r.2 key).idxOf load)) else none
  | .pass target =>
    let s := (Cache.empty.run cfg past).1
    some (.pass (max s.now (s.firstDue target)))

def alone (cfg : Settings) (key : κ) (es : List (Event κ ν ε ι)) : List (Event κ ν ε ι) :=
  inTurn (keep? cfg key) es

def Asked (past : List (Event κ ν ε ι)) (s : Cache κ ν ε ι) : Prop :=
  ∀ w ∈ s.waiting, ∀ l ∈ s.running, l.id = w.load → past.any (Event.calls w.call l.key) = true

variable {e : Event κ ν ε ι} {r : Cache κ ν ε ι × List (Notice κ ν ε ι)}
  {past : List (Event κ ν ε ι)}

theorem Asked.mono (h : Asked past s) (e : Event κ ν ε ι) : Asked (past ++ [e]) s := by
  intro w hw l hl hid
  simp [h w hw l hl hid]

theorem Asked.attach {id : ι} {key : κ} {loader : Loader ν ε} {load : Nat}
    (h : Asked (past ++ [.call id key loader]) s)
    (hkey : ∀ l ∈ s.running, l.id = load → l.key = key) (stale? : Option ν) :
    Asked (past ++ [.call id key loader]) (s.attach id load stale?).1 := by
  cases stale? with
  | some v => exact h
  | none =>
    intro w hw l hl hid
    simp only [Cache.attach, List.mem_append, List.mem_singleton] at hw hl
    rcases hw with hw | rfl
    · exact h w hw l hl hid
    · simp [Event.calls, hkey l hl hid]

theorem Asked.move (h : Asked past s) (hs : Sound s) (m : Move cfg s e r) :
    Asked (past ++ [e]) r.1 := by
  cases m with
  | hit | crash | idle => exact h.mono _
  | join id key loader load _ hc =>
    obtain ⟨l₀, hl₀, rfl, hid₀⟩ := hs.exists_claimant hc
    refine (h.mono _).attach (fun l hl hid => ?_) _
    rw [hs.distinct l hl l₀ hl₀ (hid.trans hid₀.symm)]
  | launch id key loader due outcome _ _ _ =>
    refine Asked.attach (fun w hw l hl hid => ?_) (fun l hl hid => ?_) _
    · -- no one waits yet for the load that starts
      obtain ⟨l₀, hl₀, hid₀⟩ := hs.attached w hw
      simp only [start_running, List.mem_append, List.mem_singleton] at hl
      rcases hl with hl | rfl
      · exact h.mono _ w hw l hl hid
      · exact absurd (hid₀.trans hid.symm) (Nat.ne_of_lt (hs.numbered l₀ hl₀))
    · simp only [start_running, List.mem_append, List.mem_singleton] at hl
      rcases hl with hl | rfl
      · exact absurd hid (Nat.ne_of_lt (hs.numbered l hl))
      · rfl
  | cancel id =>
    exact fun w hw l hl hid => h.mono _ w (List.mem_filter.1 hw).1 l hl hid
  | land d _ _ =>
    exact fun w hw l hl hid =>
      h.mono _ w (List.mem_filter.1 hw).1 l (List.mem_filter.1 hl).1 hid
  | pass => exact h.mono _

theorem run_asked (cfg : Settings) (es : List (Event κ ν ε ι)) :
    Asked es (Cache.empty.run cfg es).1 :=
  run_sound_induction cfg (P := fun es s _ => Asked es s) (fun _ hw => nomatch hw)
    (fun _ _ _ _ _ hs _ m h => h.move hs m) es

def OnlyFor (key : κ) (es : List (Event κ ν ε ι)) (id : ι) : Prop :=
  ∀ k loader, .call id k loader ∈ es → k = key

omit [DecidableEq κ] [DecidableEq ι] in
theorem OnlyFor.of_append {es more : List (Event κ ν ε ι)} {id : ι}
    (h : OnlyFor key (es ++ more) id) : OnlyFor key es id :=
  fun k loader hm => h k loader (List.mem_append_left _ hm)

theorem any_calls {id : ι} : past.any (Event.calls id key) = true ↔
    ∃ loader, .call id key loader ∈ past := by
  simp only [List.any_eq_true]
  constructor
  · rintro ⟨e, he, hc⟩
    cases e with
    | call c k loader =>
      obtain ⟨rfl, rfl⟩ : c = id ∧ k = key := by simpa [Event.calls] using hc
      exact ⟨loader, he⟩
    | cancel | finish | pass => simp [Event.calls] at hc
  · rintro ⟨loader, he⟩
    exact ⟨_, he, by simp [Event.calls]⟩

/-- What is kept of an event does in the view what the event does in the cache. -/
theorem step_alone (cfg : Settings) (key : κ) (es : List (Event κ ν ε ι)) (e : Event κ ν ε ι) :
    let r := Cache.empty.run cfg es
    Shown key (starts r.2 key) (OnlyFor key (es ++ [e])) (r.1.step cfg e)
      ((r.1.view key (starts r.2 key)).run cfg (keep? cfg key es e).toList) := by
  intro r
  obtain ⟨hs, hr⟩ := run_coherent (ν := ν) (ε := ε) cfg es
  have hasked := run_asked cfg es
  have hmem (load : Nat) (hl : load ∈ r.1.loadsOf key) := hr.mem_starts hl
  cases e with
  | call id k loader =>
    by_cases hk : k = key
    · subst hk
      simpa [keep?, run_cons] using call_shown hs hmem (hr.new_load k) id loader _
    · have hid : ∀ c, OnlyFor key (es ++ [.call id k loader]) c → c ≠ id := by
        rintro c hc rfl
        exact hk (hc k loader (by simp))
      simpa [keep?, hk] using call_hidden hs hk loader _ hid
  | cancel id =>
    by_cases hc : es.any (Event.calls id key)
    · simpa [keep?, hc, run_cons] using cancel_shown _ id _
    · have hgone : ∀ w ∈ r.1.waiting, w.load ∈ r.1.loadsOf key → w.call ≠ id := by
        rintro w hw hl rfl
        obtain ⟨l, hrunning, rfl, hid⟩ := mem_loadsOf.1 hl
        exact hc (hasked w hw l hrunning hid)
      simpa [keep?, hc] using cancel_hidden _ hgone _
  | finish load =>
    by_cases hl : load ∈ r.1.loadsOf key
    · simpa [keep?, hl, r, run_cons] using finish_shown hs hmem hl _
    · have hc : ∀ w ∈ r.1.waiting, w.load = load → ¬OnlyFor key (es ++ [.finish load]) w.call := by
        rintro w hw rfl honly
        obtain ⟨l, hrunning, hid⟩ := hs.attached w hw
        obtain ⟨loader, hcall⟩ := any_calls.1 (hasked w hw l hrunning hid)
        exact hl (mem_loadsOf.2 ⟨l, hrunning, honly.of_append _ _ hcall, hid⟩)
      simpa [keep?, hl, r] using finish_hidden hs _ hl hc
  | pass target => simpa [keep?, run_cons] using pass_shown _ target _

theorem run_alone (cfg : Settings) (key : κ) (es : List (Event κ ν ε ι)) :
    Shown key [] (OnlyFor key es) (Cache.empty.run cfg es)
      (Cache.empty.run cfg (alone cfg key es)) := by
  induction es using List.reverseRecOn with
  | nil => exact ⟨view_empty.symm, rfl, fun _ _ => rfl⟩
  | append_singleton es e ih =>
    have hstate := ih.state
    have hold : Shown key [] (OnlyFor key (es ++ [e])) (Cache.empty.run cfg es)
        (Cache.empty.run cfg (alone cfg key es)) :=
      ⟨hstate, ih.invoked, fun id hid => ih.told id hid.of_append⟩
    rw [List.nil_append] at hstate
    have h := hold.append (step_alone cfg key es e)
    rw [alone, inTurn_append_singleton, run_append, run_append, ← alone, hstate]
    simpa [run_cons] using h

/-- Whatever happens to other keys, and whenever one looks: with all events of other keys taken out
and the passage of time kept, the slot of a key is the same up to the numbers of its loads, its
loaders are invoked by the same calls at the same instants, and its calls are told the same at the
same instants. -/
theorem keys_independent (cfg : Settings) (key : κ) (es : List (Event κ ν ε ι)) :
    ∀ past, past <+: es →
      let whole := Cache.empty.run cfg past
      let apart := Cache.empty.run cfg (alone cfg key past)
      alone cfg key past <+: alone cfg key es ∧ apart.1.now = whole.1.now ∧
        apart.1.slots key = (whole.1.slots key).renumber (starts whole.2 key) ∧
        (∀ k, k ≠ key → apart.1.slots k = .empty) ∧
        invocations apart.2 key = invocations whole.2 key ∧
        ∀ id, OnlyFor key past id → reports apart.2 id = reports whole.2 id := by
  intro past hpast whole apart
  have h := run_alone cfg key past
  have hstate : apart.1 = whole.1.view key (starts whole.2 key) := h.state
  refine ⟨inTurn_mono _ hpast, ?_, ?_, ?_, h.invoked, h.told⟩
  · rw [hstate, view_now]
  · rw [hstate, view_slot]
  · intro k hk
    rw [hstate]
    exact if_neg hk

/-- A load of another key hangs, a loader of it breaks down and a caller gives up. -/
theorem keys_independent_hanging :
    let cfg : Settings := ⟨10, 20, .waitForRefresh⟩
    let es : List (Event Nat Nat Nat Nat) :=
      [.call 0 8 .hanging, .call 1 7 (.finishing 5 (.value 3)), .cancel 0, .call 2 9 .crash,
        .pass 2000000, .finish 0, .finish 1, .call 3 7 .hanging]
    let whole := Cache.empty.run cfg es
    let apart := Cache.empty.run cfg (alone cfg 7 es)
    apart.1.slots 7 = ⟨some ⟨3, 1000010⟩, none⟩ ∧ apart.1.slots 8 = .empty ∧
      reports apart.2 1 = reports whole.2 1 ∧ reports whole.2 1 = [(.value 3, 1000000)] := by
  intro cfg es whole apart
  obtain ⟨-, -, hslot, hother, -, htold⟩ := keys_independent cfg 7 es es List.prefix_rfl
  have honly : OnlyFor 7 es 1 := by
    intro k loader hm
    obtain ⟨hk, -⟩ : k = 7 ∧ loader = .finishing 5 (.value 3) := by simpa [es] using hm
    exact hk
  exact ⟨hslot.trans (by decide), hother 8 (by decide), htold 1 honly, by decide⟩

end BearerAccess.Cache
