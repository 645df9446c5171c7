import BearerAccess.Proofs.Cache.Cancellation
import BearerAccess.Proofs.Cache.Demand
import BearerAccess.Proofs.Cache.Punctuality
import Mathlib.Data.List.Nodup
/-!
Calls for one key that come together. All of them find the same: a value that is served at once, or
one load to wait for. So they are told the same, and leave the cache the same, whoever they are, in
whichever order they come and however many there are.
-/
set_option autoImplicit false

namespace BearerAccess.Cache

variable {κ ν ε ι : Type}

def asking (key : κ) (loader : Loader ν ε) (ids : List ι) : List (Event κ ν ε ι) :=
  ids.map fun id => .call id key loader

theorem asking_cons (key : κ) (loader : Loader ν ε) (id : ι) (ids : List ι) :
    asking key loader (id :: ids) = .call id key loader :: asking key loader ids := rfl

def attachAll (s : Cache κ ν ε ι) (load : Nat) (ids : List ι) :
    Option ν → Cache κ ν ε ι × List (Notice κ ν ε ι)
  | some v => (s, ids.map fun id => .reported id (.value v) s.now)
  | none => ({ s with waiting := s.waiting ++ ids.map (⟨·, load⟩) }, [])

theorem reported_of_mem_attachAll {s : Cache κ ν ε ι} {load : Nat} {ids : List ι}
    {served? : Option ν} {n : Notice κ ν ε ι} (h : n ∈ (s.attachAll load ids served?).2) :
    ∃ id report now, n = .reported id report now := by
  cases served? with
  | none => cases h
  | some v =>
    obtain ⟨id, -, rfl⟩ := List.mem_map.1 h
    exact ⟨id, _, _, rfl⟩

/-- What every call for a key finds: a value that is served to it, or else a load to wait for. -/
inductive Finds (cfg : Settings) (s : Cache κ ν ε ι) (key : κ) (load : Nat) : Option ν → Prop where
  | fresh (v : ν) : (s.slots key).fresh? s.now = some v → Finds cfg s key load (some v)
  | claimed : (s.slots key).fresh? s.now = none → (s.slots key).inFlight? = some load →
      Finds cfg s key load ((s.slots key).stale? cfg s.now)

variable {cfg : Settings} {s : Cache κ ν ε ι} {key : κ} {load : Nat} {served? : Option ν}

theorem Finds.waiting (h : s.Finds cfg key load served?) (ws : List (Waiter ι)) :
    ({ s with waiting := ws } : Cache κ ν ε ι).Finds cfg key load served? := by
  cases h with
  | fresh v hf => exact .fresh v hf
  | claimed hf hc => exact .claimed hf hc

section Ask

variable [DecidableEq κ]

theorem Finds.call (h : s.Finds cfg key load served?) (loader : Loader ν ε) (id : ι) :
    s.call cfg id key loader = s.attach id load served? := by
  cases h with
  | fresh v hf => simp [Cache.call, hf, attach]
  | claimed hf hc => simp [Cache.call, hf, hc]

def supplied (cfg : Settings) (s : Cache κ ν ε ι) (key : κ) (loader : Loader ν ε) :
    Cache κ ν ε ι :=
  if (s.slots key).needsLoad s.now then
    match loader.plan? cfg s.now with
    | some (due, outcome) => s.start key due outcome
    | none => s
  else s

def opening (s : Cache κ ν ε ι) (key : κ) (id : ι) : List (Notice κ ν ε ι) :=
  if (s.slots key).needsLoad s.now then [.invoked id key (some s.nextLoad) s.now] else []

theorem supplied_waiting (loader : Loader ν ε) :
    (s.supplied cfg key loader).waiting = s.waiting := by
  unfold supplied
  split
  · split <;> rfl
  · rfl

theorem supplied_cases (cfg : Settings) (s : Cache κ ν ε ι) (key : κ) {loader : Loader ν ε}
    (hl : loader ≠ .crash) :
    ((s.slots key).needsLoad s.now = false ∧ s.supplied cfg key loader = s) ∨
    ∃ due outcome, (s.slots key).needsLoad s.now = true ∧
      loader.plan? cfg s.now = some (due, outcome) ∧
      s.supplied cfg key loader = s.start key due outcome := by
  cases hn : (s.slots key).needsLoad s.now with
  | false => exact .inl ⟨rfl, by simp [supplied, hn]⟩
  | true =>
    cases hp : loader.plan? cfg s.now with
    | none => exact absurd (Loader.eq_crash_of_plan? hp) hl
    | some plan => exact .inr ⟨plan.1, plan.2, rfl, rfl, by simp [supplied, hn, hp]⟩

theorem Sound.supplied (hs : Sound s) {loader : Loader ν ε} (hl : loader ≠ .crash) :
    Sound (s.supplied cfg key loader) := by
  rcases supplied_cases cfg s key hl with ⟨-, h⟩ | ⟨due, outcome, hn, -, h⟩
  · rwa [h]
  · rw [h]
    exact hs.start (Slot.needsLoad_iff.1 hn).2 due outcome

theorem supplied_ahead (hahead : ∀ l ∈ s.running, s.now ≤ l.due) {loader : Loader ν ε}
    (hl : loader ≠ .crash) :
    ∀ l ∈ (s.supplied cfg key loader).running, (s.supplied cfg key loader).now ≤ l.due := by
  rcases supplied_cases cfg s key hl with ⟨-, h⟩ | ⟨due, outcome, -, hp, h⟩
  · rwa [h]
  · rw [h]
    intro l hl
    rcases List.mem_append.1 hl with hl | hl
    · exact hahead l hl
    · rw [List.mem_singleton.1 hl]
      exact (Loader.plan?_due hp).1

theorem finds_start {due : Nat} {outcome : Outcome ν ε}
    (hn : (s.slots key).needsLoad s.now = true) :
    (s.start key due outcome).Finds cfg key s.nextLoad ((s.slots key).stale? cfg s.now) := by
  have hslot : (s.start key due outcome).slots key =
      { s.slots key with inFlight? := some s.nextLoad } := by simp [start_slots]
  have h : (s.start key due outcome).Finds cfg key s.nextLoad
      (((s.start key due outcome).slots key).stale? cfg (s.start key due outcome).now) :=
    .claimed (by rw [hslot]; exact (Slot.needsLoad_iff.1 hn).1) (by rw [hslot])
  rwa [hslot] at h

theorem exists_finds (cfg : Settings) (s : Cache κ ν ε ι) (key : κ) {loader : Loader ν ε}
    (hl : loader ≠ .crash) :
    ∃ load served?, (s.supplied cfg key loader).Finds cfg key load served? := by
  rcases supplied_cases cfg s key hl with ⟨hn, h⟩ | ⟨due, outcome, hn, -, h⟩
  · rw [h]
    cases hf : (s.slots key).fresh? s.now with
    | some v => exact ⟨0, _, .fresh v hf⟩
    | none =>
      cases hc : (s.slots key).inFlight? with
      | some load => exact ⟨load, _, .claimed hf hc⟩
      | none =>
        rw [Slot.needsLoad_iff.2 ⟨hf, hc⟩] at hn
        cases hn
  · rw [h]
    exact ⟨_, _, finds_start hn⟩

variable [DecidableEq ι]

theorem Finds.run (h : s.Finds cfg key load served?) (loader : Loader ν ε) (ids : List ι) :
    s.run cfg (asking key loader ids) = s.attachAll load ids served? := by
  induction ids generalizing s with
  | nil => cases served? <;> simp [asking, attachAll]
  | cons id ids ih =>
    have hstep : s.step cfg (.call id key loader) = s.attach id load served? := h.call loader id
    rw [asking_cons, run_cons, hstep]
    cases served? with
    | some v => simp [attach, ih h, attachAll]
    | none => simp [attach, ih (h.waiting _), attachAll]

/-- The first of the calls starts the load that is needed, if any; then all find the same. -/
theorem run_asking (cfg : Settings) (s : Cache κ ν ε ι) (key : κ) {loader : Loader ν ε}
    (hl : loader ≠ .crash) {load : Nat} {served? : Option ν}
    (h : (s.supplied cfg key loader).Finds cfg key load served?) (id : ι) (ids : List ι) :
    let met := (s.supplied cfg key loader).attachAll load (id :: ids) served?
    s.run cfg (asking key loader (id :: ids)) = (met.1, s.opening key id ++ met.2) := by
  intro met
  have hmet : (s.supplied cfg key loader).run cfg (asking key loader (id :: ids)) = met :=
    h.run loader _
  rw [← hmet, asking_cons, run_cons, run_cons]
  rcases supplied_cases cfg s key hl with ⟨hn, hsame⟩ | ⟨due, outcome, hn, hp, hstart⟩
  · simp [hsame, opening, hn]
  · obtain ⟨hf, hc⟩ := Slot.needsLoad_iff.1 hn
    have hfirst : s.step cfg (.call id key loader) =
        (((s.start key due outcome).step cfg (.call id key loader)).1,
          .invoked id key (some s.nextLoad) s.now ::
            ((s.start key due outcome).step cfg (.call id key loader)).2) := by
      have hjoin : (s.start key due outcome).step cfg (.call id key loader) =
          (s.start key due outcome).attach id s.nextLoad ((s.slots key).stale? cfg s.now) :=
        (finds_start hn).call loader id
      rw [hjoin]
      simp [step, Cache.call, hf, hc, hp]
    rw [hfirst, hstart]
    simp [opening, hn]

end Ask

section Wait

variable [DecidableEq κ] [DecidableEq ι] {es : List (Event κ ν ε ι)}

omit [DecidableEq κ] in
theorem reports_map_reported (ids : List ι) (report : Report ν ε) (now : Nat) (id : ι) :
    reports (ids.map fun c => (.reported c report now : Notice κ ν ε ι)) id =
      (ids.filter (· = id)).map fun _ => (report, now) := by
  induction ids with
  | nil => rfl
  | cons c ids ih => by_cases hc : c = id <;> simp [hc, Notice.reportOf?, ih]

theorem waiting_unprompted (cfg : Settings) (s : Cache κ ν ε ι) (h : ∀ e ∈ es, e.Unprompted) :
    (s.run cfg es).1.waiting =
      s.waiting.filter fun w => endings (s.run cfg es).2 w.load = [] := by
  induction es generalizing s with
  | nil => simp
  | cons e es ih =>
    have hstep : (s.step cfg e).1.waiting =
        s.waiting.filter fun w => endings (s.step cfg e).2 w.load = [] := by
      have m := step_move cfg s e
      have he := h e (.head _)
      generalize s.step cfg e = r at m ⊢
      cases m with
      | hit | join | crash | launch | cancel => cases he
      | idle | pass => simp
      | land l _ _ =>
        refine List.filter_congr fun w _ => ?_
        by_cases hw : l.id = w.load
        · simp [Notice.endingOf?, hw]
        · simp [Notice.endingOf?, hw, Ne.symm hw, endings_loadFree (announce_loadFree s l)]
    rw [run_cons]
    simp only [ih _ fun e he => h e (.tail _ he), hstep, List.filter_filter]
    refine List.filter_congr fun w _ => ?_
    simp [Bool.and_comm]

/-- Who waits does not matter to what happens as time passes. -/
theorem agree_unprompted (cfg : Settings) (s : Cache κ ν ε ι) (ws : List (Waiter ι))
    (h : ∀ e ∈ es, e.Unprompted) :
    Agree (fun _ => False) (({ s with waiting := ws } : Cache κ ν ε ι).run cfg es)
      (s.run cfg es) := by
  have hstart : Agree (fun _ => False) (({ s with waiting := ws } : Cache κ ν ε ι), []) (s, []) :=
    ⟨rfl, rfl, rfl, rfl, fun _ => rfl, fun _ => rfl, nofun, nofun⟩
  refine hstart.run cfg fun e he => ?_
  cases h e he <;> rfl

theorem run_more_waiting (cfg : Settings) (s : Cache κ ν ε ι) {ws : List (Waiter ι)}
    (h : ∀ e ∈ es, e.Unprompted) (hended : ∀ w ∈ ws, endings (s.run cfg es).2 w.load ≠ []) :
    (({ s with waiting := s.waiting ++ ws } : Cache κ ν ε ι).run cfg es).1 =
      (s.run cfg es).1 := by
  have hagree := agree_unprompted cfg s (s.waiting ++ ws) h
  refine eq_of_fields hagree.now (congrFun hagree.slots) hagree.running ?_ hagree.nextLoad
  have hgone : ws.filter (fun w => endings (s.run cfg es).2 w.load = []) = [] := by
    simpa [List.filter_eq_nil_iff] using hended
  rw [waiting_unprompted cfg _ h, waiting_unprompted cfg s h]
  simp only [hagree.ended, List.filter_append, hgone, List.append_nil]

omit [DecidableEq κ] in
theorem awaited?_eq_none {id : ι} (h : s.waitersOf id = []) : s.awaited? id = none := by
  have hnone : s.waiting.find? (fun w => w.call = id) = none := by
    rw [← List.head?_filter]
    exact congrArg List.head? h
  simp [awaited?, hnone]

theorem runUntil_rested (cfg : Settings) (h : ∀ l ∈ s.running, s.now < l.due) :
    s.runUntil cfg s.now = (s, []) := by
  have hnone : s.running.filter (fun l => l.due ≤ s.now) = [] := by
    simpa [List.filter_eq_nil_iff] using h
  have hfirst : s.firstDue s.now = s.now := foldl_min_due fun l hl => Nat.le_of_lt (h l hl)
  simp [runUntil, agenda, dueBy, hnone, run_cons, step, hfirst]

omit [DecidableEq κ] in
theorem filter_own {ids : List ι} (hnodup : ids.Nodup) {id : ι} (hid : id ∈ ids) :
    ids.filter (· = id) = [id] := by
  rw [List.filter_eq, List.count_eq_one_of_mem hnodup hid, List.replicate_one]

theorem Finds.sound (h : s.Finds cfg key load served?) (hs : Sound s) (ids : List ι) :
    Sound (s.attachAll load ids served?).1 := by
  have hrun := hs.run cfg (asking key .crash ids)
  rwa [h.run] at hrun

omit [DecidableEq κ] in
theorem waitersOf_attachAll (load : Nat) {ids : List ι} (hnodup : ids.Nodup) {id : ι}
    (hid : id ∈ ids) (hnew : s.waitersOf id = []) :
    (s.attachAll load ids none).1.waitersOf id = [⟨id, load⟩] := by
  simp only [waitersOf] at hnew ⊢
  simp [attachAll, hnew, List.filter_map, Function.comp_def, filter_own hnodup hid]

omit [DecidableEq ι] in
theorem Finds.claimant (h : s.Finds cfg key load none) (hs : Sound s) :
    ∃ l ∈ s.running, l.key = key ∧ l.id = load := by
  generalize hserved : none = served? at h
  cases h with
  | fresh v _ => cases hserved
  | claimed _ hc => exact hs.exists_claimant hc

theorem reports_of_waiting (cfg : Settings) (hs : Sound s) {l : Load κ ν ε} (hl : l ∈ s.running)
    {id : ι} (hw : s.waitersOf id = [⟨id, l.id⟩]) :
    ∃ outcome t, endings (s.runUntil cfg l.due).2 l.id = [(l.key, outcome, t)] ∧
      reports (s.runUntil cfg l.due).2 id = [(.ofOutcome outcome, t)] := by
  have hears : Hearing id l.key l.id s [] := .waits l hl rfl rfl hw rfl rfl
  have hgone := hears.await hs cfg
  rw [await, awaited?_eq_some hs hl hw] at hgone
  have hquiet := agenda_unprompted s l.due
  have hlater := hears.run cfg hs (by simp [callers_unprompted hquiet])
    (cancel_not_mem_unprompted hquiet id)
  cases hlater with
  | waits _ _ _ _ hwaits _ _ => exact absurd (hwaits.symm.trans hgone) (by simp)
  | told outcome t _ _ _ hend hrep => exact ⟨outcome, t, hend, hrep⟩

/-- However many calls find the same, and whoever they are: waiting for one of them takes the same
time and leaves the same behind, and then each of them has been told the same. -/
theorem Finds.together (h : s.Finds cfg key load served?) (hs : Sound s)
    (hahead : ∀ l ∈ s.running, s.now ≤ l.due) :
    ∃ target heard, s.now ≤ target ∧
      ∀ ids : List ι, ids.Nodup → (∀ id ∈ ids, s.waitersOf id = []) → ∀ id ∈ ids,
        let asked := s.attachAll load ids served?
        (asked.1.awaited? id).getD asked.1.now = target ∧
          (asked.1.runUntil cfg target).1 = (s.runUntil cfg target).1 ∧
          reports (asked.2 ++ (asked.1.runUntil cfg target).2) id = heard := by
  cases served? with
  | some v =>
    refine ⟨s.now, [(.value v, s.now)], Nat.le_refl _, fun ids hnodup hnew id hid => ?_⟩
    have hcallers : id ∉ callers (s.agenda s.now) := by
      simp [callers_unprompted (agenda_unprompted s s.now)]
    obtain ⟨-, hmore⟩ := run_silent cfg (hnew id hid) hcallers
    refine ⟨by simp [attachAll, awaited?_eq_none (hnew id hid)], rfl, ?_⟩
    simp [attachAll, reports_map_reported, filter_own hnodup hid, runUntil, hmore]
  | none =>
    obtain ⟨l, hl, rfl, rfl⟩ := h.claimant hs
    refine ⟨l.due, (endings (s.runUntil cfg l.due).2 l.id).map told, hahead l hl, ?_⟩
    intro ids hnodup hnew id hid asked
    have hsound : Sound asked.1 := h.sound hs ids
    have hwaits := waitersOf_attachAll l.id hnodup hid (hnew id hid)
    have hquiet := agenda_unprompted s l.due
    obtain ⟨outcome, t, hend, hrep⟩ := reports_of_waiting cfg hsound hl hwaits
    -- the load ends as it does where nobody has joined it
    have hsame : endings (s.runUntil cfg l.due).2 l.id = [(l.key, outcome, t)] :=
      ((agree_unprompted cfg s asked.1.waiting hquiet).ended l.id).symm.trans hend
    refine ⟨by rw [awaited?_eq_some hsound hl hwaits]; rfl, ?_, ?_⟩
    · refine run_more_waiting cfg s hquiet fun w hw => ?_
      obtain ⟨c, -, rfl⟩ := List.mem_map.1 hw
      exact fun hnone => List.cons_ne_nil _ _ (hsame.symm.trans hnone)
    · rw [hsame]
      exact hrep

theorem Sound.together (cfg : Settings) (hs : Sound s)
    (hahead : ∀ l ∈ s.running, s.now ≤ l.due) (key : κ) {loader : Loader ν ε}
    (hl : loader ≠ .crash) :
    ∃ (final : Cache κ ν ε ι) (heard : List (Report ν ε × Nat)),
      (∀ l ∈ final.running, final.now < l.due) ∧
      (∀ id, s.waitersOf id = [] → final.waitersOf id = []) ∧
      ∀ first rest, (first :: rest).Nodup → (∀ id ∈ first :: rest, s.waitersOf id = []) →
        ∃ asked served, (∀ n ∈ served, ∃ id report t, n = .reported id report t) ∧
          s.run cfg (asking key loader (first :: rest)) = (asked, s.opening key first ++ served) ∧
          (asked.await cfg first).1 = final ∧ ∀ id ∈ first :: rest,
            reports (s.opening key first ++ served ++ (asked.await cfg first).2) id = heard := by
  obtain ⟨load, served?, hfinds⟩ := exists_finds cfg s key hl
  have hsupplied : Sound (s.supplied cfg key loader) := hs.supplied hl
  have hwaiting : (s.supplied cfg key loader).waiting = s.waiting := supplied_waiting loader
  have hrun := run_asking cfg s key hl hfinds
  obtain ⟨target, heard, hle, htogether⟩ := hfinds.together hsupplied (supplied_ahead hahead hl)
  generalize s.supplied cfg key loader = c at *
  have hnone (id : ι) (hid : s.waitersOf id = []) : c.waitersOf id = [] := by
    rwa [waitersOf, hwaiting]
  refine ⟨(c.runUntil cfg target).1, heard, ?_, ?_, fun first rest hnodup hnew => ?_⟩
  · rw [hsupplied.runUntil_now, Nat.max_eq_right hle]
    exact hsupplied.runUntil_due cfg target
  · intro id hid
    have hcallers : id ∉ callers (c.agenda target) := by
      simp [callers_unprompted (agenda_unprompted c target)]
    exact (run_silent cfg (hnone id hid) hcallers).1
  · have hall := htogether (first :: rest) hnodup fun id hid => hnone id (hnew id hid)
    obtain ⟨htarget, hfinal, -⟩ := hall first (.head _)
    refine ⟨_, _, ?_, hrun first rest, ?_, ?_⟩
    · exact fun n hn => reported_of_mem_attachAll hn
    · rw [await, htarget, hfinal]
    · intro id hid
      have hopening : reports (s.opening key first) id = [] := by
        unfold opening
        split <;> rfl
      rw [await, htarget, List.append_assoc, reports_append, hopening, List.nil_append]
      exact (hall id hid).2.2

end Wait

end BearerAccess.Cache
