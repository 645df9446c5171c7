import BearerAccess.Proofs.Cache.Clock
import BearerAccess.Proofs.Cache.Delivery
import BearerAccess.Proofs.Cache.Demand
/-!
What a cache shows of one key: the slot of the key, the loads of it and who waits for them, with the
loads numbered in the order in which they started. The view takes part in an event of the key as the
cache does, and an event of another key does nothing to it.
-/
set_option autoImplicit false

namespace BearerAccess.Cache

variable {κ ν ε ι : Type}

/-! Loads are numbered by their places among the starts of a key. -/

def Slot.renumber (order : List Nat) (slot : Slot ν) : Slot ν :=
  ⟨slot.stored?, slot.inFlight?.map order.idxOf⟩

def Load.renumber (order : List Nat) (l : Load κ ν ε) : Load κ ν ε :=
  { l with id := order.idxOf l.id }

def Waiter.renumber (order : List Nat) (w : Waiter ι) : Waiter ι :=
  { w with load := order.idxOf w.load }

section Renumber

variable (order : List Nat) (slot : Slot ν)

@[simp] theorem Slot.renumber_inFlight? :
    (slot.renumber order).inFlight? = slot.inFlight?.map order.idxOf := rfl

@[simp] theorem Slot.renumber_fresh? (now : Nat) :
    (slot.renumber order).fresh? now = slot.fresh? now := rfl

@[simp] theorem Slot.renumber_stale? (cfg : Settings) (now : Nat) :
    (slot.renumber order).stale? cfg now = slot.stale? cfg now := rfl

theorem Slot.renumber_complete (cfg : Settings) (now : Nat) (outcome : Outcome ν ε) :
    (slot.renumber order).complete cfg now outcome = (slot.complete cfg now outcome).renumber order
    := by
  cases outcome <;> rfl

end Renumber

theorem eq_of_fields {s t : Cache κ ν ε ι} (hnow : s.now = t.now)
    (hslots : ∀ k, s.slots k = t.slots k) (hrunning : s.running = t.running)
    (hwaiting : s.waiting = t.waiting) (hnext : s.nextLoad = t.nextLoad) : s = t := by
  obtain ⟨now, slots, running, waiting, next⟩ := s
  obtain ⟨now', slots', running', waiting', next'⟩ := t
  obtain rfl : slots = slots' := funext hslots
  cases hnow
  cases hrunning
  cases hwaiting
  cases hnext
  rfl

variable [DecidableEq κ]

/-- What a cache shows of one key, with the loads of the key in the order in which they start. -/
def view (s : Cache κ ν ε ι) (key : κ) (order : List Nat) : Cache κ ν ε ι where
  now := s.now
  slots k := if k = key then (s.slots key).renumber order else .empty
  running := (s.running.filter fun l => l.key = key).map (Load.renumber order)
  waiting := (s.waiting.filter fun w => w.load ∈ s.loadsOf key).map (Waiter.renumber order)
  nextLoad := order.length

variable {s : Cache κ ν ε ι} {key : κ} {order : List Nat}

@[simp] theorem view_now : (s.view key order).now = s.now := rfl

@[simp] theorem view_nextLoad : (s.view key order).nextLoad = order.length := rfl

@[simp] theorem view_slot : (s.view key order).slots key = (s.slots key).renumber order := by
  simp [view]

theorem view_empty : (Cache.empty : Cache κ ν ε ι).view key [] = Cache.empty :=
  eq_of_fields rfl (fun _ => ite_self _) rfl rfl rfl

theorem mem_view_running {l : Load κ ν ε} : l ∈ (s.view key order).running ↔
    ∃ r ∈ s.running, r.key = key ∧ r.renumber order = l := by
  simp [view, and_assoc]

@[simp] theorem loadsOf_waiting (ws : List (Waiter ι)) :
    ({ s with waiting := ws } : Cache κ ν ε ι).loadsOf key = s.loadsOf key := rfl

@[simp] theorem loadsOf_attach (call : ι) (load : Nat) (stale? : Option ν) :
    (s.attach call load stale?).1.loadsOf key = s.loadsOf key := by
  simp [loadsOf]

theorem view_attach {load : Nat} (hl : load ∈ s.loadsOf key) (call : ι) (stale? : Option ν) :
    (s.attach call load stale?).1.view key order =
      ((s.view key order).attach call (order.idxOf load) stale?).1 := by
  unfold view
  rw [loadsOf_attach]
  cases stale? with
  | some v => rfl
  | none => simp [attach, hl, Waiter.renumber]

theorem view_attach_other {load : Nat} (hl : load ∉ s.loadsOf key) (call : ι)
    (stale? : Option ν) : (s.attach call load stale?).1.view key order = s.view key order := by
  unfold view
  rw [loadsOf_attach]
  cases stale? with
  | some v => rfl
  | none => simp [attach, hl]

theorem view_start_other {k : κ} (hk : k ≠ key) (due : Nat) (outcome : Outcome ν ε) :
    (s.start k due outcome).view key order = s.view key order := by
  unfold view
  rw [loadsOf_start, if_neg hk]
  simp [start_slots, hk, Ne.symm hk]

theorem idxOf_next {n : Nat} (h : n ∉ order) : (order ++ [n]).idxOf n = order.length := by
  rw [List.idxOf_append_of_notMem h]
  simp

theorem view_start (hs : Sound s) (hmem : ∀ load ∈ s.loadsOf key, load ∈ order)
    (hnew : s.nextLoad ∉ order) (due : Nat) (outcome : Outcome ν ε) :
    (s.start key due outcome).view key (order ++ [s.nextLoad]) =
      (s.view key order).start key due outcome := by
  have hidx := idxOf_next hnew
  have hold (load : Nat) (hl : load ∈ s.loadsOf key) :
      (order ++ [s.nextLoad]).idxOf load = order.idxOf load :=
    List.idxOf_append_of_mem (hmem load hl)
  refine eq_of_fields rfl ?_ ?_ ?_ ?_
  · intro k
    by_cases hk : k = key <;> simp [view, start_slots, Slot.renumber, hidx, hk]
  · have hkeep : ∀ l ∈ s.running.filter fun l => l.key = key,
        l.renumber (order ++ [s.nextLoad]) = l.renumber order := by
      intro l hl
      obtain ⟨hl, hk⟩ := List.mem_filter.1 hl
      have hmem := mem_loadsOf.2 ⟨l, hl, of_decide_eq_true hk, rfl⟩
      rw [Load.renumber, hold l.id hmem, Load.renumber]
    simp [view, Load.renumber, hidx, List.map_congr_left hkeep]
  · -- no one waits yet for the load that starts
    have hloads : ∀ w ∈ s.waiting,
        (w.load ∈ (s.start key due outcome).loadsOf key ↔ w.load ∈ s.loadsOf key) := by
      intro w hw
      obtain ⟨l, hl, hid⟩ := hs.attached w hw
      have hne : w.load ≠ s.nextLoad := hid ▸ Nat.ne_of_lt (hs.numbered l hl)
      simp [loadsOf_start, hne]
    have hkeep : ∀ w ∈ s.waiting.filter fun w => w.load ∈ s.loadsOf key,
        w.renumber (order ++ [s.nextLoad]) = w.renumber order := by
      intro w hw
      have hmem := of_decide_eq_true (List.mem_filter.1 hw).2
      rw [Waiter.renumber, hold w.load hmem, Waiter.renumber]
    simp only [view, start_waiting]
    rw [List.filter_congr fun w hw => decide_eq_decide.2 (hloads w hw), List.map_congr_left hkeep]
  · simp

theorem view_land (cfg : Settings) (hmem : ∀ load ∈ s.loadsOf key, load ∈ order)
    {l : Load κ ν ε} (hk : l.key = key) :
    (s.land cfg l).view key order = (s.view key order).land cfg (l.renumber order) := by
  have hid (load : Nat) (hload : load ∈ s.loadsOf key) :
      order.idxOf load = order.idxOf l.id ↔ load = l.id := List.idxOf_inj (hmem load hload)
  refine eq_of_fields rfl ?_ ?_ ?_ rfl
  · intro k
    by_cases hk' : k = key
    · subst hk'
      simp [view, land_slots, hk, Load.renumber, Slot.renumber_complete]
    · simp [view, land_slots, hk, hk', Load.renumber]
  · simp only [view, Cache.land, List.filter_map, List.filter_filter]
    congr 1
    refine List.filter_congr fun r hr => ?_
    by_cases hr' : r.key = key
    · have hsame := hid r.id (mem_loadsOf.2 ⟨r, hr, hr', rfl⟩)
      simp [hr', Load.renumber, hsame]
    · simp [hr']
  · simp only [view, loadsOf_land]
    simp only [Cache.land, List.filter_map, List.filter_filter]
    congr 1
    refine List.filter_congr fun w hw => ?_
    by_cases hw' : w.load ∈ s.loadsOf key
    · have hsame := hid w.load hw'
      simp [hw', Waiter.renumber, Load.renumber, hsame]
    · simp [hw']

theorem view_land_other (cfg : Settings) (hs : Sound s) {l : Load κ ν ε} (hl : l ∈ s.running)
    (hk : l.key ≠ key) : (s.land cfg l).view key order = s.view key order := by
  have hloads : (s.land cfg l).loadsOf key = s.loadsOf key := by
    rw [loadsOf_land, hs.filter_loadsOf hl (Ne.symm hk)]
  refine eq_of_fields rfl ?_ ?_ ?_ rfl
  · intro k
    simp [view, land_slots, Ne.symm hk]
  · simp only [view, Cache.land, List.filter_filter]
    congr 1
    refine List.filter_congr fun r hr => ?_
    by_cases hr' : r.key = key
    · have hne := hs.ne_of_mem_loadsOf hl (Ne.symm hk) (mem_loadsOf.2 ⟨r, hr, hr', rfl⟩)
      simp [hr', hne]
    · simp [hr']
  · simp only [view, hloads]
    simp only [Cache.land, List.filter_filter]
    congr 1
    refine List.filter_congr fun w _ => ?_
    by_cases hw' : w.load ∈ s.loadsOf key
    · have hne := hs.ne_of_mem_loadsOf hl (Ne.symm hk) hw'
      simp [hw', hne]
    · simp [hw']

@[simp] theorem starts_attach (s : Cache κ ν ε ι) (call : ι) (load : Nat) (stale? : Option ν) :
    starts (s.attach call load stale?).2 key = [] := by
  cases stale? <;> rfl

@[simp] theorem starts_announce (s : Cache κ ν ε ι) (l : Load κ ν ε) :
    starts (s.announce l) key = [] := by
  simp [starts, announce, Notice.startOf?]

omit [DecidableEq κ] in
theorem attach_notices {s t : Cache κ ν ε ι} (h : s.now = t.now) (call : ι) (load other : Nat)
    (stale? : Option ν) : (s.attach call load stale?).2 = (t.attach call other stale?).2 := by
  cases stale? with
  | none => rfl
  | some v => simp [attach, h]

theorem view_announce (hmem : ∀ load ∈ s.loadsOf key, load ∈ order) {l : Load κ ν ε}
    (hl : l ∈ s.running) (hk : l.key = key) :
    (s.view key order).announce (l.renumber order) = s.announce l := by
  have hload : l.id ∈ s.loadsOf key := mem_loadsOf.2 ⟨l, hl, hk, rfl⟩
  have hheard : ∀ w ∈ s.waiting, decide (w.load = l.id) =
      (decide (order.idxOf w.load = order.idxOf l.id) && decide (w.load ∈ s.loadsOf key)) := by
    intro w _
    by_cases hw : w.load ∈ s.loadsOf key
    · simp [hw, List.idxOf_inj (hmem _ hw)]
    · have hne : w.load ≠ l.id := fun he => hw (he ▸ hload)
      simp [hw, hne]
  simp only [announce, List.filter_congr hheard]
  simp only [view, List.filter_map, List.filter_filter, List.map_map, Function.comp_def]
  rfl

variable [DecidableEq ι] {cfg : Settings}

/-- One result is what another shows of a key, and is told the same of it: the loaders invoked, and
the reports to the calls that count. -/
structure Shown (key : κ) (order : List Nat) (counts : ι → Prop)
    (whole part : Cache κ ν ε ι × List (Notice κ ν ε ι)) : Prop where
  state : part.1 = whole.1.view key (order ++ starts whole.2 key)
  invoked : invocations part.2 key = invocations whole.2 key
  told : ∀ id, counts id → reports part.2 id = reports whole.2 id

theorem Shown.append {counts : ι → Prop}
    {whole part step step' : Cache κ ν ε ι × List (Notice κ ν ε ι)}
    (h : Shown key [] counts whole part)
    (hstep : Shown key (starts whole.2 key) counts step step') :
    Shown key [] counts (step.1, whole.2 ++ step.2) (step'.1, part.2 ++ step'.2) := by
  refine ⟨?_, ?_, ?_⟩
  · simpa using hstep.state
  · simp [h.invoked, hstep.invoked]
  · intro id hid
    simp [h.told id hid, hstep.told id hid]

theorem call_shown (hs : Sound s) (hmem : ∀ load ∈ s.loadsOf key, load ∈ order)
    (hnew : s.nextLoad ∉ order) (id : ι) (loader : Loader ν ε) (counts : ι → Prop) :
    Shown key order counts (s.step cfg (.call id key loader))
      ((s.view key order).step cfg (.call id key loader)) := by
  have m := step_move cfg s (.call id key loader)
  generalize s.step cfg (.call id key loader) = r at m ⊢
  cases m with
  | hit _ _ _ v hf =>
    have h : (s.view key order).step cfg (.call id key loader) =
        (s.view key order, [.reported id (.value v) s.now]) := by
      simp [step, Cache.call, hf]
    rw [h]
    exact ⟨by simp [Notice.startOf?], rfl, fun _ _ => rfl⟩
  | join _ _ _ load hf hc =>
    have hload : load ∈ s.loadsOf key := by
      rw [← hs.claimed key, hc]
      simp
    have h : (s.view key order).step cfg (.call id key loader) =
        (s.view key order).attach id (order.idxOf load) ((s.slots key).stale? cfg s.now) := by
      simp [step, Cache.call, hf, hc]
    have hsame := attach_notices (s := s.view key order) (t := s) rfl id (order.idxOf load) load
      ((s.slots key).stale? cfg s.now)
    rw [h]
    exact ⟨by simp [view_attach hload], by rw [hsame], fun _ _ => by rw [hsame]⟩
  | crash _ _ hf hn =>
    have h : (s.view key order).step cfg (.call id key .crash) =
        (s.view key order, [.invoked id key none s.now, .reported id .callerPanic s.now]) := by
      simp [step, Cache.call, hf, hn, Loader.plan?]
    rw [h]
    exact ⟨by simp [Notice.startOf?], rfl, fun _ _ => rfl⟩
  | launch _ _ _ due outcome hf hn hp =>
    have hstarted : s.nextLoad ∈ (s.start key due outcome).loadsOf key := by simp [loadsOf_start]
    have h : (s.view key order).step cfg (.call id key loader) =
        ((((s.view key order).start key due outcome).attach id order.length
            ((s.slots key).stale? cfg s.now)).1,
          .invoked id key (some order.length) s.now ::
            (((s.view key order).start key due outcome).attach id order.length
              ((s.slots key).stale? cfg s.now)).2) := by
      simp [step, Cache.call, hf, hn, hp]
    have hstate : (((s.view key order).start key due outcome).attach id order.length
        ((s.slots key).stale? cfg s.now)).1 =
        ((s.start key due outcome).attach id s.nextLoad ((s.slots key).stale? cfg s.now)).1.view key
          (order ++ [s.nextLoad]) := by
      rw [view_attach hstarted, view_start hs hmem hnew, idxOf_next hnew]
    have hsame := attach_notices (s := (s.view key order).start key due outcome)
      (t := s.start key due outcome) rfl id order.length s.nextLoad
      ((s.slots key).stale? cfg s.now)
    rw [h, hstate, hsame]
    refine ⟨by simp [Notice.startOf?], ?_, ?_⟩
    · simp [Notice.invocationOf?]
    · intro _ _
      simp [Notice.reportOf?]

theorem call_hidden (hs : Sound s) {id : ι} {k : κ} (hk : k ≠ key) (loader : Loader ν ε)
    (order : List Nat) {counts : ι → Prop} (hid : ∀ c, counts c → c ≠ id) :
    Shown key order counts (s.step cfg (.call id k loader)) (s.view key order, []) := by
  have hinvoked := (step_move cfg s (.call id k loader)).invocations_eq key
  have m := step_move cfg s (.call id k loader)
  generalize s.step cfg (.call id k loader) = r at m hinvoked ⊢
  refine ⟨?_, ?_, ?_⟩
  · cases m with
    | hit | crash => simp [Notice.startOf?, hk]
    | join _ _ _ load _ hc =>
      obtain ⟨l, hl, hlk, rfl⟩ := hs.exists_claimant hc
      have hother : l.id ∉ s.loadsOf key := fun hm =>
        hs.ne_of_mem_loadsOf hl (by rw [hlk]; exact hk.symm) hm rfl
      simp [view_attach_other hother]
    | launch _ _ _ due outcome _ _ _ =>
      have hother : s.nextLoad ∉ (s.start k due outcome).loadsOf key := by
        rw [loadsOf_start, if_neg hk, List.append_nil]
        intro hm
        obtain ⟨l, hl, -, hid⟩ := mem_loadsOf.1 hm
        exact Nat.ne_of_lt (hs.numbered l hl) hid
      simp [view_attach_other hother, view_start_other hk, Notice.startOf?, hk]
  · rw [hinvoked, demand?, if_neg (by simp [hk])]
    rfl
  · intro c hc
    have hne : id ≠ c := fun he => hid c hc he.symm
    cases m with
    | hit | crash => simp [Notice.reportOf?, hne]
    | join => simp [reports_attach_ne _ _ _ hne]
    | launch => simp [reports_attach_ne _ _ _ hne, Notice.reportOf?]

theorem cancel_shown (order : List Nat) (id : ι) (counts : ι → Prop) :
    Shown key order counts (s.step cfg (.cancel id))
      ((s.view key order).step cfg (.cancel id)) := by
  refine ⟨?_, rfl, fun _ _ => rfl⟩
  simp only [step, starts_nil, List.append_nil]
  refine eq_of_fields rfl (fun _ => rfl) rfl ?_ rfl
  simp only [view, List.filter_map, List.filter_filter]
  congr 1
  exact List.filter_congr fun w _ => Bool.and_comm _ _

theorem cancel_hidden (order : List Nat) {id : ι}
    (h : ∀ w ∈ s.waiting, w.load ∈ s.loadsOf key → w.call ≠ id) (counts : ι → Prop) :
    Shown key order counts (s.step cfg (.cancel id)) (s.view key order, []) := by
  refine ⟨?_, rfl, fun _ _ => rfl⟩
  simp only [step, starts_nil, List.append_nil]
  refine eq_of_fields rfl (fun _ => rfl) rfl ?_ rfl
  simp only [view, List.filter_filter]
  congr 1
  refine List.filter_congr fun w hw => ?_
  by_cases hload : w.load ∈ s.loadsOf key
  · have hne := h w hw hload
    simp [hload, hne]
  · simp [hload]

theorem finish_due (cfg : Settings) {l : Load κ ν ε} (hl : l ∈ s.running)
    (hself : ∀ r ∈ s.running, r.id = l.id → r = l)
    (hdue : l.due ≤ s.now) : s.step cfg (.finish l.id) =
      (s.land cfg l, .ended l.id l.key l.outcome s.now :: s.announce l) := by
  generalize hid : l.id = load
  have m := step_move cfg s (.finish load)
  generalize s.step cfg (.finish load) = r at m ⊢
  cases m with
  | idle _ hnone => exact absurd (hnone l hl hid) (Nat.not_lt.2 hdue)
  | land r hr _ =>
    obtain rfl := hself r hr hid.symm
    rfl

theorem finish_early (cfg : Settings) {l : Load κ ν ε}
    (hself : ∀ r ∈ s.running, r.id = l.id → r = l)
    (hdue : s.now < l.due) : s.step cfg (.finish l.id) = (s, []) := by
  generalize hid : l.id = load
  have m := step_move cfg s (.finish load)
  generalize s.step cfg (.finish load) = r at m ⊢
  cases m with
  | idle => rfl
  | land r hr hle =>
    obtain rfl := hself r hr hid.symm
    exact absurd hle (Nat.not_le.2 hdue)

theorem finish_shown (hs : Sound s) (hmem : ∀ load ∈ s.loadsOf key, load ∈ order) {load : Nat}
    (hl : load ∈ s.loadsOf key) (counts : ι → Prop) :
    Shown key order counts (s.step cfg (.finish load))
      ((s.view key order).step cfg (.finish (order.idxOf load))) := by
  obtain ⟨l, hrunning, hk, rfl⟩ := mem_loadsOf.1 hl
  have hself (r : Load κ ν ε) (hr : r ∈ s.running) (hid : r.id = l.id) : r = l :=
    hs.distinct r hr l hrunning hid
  have hview : l.renumber order ∈ (s.view key order).running :=
    mem_view_running.2 ⟨l, hrunning, hk, rfl⟩
  have hviewself : ∀ r ∈ (s.view key order).running, r.id = (l.renumber order).id →
      r = l.renumber order := by
    intro r hr hid
    obtain ⟨d, hd, hdk, rfl⟩ := mem_view_running.1 hr
    have hmd := hmem d.id (mem_loadsOf.2 ⟨d, hd, hdk, rfl⟩)
    rw [hself d hd ((List.idxOf_inj hmd).1 hid)]
  by_cases hdue : l.due ≤ s.now
  · have h := finish_due cfg hview hviewself hdue
    change step cfg _ (.finish (order.idxOf l.id)) = _ at h
    rw [h, finish_due cfg hrunning hself hdue, view_announce hmem hrunning hk,
      ← view_land cfg hmem hk]
    refine ⟨?_, ?_, ?_⟩
    · simp [Notice.startOf?]
    · simp [Notice.invocationOf?]
    · intro id _
      simp [Load.renumber, Notice.reportOf?]
  · have h := finish_early cfg hviewself (Nat.lt_of_not_le hdue)
    change step cfg _ (.finish (order.idxOf l.id)) = _ at h
    rw [h, finish_early cfg hself (Nat.lt_of_not_le hdue)]
    exact ⟨by simp, rfl, fun _ _ => rfl⟩

theorem finish_hidden (hs : Sound s) (order : List Nat) {load : Nat} (hl : load ∉ s.loadsOf key)
    {counts : ι → Prop} (hc : ∀ w ∈ s.waiting, w.load = load → ¬counts w.call) :
    Shown key order counts (s.step cfg (.finish load)) (s.view key order, []) := by
  have m := step_move cfg s (.finish load)
  generalize s.step cfg (.finish load) = r at m ⊢
  cases m with
  | idle => exact ⟨by simp, rfl, fun _ _ => rfl⟩
  | land l hrunning _ =>
    have hk : l.key ≠ key := fun hk => hl (mem_loadsOf.2 ⟨l, hrunning, hk, rfl⟩)
    refine ⟨?_, ?_, ?_⟩
    · simp [Notice.startOf?, view_land_other cfg hs hrunning hk]
    · simp [Notice.invocationOf?]
    · intro id hid
      have hnone : (s.waitersOf id).filter (fun w => w.load = l.id) = [] := by
        refine List.filter_eq_nil_iff.2 fun w hw hload => ?_
        obtain ⟨hw, hcall⟩ := List.mem_filter.1 hw
        exact hc w hw (of_decide_eq_true hload) (of_decide_eq_true hcall ▸ hid)
      simp [Notice.reportOf?, reports_announce, hnone]

theorem pass_shown (order : List Nat) (target : Nat) (counts : ι → Prop) :
    Shown key order counts (s.step cfg (.pass target))
      ((s.view key order).step cfg (.pass (max s.now (s.firstDue target)))) := by
  refine ⟨?_, rfl, fun _ _ => rfl⟩
  -- no load of the view is due before the first load of the cache is
  have hreach : max s.now ((s.view key order).firstDue (max s.now (s.firstDue target))) =
      max s.now (s.firstDue target) := by
    have hle : (s.view key order).firstDue (max s.now (s.firstDue target)) ≤
        max s.now (s.firstDue target) := (le_firstDue.1 (Nat.le_refl _)).1
    have hge : s.firstDue target ≤
        (s.view key order).firstDue (max s.now (s.firstDue target)) := by
      refine le_firstDue.2 ⟨Nat.le_max_right _ _, fun l hl => ?_⟩
      obtain ⟨r, hr, -, rfl⟩ := mem_view_running.1 hl
      exact (le_firstDue.1 (Nat.le_refl _)).2 r hr
    omega
  simp only [step, starts_nil, List.append_nil, view_now, hreach]
  rfl

end BearerAccess.Cache
