import BearerAccess.Proofs.Cache.History
/-!
All that one event can do to a cache. A call hits a fresh entry, joins the load that holds the
claim, breaks down with its loader, or launches a load; the end of a load lands it if it is due.
-/
set_option autoImplicit false

namespace BearerAccess.Cache

variable {κ ν ε ι : Type}

def loadsOf [DecidableEq κ] (s : Cache κ ν ε ι) (key : κ) : List Nat :=
  (s.running.filter fun l => l.key = key).map (·.id)

def waitersOf [DecidableEq ι] (s : Cache κ ν ε ι) (call : ι) : List (Waiter ι) :=
  s.waiting.filter fun w => w.call = call

def land [DecidableEq κ] (cfg : Settings) (s : Cache κ ν ε ι) (l : Load κ ν ε) : Cache κ ν ε ι :=
  { s.setSlot l.key ((s.slots l.key).complete cfg s.now l.outcome) with
    running := s.running.filter fun r => r.id ≠ l.id
    waiting := s.waiting.filter fun w => w.load ≠ l.id }

theorem land_slots [DecidableEq κ] (cfg : Settings) (s : Cache κ ν ε ι) (l : Load κ ν ε)
    (key : κ) : (s.land cfg l).slots key =
      if key = l.key then (s.slots l.key).complete cfg s.now l.outcome else s.slots key := rfl

def announce (s : Cache κ ν ε ι) (l : Load κ ν ε) : List (Notice κ ν ε ι) :=
  (s.waiting.filter fun w => w.load = l.id).map fun w =>
    .reported w.call (.ofOutcome l.outcome) s.now

section Attach

variable (s : Cache κ ν ε ι) (call : ι) (load : Nat) (stale? : Option ν)

@[simp] theorem attach_now : (s.attach call load stale?).1.now = s.now := by cases stale? <;> rfl

@[simp] theorem attach_slots : (s.attach call load stale?).1.slots = s.slots := by
  cases stale? <;> rfl

@[simp] theorem attach_running : (s.attach call load stale?).1.running = s.running := by
  cases stale? <;> rfl

@[simp] theorem attach_nextLoad : (s.attach call load stale?).1.nextLoad = s.nextLoad := by
  cases stale? <;> rfl

end Attach

section Start

variable [DecidableEq κ] (s : Cache κ ν ε ι) (key : κ) (due : Nat) (outcome : Outcome ν ε)

@[simp] theorem start_now : (s.start key due outcome).now = s.now := rfl

@[simp] theorem start_waiting : (s.start key due outcome).waiting = s.waiting := rfl

@[simp] theorem start_nextLoad : (s.start key due outcome).nextLoad = s.nextLoad + 1 := rfl

@[simp] theorem start_running :
    (s.start key due outcome).running = s.running ++ [⟨s.nextLoad, key, due, outcome⟩] := rfl

theorem start_slots (k : κ) : (s.start key due outcome).slots k =
    if k = key then { s.slots key with inFlight? := some s.nextLoad } else s.slots k := rfl

end Start

variable [DecidableEq κ] [DecidableEq ι]

inductive Move (cfg : Settings) (s : Cache κ ν ε ι) :
    Event κ ν ε ι → Cache κ ν ε ι × List (Notice κ ν ε ι) → Prop where
  | hit (id : ι) (key : κ) (loader : Loader ν ε) (v : ν) :
      (s.slots key).fresh? s.now = some v →
      Move cfg s (.call id key loader) (s, [.reported id (.value v) s.now])
  | join (id : ι) (key : κ) (loader : Loader ν ε) (load : Nat) :
      (s.slots key).fresh? s.now = none → (s.slots key).inFlight? = some load →
      Move cfg s (.call id key loader) (s.attach id load ((s.slots key).stale? cfg s.now))
  | crash (id : ι) (key : κ) :
      (s.slots key).fresh? s.now = none → (s.slots key).inFlight? = none →
      Move cfg s (.call id key .crash)
        (s, [.invoked id key none s.now, .reported id .callerPanic s.now])
  | launch (id : ι) (key : κ) (loader : Loader ν ε) (due : Nat) (outcome : Outcome ν ε) :
      (s.slots key).fresh? s.now = none → (s.slots key).inFlight? = none →
      loader.plan? cfg s.now = some (due, outcome) →
      Move cfg s (.call id key loader)
        (((s.start key due outcome).attach id s.nextLoad ((s.slots key).stale? cfg s.now)).1,
          .invoked id key (some s.nextLoad) s.now ::
            ((s.start key due outcome).attach id s.nextLoad ((s.slots key).stale? cfg s.now)).2)
  | cancel (id : ι) :
      Move cfg s (.cancel id) ({ s with waiting := s.waiting.filter fun w => w.call ≠ id }, [])
  | idle (load : Nat) : (∀ l ∈ s.running, l.id = load → s.now < l.due) →
      Move cfg s (.finish load) (s, [])
  | land (l : Load κ ν ε) : l ∈ s.running → l.due ≤ s.now →
      Move cfg s (.finish l.id)
        (s.land cfg l, .ended l.id l.key l.outcome s.now :: s.announce l)
  | pass (target : Nat) :
      Move cfg s (.pass target) ({ s with now := max s.now (s.firstDue target) }, [])

omit [DecidableEq κ] [DecidableEq ι] in
theorem Loader.eq_crash_of_plan? {cfg : Settings} {now : Nat} {loader : Loader ν ε}
    (h : loader.plan? cfg now = none) : loader = .crash := by
  cases loader with
  | crash => rfl
  | hanging => simp [Loader.plan?] at h
  | finishing delay ending =>
    simp only [Loader.plan?] at h
    split at h <;> split at h <;> cases h

theorem call_move (cfg : Settings) (s : Cache κ ν ε ι) (id : ι) (key : κ) (loader : Loader ν ε) :
    Move cfg s (.call id key loader) (s.call cfg id key loader) := by
  cases hf : (s.slots key).fresh? s.now with
  | some v =>
    have h : s.call cfg id key loader = (s, [.reported id (.value v) s.now]) := by
      simp [Cache.call, hf]
    exact h ▸ .hit id key loader v hf
  | none =>
    cases hl : (s.slots key).inFlight? with
    | some load =>
      have h : s.call cfg id key loader = s.attach id load ((s.slots key).stale? cfg s.now) := by
        simp [Cache.call, hf, hl]
      exact h ▸ .join id key loader load hf hl
    | none =>
      cases hp : loader.plan? cfg s.now with
      | none =>
        obtain rfl := Loader.eq_crash_of_plan? hp
        have h : s.call cfg id key .crash =
            (s, [.invoked id key none s.now, .reported id .callerPanic s.now]) := by
          simp [Cache.call, hf, hl, hp]
        exact h ▸ .crash id key hf hl
      | some plan =>
        have h : Move cfg s _ _ := .launch id key loader plan.1 plan.2 hf hl hp
        simpa [Cache.call, hf, hl, hp] using h

theorem finish_move (cfg : Settings) (s : Cache κ ν ε ι) (load : Nat) :
    Move cfg s (.finish load) (s.finish cfg load) := by
  cases hf : s.running.find? fun l => l.id = load ∧ l.due ≤ s.now with
  | none =>
    have h : s.finish cfg load = (s, []) := by simp only [finish, hf]
    refine h ▸ .idle load fun l hl he => Nat.lt_of_not_le fun hd => ?_
    exact List.find?_eq_none.1 hf l hl (by simp [he, hd])
  | some l =>
    obtain ⟨rfl, hd⟩ : l.id = load ∧ l.due ≤ s.now := by simpa using List.find?_some hf
    have h : s.finish cfg l.id =
        (s.land cfg l, .ended l.id l.key l.outcome s.now :: s.announce l) := by
      simp only [finish, hf, land, announce]
    exact h ▸ .land l (List.mem_of_find?_eq_some hf) hd

theorem step_move (cfg : Settings) (s : Cache κ ν ε ι) (e : Event κ ν ε ι) :
    Move cfg s e (s.step cfg e) := by
  cases e with
  | call id key loader => exact call_move cfg s id key loader
  | cancel id => exact .cancel id
  | finish load => exact finish_move cfg s load
  | pass target => exact .pass target

end BearerAccess.Cache
