import BearerAccess.Cache.Basic
/-!
The events of a cache's life. A call looks for a fresh value, then for a load to join, and only
then invokes its loader; a load that ends gives up its claim and is heard by all who wait for it.
Every event says what it brought about.
-/
set_option autoImplicit false

namespace BearerAccess.Cache

inductive Report (ν ε : Type) where
  | value (v : ν)
  | failure (e : CacheError ε)
  | callerPanic
  deriving DecidableEq, Repr

def Report.ofOutcome {ν ε : Type} : Outcome ν ε → Report ν ε
  | .ok v => .value v
  | .error e => .failure e

inductive Event (κ ν ε ι : Type) where
  | call (id : ι) (key : κ) (loader : Loader ν ε)
  | cancel (id : ι)
  | finish (load : Nat)
  | pass (target : Nat)

/-- What an event brings about, with the instant. A loader that breaks down is invoked without a
load. -/
inductive Notice (κ ν ε ι : Type) where
  | invoked (call : ι) (key : κ) (load? : Option Nat) (now : Nat)
  | ended (load : Nat) (key : κ) (outcome : Outcome ν ε) (now : Nat)
  | reported (call : ι) (report : Report ν ε) (now : Nat)

variable {κ ν ε ι : Type} [DecidableEq κ] [DecidableEq ι]

def setSlot (s : Cache κ ν ε ι) (key : κ) (slot : Slot ν) : Cache κ ν ε ι :=
  { s with slots := fun k => if k = key then slot else s.slots k }

/-- A call meets a load: it is answered with a value that may still be served, or waits. -/
def attach (s : Cache κ ν ε ι) (call : ι) (load : Nat) :
    Option ν → Cache κ ν ε ι × List (Notice κ ν ε ι)
  | some v => (s, [.reported call (.value v) s.now])
  | none => ({ s with waiting := s.waiting ++ [⟨call, load⟩] }, [])

def start (s : Cache κ ν ε ι) (key : κ) (due : Nat) (outcome : Outcome ν ε) : Cache κ ν ε ι :=
  let s' := s.setSlot key { s.slots key with inFlight? := some s.nextLoad }
  { s' with running := s.running ++ [⟨s.nextLoad, key, due, outcome⟩], nextLoad := s.nextLoad + 1 }

def call (cfg : Settings) (s : Cache κ ν ε ι) (id : ι) (key : κ) (loader : Loader ν ε) :
    Cache κ ν ε ι × List (Notice κ ν ε ι) :=
  let slot := s.slots key
  match slot.fresh? s.now with
  | some v => (s, [.reported id (.value v) s.now])
  | none =>
    match slot.inFlight? with
    | some load => s.attach id load (slot.stale? cfg s.now)
    | none =>
      match loader.plan? cfg s.now with
      | none => (s, [.invoked id key none s.now, .reported id .callerPanic s.now])
      | some (due, outcome) =>
        let (s', notices) := (s.start key due outcome).attach id s.nextLoad (slot.stale? cfg s.now)
        (s', .invoked id key (some s.nextLoad) s.now :: notices)

/-- The slot after a load has ended: the claim is given up, and only a value changes the entry. -/
def Slot.complete (cfg : Settings) (now : Nat) (slot : Slot ν) : Outcome ν ε → Slot ν
  | .ok v => ⟨some ⟨v, deadline now cfg.ttl⟩, none⟩
  | .error _ => ⟨slot.stored?, none⟩

def finish (cfg : Settings) (s : Cache κ ν ε ι) (id : Nat) :
    Cache κ ν ε ι × List (Notice κ ν ε ι) :=
  match s.running.find? fun l => l.id = id ∧ l.due ≤ s.now with
  | none => (s, [])
  | some l =>
    let s' := s.setSlot l.key ((s.slots l.key).complete cfg s.now l.outcome)
    let heard := s.waiting.filter fun w => w.load = id
    ({ s' with
        running := s.running.filter fun l => l.id ≠ id
        waiting := s.waiting.filter fun w => w.load ≠ id },
      .ended id l.key l.outcome s.now ::
        heard.map fun w => .reported w.call (.ofOutcome l.outcome) s.now)

def firstDue (s : Cache κ ν ε ι) (target : Nat) : Nat :=
  s.running.foldl (fun t l => min t l.due) target

/-- One event. Time never passes a load that is due, and never goes back. -/
def step (cfg : Settings) (s : Cache κ ν ε ι) :
    Event κ ν ε ι → Cache κ ν ε ι × List (Notice κ ν ε ι)
  | .call id key loader => s.call cfg id key loader
  | .cancel id => ({ s with waiting := s.waiting.filter fun w => w.call ≠ id }, [])
  | .finish load => s.finish cfg load
  | .pass target => ({ s with now := max s.now (s.firstDue target) }, [])

def run (cfg : Settings) (s : Cache κ ν ε ι) :
    List (Event κ ν ε ι) → Cache κ ν ε ι × List (Notice κ ν ε ι)
  | [] => (s, [])
  | e :: es =>
    let (s', notices) := s.step cfg e
    let (s'', more) := s'.run cfg es
    (s'', notices ++ more)

end BearerAccess.Cache
