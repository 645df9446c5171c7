import BearerAccess.Cache.Policy
import BearerAccess.Number.Duration
/-!
What a cache is made of. Each key has a slot with the value loaded last and a claim by the load
that is under way; a call that cannot be answered at once waits for that load. Instants and spans
are counted in nanoseconds.
-/
set_option autoImplicit false

namespace BearerAccess

inductive CacheError (ε : Type) where
  | load (error : ε)
  | timeout (after : Nat)
  | aborted (reason : String)
  deriving DecidableEq, Repr

def CacheError.message {ε : Type} (text : ε → String) : CacheError ε → String
  | .load e => "load failed: " ++ text e
  | .timeout after => "load timed out after " ++ Duration.text after
  | .aborted reason => "load aborted: " ++ reason

namespace Cache

structure Settings where
  ttl : Nat
  loadTimeout : Nat
  policy : RefreshPolicy
  deriving DecidableEq, Repr

def defaultLoadTimeout : Nat := Duration.seconds 10

/-- The last instant that can be represented, some 300 billion years away. -/
def horizon : Nat := Duration.seconds maxSigned

/-- Thirty years, which stand for a span that leads beyond the horizon. -/
def farFuture : Nat := Duration.seconds (86400 * 365 * 30)

def deadline (start span : Nat) : Nat :=
  if start + span ≤ horizon then start + span
  else if start + farFuture ≤ horizon then start + farFuture
  else start

theorem deadline_le (start span : Nat) : deadline start span ≤ start + span := by
  have h : farFuture ≤ horizon := by decide
  unfold deadline
  split
  · omega
  · split <;> omega

theorem le_deadline (start span : Nat) : start ≤ deadline start span := by
  unfold deadline
  split
  · omega
  · split <;> omega

inductive Ending (ν ε : Type) where
  | value (v : ν)
  | error (e : ε)
  | panic
  deriving DecidableEq, Repr

/-- What a call's loader does if it is invoked: it breaks down before there is a load, or starts a
load that ends after a while, or one that never ends by itself. -/
inductive Loader (ν ε : Type) where
  | crash
  | finishing (delay : Nat) (ending : Ending ν ε)
  | hanging
  deriving DecidableEq, Repr

abbrev Outcome (ν ε : Type) := Except (CacheError ε) ν

def Ending.outcome {ν ε : Type} : Ending ν ε → Outcome ν ε
  | .value v => .ok v
  | .error e => .error (.load e)
  | .panic => .error (.aborted "loader panicked")

/-- When a load that starts now ends, and with what outcome. Timers fire at whole milliseconds,
and a load that ends just as its time is up has ended in time. -/
def Loader.plan? {ν ε : Type} (cfg : Settings) (now : Nat) : Loader ν ε → Option (Nat × Outcome ν ε)
  | .crash => none
  | .hanging =>
    some (Duration.ceilMillis (deadline now cfg.loadTimeout), .error (.timeout cfg.loadTimeout))
  | .finishing delay ending =>
    let limit := Duration.ceilMillis (deadline now cfg.loadTimeout)
    let due := if delay = 0 then now else Duration.ceilMillis (deadline now delay)
    if due ≤ limit then some (due, ending.outcome)
    else some (limit, .error (.timeout cfg.loadTimeout))

structure Entry (ν : Type) where
  value : ν
  expires : Nat
  deriving DecidableEq, Repr

/-- What is kept for a key: the entry loaded last, and the load that holds the claim. -/
structure Slot (ν : Type) where
  stored? : Option (Entry ν)
  inFlight? : Option Nat
  deriving DecidableEq, Repr

namespace Slot

variable {ν : Type}

def empty : Slot ν := ⟨none, none⟩

def fresh? (slot : Slot ν) (now : Nat) : Option ν :=
  slot.stored?.bind fun e => if now < e.expires then some e.value else none

def stale? (cfg : Settings) (slot : Slot ν) (now : Nat) : Option ν :=
  slot.stored?.bind fun e =>
    if cfg.policy = .staleWhileRevalidate ∧ now < deadline e.expires cfg.loadTimeout then
      some e.value
    else none

end Slot

structure Load (κ ν ε : Type) where
  id : Nat
  key : κ
  due : Nat
  outcome : Outcome ν ε

structure Waiter (ι : Type) where
  call : ι
  load : Nat
  deriving DecidableEq, Repr

end Cache

/-- A cache with keys `κ`, values `ν`, loader errors `ε` and calls named by `ι`. -/
structure Cache (κ ν ε ι : Type) where
  now : Nat
  slots : κ → Cache.Slot ν
  running : List (Cache.Load κ ν ε)
  waiting : List (Cache.Waiter ι)
  nextLoad : Nat

def Cache.empty {κ ν ε ι : Type} : Cache κ ν ε ι := ⟨0, fun _ => .empty, [], [], 0⟩

end BearerAccess
