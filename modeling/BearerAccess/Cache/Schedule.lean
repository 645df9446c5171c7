import BearerAccess.Cache.Step
set_option autoImplicit false

namespace BearerAccess.Cache

variable {κ ν ε ι : Type} [DecidableEq κ] [DecidableEq ι]

def dueBy (s : Cache κ ν ε ι) (target : Nat) : List (Load κ ν ε) :=
  (s.running.filter fun l => l.due ≤ target).mergeSort fun a b => a.due ≤ b.due

def agenda (s : Cache κ ν ε ι) (target : Nat) : List (Event κ ν ε ι) :=
  ((s.dueBy target).flatMap fun l => [.pass l.due, .finish l.id]) ++ [.pass target]

def runUntil (cfg : Settings) (s : Cache κ ν ε ι) (target : Nat) :
    Cache κ ν ε ι × List (Notice κ ν ε ι) :=
  s.run cfg (s.agenda target)

def settle (cfg : Settings) (s : Cache κ ν ε ι) : Cache κ ν ε ι × List (Notice κ ν ε ι) :=
  s.runUntil cfg s.now

def sleep (cfg : Settings) (s : Cache κ ν ε ι) (span : Nat) :
    Cache κ ν ε ι × List (Notice κ ν ε ι) :=
  s.runUntil cfg (Duration.ceilMillis (s.now + span))

def awaited? (s : Cache κ ν ε ι) (id : ι) : Option Nat := do
  let w ← s.waiting.find? fun w => w.call = id
  let l ← s.running.find? fun l => l.id = w.load
  pure l.due

def await (cfg : Settings) (s : Cache κ ν ε ι) (id : ι) :
    Cache κ ν ε ι × List (Notice κ ν ε ι) :=
  s.runUntil cfg ((s.awaited? id).getD s.now)

end BearerAccess.Cache
