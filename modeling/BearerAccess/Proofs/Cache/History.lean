import BearerAccess.Cache.Step
import Mathlib.Data.List.Basic
import Mathlib.Data.List.Induction
/-!
What the notices of a run tell, read without its states: which loads of a key are open, what its
last successful load gave, how a load ended and what a call was told. A run is also cut into its
steps here; whatever holds at the start and is kept by every step holds at the end.
-/
set_option autoImplicit false

namespace BearerAccess.Cache

variable {κ ν ε ι : Type}

namespace Notice

def time : Notice κ ν ε ι → Nat
  | .invoked _ _ _ now => now
  | .ended _ _ _ now => now
  | .reported _ _ now => now

def startOf? [DecidableEq κ] (key : κ) : Notice κ ν ε ι → Option Nat
  | .invoked _ k load? _ => if k = key then load? else none
  | _ => none

def endOf? [DecidableEq κ] (key : κ) : Notice κ ν ε ι → Option Nat
  | .ended load k _ _ => if k = key then some load else none
  | _ => none

def invocationOf? [DecidableEq κ] (key : κ) : Notice κ ν ε ι → Option (ι × Nat)
  | .invoked call k _ now => if k = key then some (call, now) else none
  | _ => none

def valueOf? [DecidableEq κ] (key : κ) : Notice κ ν ε ι → Option (ν × Nat)
  | .ended _ k (.ok v) now => if k = key then some (v, now) else none
  | _ => none

def endingOf? (load : Nat) : Notice κ ν ε ι → Option (κ × Outcome ν ε × Nat)
  | .ended l k outcome now => if l = load then some (k, outcome, now) else none
  | _ => none

def reportOf? [DecidableEq ι] (call : ι) : Notice κ ν ε ι → Option (Report ν ε × Nat)
  | .reported c report now => if c = call then some (report, now) else none
  | _ => none

end Notice

section Log

variable (log : List (Notice κ ν ε ι))

def starts [DecidableEq κ] (key : κ) : List Nat := log.filterMap (Notice.startOf? key)

def ends [DecidableEq κ] (key : κ) : List Nat := log.filterMap (Notice.endOf? key)

def invocations [DecidableEq κ] (key : κ) : List (ι × Nat) :=
  log.filterMap (Notice.invocationOf? key)

def openLoads [DecidableEq κ] (key : κ) : List Nat :=
  (starts log key).filter fun load => load ∉ ends log key

/-- The value of the key's last successful load, and the instant at which that load ended. -/
def latest? [DecidableEq κ] (key : κ) : Option (ν × Nat) :=
  (log.filterMap (Notice.valueOf? key)).getLast?

def endings (load : Nat) : List (κ × Outcome ν ε × Nat) := log.filterMap (Notice.endingOf? load)

def reports [DecidableEq ι] (call : ι) : List (Report ν ε × Nat) :=
  log.filterMap (Notice.reportOf? call)

end Log

section Append

variable (log more : List (Notice κ ν ε ι))

@[simp] theorem starts_nil [DecidableEq κ] (key : κ) :
    starts ([] : List (Notice κ ν ε ι)) key = [] := rfl

@[simp] theorem ends_nil [DecidableEq κ] (key : κ) :
    ends ([] : List (Notice κ ν ε ι)) key = [] := rfl

@[simp] theorem invocations_nil [DecidableEq κ] (key : κ) :
    invocations ([] : List (Notice κ ν ε ι)) key = [] := rfl

@[simp] theorem endings_nil (load : Nat) : endings ([] : List (Notice κ ν ε ι)) load = [] := rfl

@[simp] theorem reports_nil [DecidableEq ι] (call : ι) :
    reports ([] : List (Notice κ ν ε ι)) call = [] := rfl

@[simp] theorem starts_cons [DecidableEq κ] (n : Notice κ ν ε ι) (key : κ) :
    starts (n :: log) key = (n.startOf? key).toList ++ starts log key := by
  cases h : n.startOf? key <;> simp [starts, h]

@[simp] theorem ends_cons [DecidableEq κ] (n : Notice κ ν ε ι) (key : κ) :
    ends (n :: log) key = (n.endOf? key).toList ++ ends log key := by
  cases h : n.endOf? key <;> simp [ends, h]

@[simp] theorem invocations_cons [DecidableEq κ] (n : Notice κ ν ε ι) (key : κ) :
    invocations (n :: log) key = (n.invocationOf? key).toList ++ invocations log key := by
  cases h : n.invocationOf? key <;> simp [invocations, h]

@[simp] theorem endings_cons (n : Notice κ ν ε ι) (load : Nat) :
    endings (n :: log) load = (n.endingOf? load).toList ++ endings log load := by
  cases h : n.endingOf? load <;> simp [endings, h]

@[simp] theorem reports_cons [DecidableEq ι] (n : Notice κ ν ε ι) (call : ι) :
    reports (n :: log) call = (n.reportOf? call).toList ++ reports log call := by
  cases h : n.reportOf? call <;> simp [reports, h]

@[simp] theorem starts_append [DecidableEq κ] (key : κ) :
    starts (log ++ more) key = starts log key ++ starts more key := List.filterMap_append

@[simp] theorem ends_append [DecidableEq κ] (key : κ) :
    ends (log ++ more) key = ends log key ++ ends more key := List.filterMap_append

@[simp] theorem invocations_append [DecidableEq κ] (key : κ) :
    invocations (log ++ more) key = invocations log key ++ invocations more key :=
  List.filterMap_append

@[simp] theorem endings_append (load : Nat) :
    endings (log ++ more) load = endings log load ++ endings more load := List.filterMap_append

@[simp] theorem reports_append [DecidableEq ι] (call : ι) :
    reports (log ++ more) call = reports log call ++ reports more call := List.filterMap_append

theorem latest?_append [DecidableEq κ] (key : κ) :
    latest? (log ++ more) key = (latest? more key).or (latest? log key) := by
  simp [latest?, List.filterMap_append, List.getLast?_append]

end Append

theorem Notice.endOf?_eq_some [DecidableEq κ] {n : Notice κ ν ε ι} {key : κ} {load : Nat} :
    n.endOf? key = some load ↔ ∃ outcome now, n = .ended load key outcome now := by
  cases n <;> simp [endOf?, and_comm]

theorem Notice.invocationOf?_eq_some [DecidableEq κ] {n : Notice κ ν ε ι} {key : κ} {call : ι}
    {now : Nat} :
    n.invocationOf? key = some (call, now) ↔ ∃ load?, n = .invoked call key load? now := by
  cases n <;> simp [invocationOf?, and_left_comm]

theorem Notice.valueOf?_eq_some [DecidableEq κ] {n : Notice κ ν ε ι} {key : κ} {v : ν}
    {now : Nat} : n.valueOf? key = some (v, now) ↔ ∃ load, n = .ended load key (.ok v) now := by
  cases n with
  | ended load k outcome t => cases outcome <;> simp [valueOf?]
  | _ => simp [valueOf?]

theorem Notice.endingOf?_eq_some {n : Notice κ ν ε ι} {load : Nat} {key : κ}
    {outcome : Outcome ν ε} {now : Nat} :
    n.endingOf? load = some (key, outcome, now) ↔ n = .ended load key outcome now := by
  cases n <;> simp [endingOf?]

theorem Notice.reportOf?_eq_some [DecidableEq ι] {n : Notice κ ν ε ι} {call : ι}
    {report : Report ν ε} {now : Nat} :
    n.reportOf? call = some (report, now) ↔ n = .reported call report now := by
  cases n <;> simp [reportOf?]

theorem Notice.startOf?_eq_some [DecidableEq κ] {n : Notice κ ν ε ι} {key : κ} {load : Nat} :
    n.startOf? key = some load ↔ ∃ call now, n = .invoked call key (some load) now := by
  cases n <;> simp [startOf?]

theorem mem_starts [DecidableEq κ] {log : List (Notice κ ν ε ι)} {key : κ} {load : Nat} :
    load ∈ starts log key ↔ ∃ call now, .invoked call key (some load) now ∈ log := by
  simp only [starts, List.mem_filterMap, Notice.startOf?_eq_some]
  constructor
  · rintro ⟨_, hn, call, now, rfl⟩
    exact ⟨call, now, hn⟩
  · rintro ⟨call, now, hn⟩
    exact ⟨_, hn, call, now, rfl⟩

theorem mem_ends [DecidableEq κ] {log : List (Notice κ ν ε ι)} {key : κ} {load : Nat} :
    load ∈ ends log key ↔ ∃ outcome now, .ended load key outcome now ∈ log := by
  simp only [ends, List.mem_filterMap, Notice.endOf?_eq_some]
  constructor
  · rintro ⟨_, hn, outcome, now, rfl⟩
    exact ⟨outcome, now, hn⟩
  · rintro ⟨outcome, now, hn⟩
    exact ⟨_, hn, outcome, now, rfl⟩

theorem mem_endings {log : List (Notice κ ν ε ι)} {load : Nat} {key : κ} {outcome : Outcome ν ε}
    {now : Nat} : (key, outcome, now) ∈ endings log load ↔ .ended load key outcome now ∈ log := by
  simp [endings, Notice.endingOf?_eq_some]

theorem mem_reports [DecidableEq ι] {log : List (Notice κ ν ε ι)} {call : ι} {report : Report ν ε}
    {now : Nat} : (report, now) ∈ reports log call ↔ .reported call report now ∈ log := by
  simp [reports, Notice.reportOf?_eq_some]

theorem mem_invocations [DecidableEq κ] {log : List (Notice κ ν ε ι)} {call : ι} {key : κ}
    {now : Nat} :
    (call, now) ∈ invocations log key ↔ ∃ load?, .invoked call key load? now ∈ log := by
  simp only [invocations, List.mem_filterMap, Notice.invocationOf?_eq_some]
  constructor
  · rintro ⟨_, hn, load?, rfl⟩
    exact ⟨load?, hn⟩
  · rintro ⟨load?, hn⟩
    exact ⟨_, hn, load?, rfl⟩

theorem ended_of_latest? [DecidableEq κ] {log : List (Notice κ ν ε ι)} {key : κ} {v : ν}
    {now : Nat} (h : latest? log key = some (v, now)) :
    ∃ load, .ended load key (.ok v) now ∈ log := by
  obtain ⟨n, hn, hv⟩ := List.mem_filterMap.1 (List.mem_of_getLast? h)
  obtain ⟨load, rfl⟩ := Notice.valueOf?_eq_some.1 hv
  exact ⟨load, hn⟩

def Event.caller? : Event κ ν ε ι → Option ι
  | .call id _ _ => some id
  | _ => none

def callers (events : List (Event κ ν ε ι)) : List ι := events.filterMap Event.caller?

@[simp] theorem callers_nil : callers ([] : List (Event κ ν ε ι)) = [] := rfl

@[simp] theorem callers_append (a b : List (Event κ ν ε ι)) :
    callers (a ++ b) = callers a ++ callers b := List.filterMap_append

theorem mem_callers_cons {id : ι} {e : Event κ ν ε ι} {events : List (Event κ ν ε ι)} :
    id ∈ callers (e :: events) ↔ e.caller? = some id ∨ id ∈ callers events := by
  cases h : e.caller? <;> simp [callers, h, eq_comm]

@[simp] theorem callers_call (id : ι) (key : κ) (loader : Loader ν ε)
    (events : List (Event κ ν ε ι)) :
    callers (.call id key loader :: events) = id :: callers events := rfl

@[simp] theorem callers_cancel (id : ι) (events : List (Event κ ν ε ι)) :
    callers (.cancel id :: events) = callers events := rfl

section InTurn

variable {α β : Type} (f : List α → α → Option β)

/-- What the elements of a list contribute one after the other, each with those before it in view.
-/
def inTurn (xs : List α) : List β :=
  (List.range xs.length).filterMap fun i => xs[i]?.bind (f (xs.take i))

@[simp] theorem inTurn_nil : inTurn f [] = [] := rfl

theorem inTurn_append_singleton (xs : List α) (x : α) :
    inTurn f (xs ++ [x]) = inTurn f xs ++ (f xs x).toList := by
  have hold : ∀ i ∈ List.range xs.length,
      (xs ++ [x])[i]?.bind (f ((xs ++ [x]).take i)) = xs[i]?.bind (f (xs.take i)) := by
    intro i hi
    have hi := List.mem_range.1 hi
    rw [List.getElem?_append_left hi, List.take_append_of_le_length (Nat.le_of_lt hi)]
  have hlast : [xs.length].filterMap (fun i => (xs ++ [x])[i]?.bind (f ((xs ++ [x]).take i))) =
      (f xs x).toList := by
    cases h : f xs x <;> simp [h]
  rw [inTurn, List.length_append, List.length_singleton, List.range_succ, List.filterMap_append,
    List.filterMap_congr hold, hlast, inTurn]

theorem inTurn_mono {xs ys : List α} (h : xs <+: ys) : inTurn f xs <+: inTurn f ys := by
  obtain ⟨zs, rfl⟩ := h
  induction zs using List.reverseRecOn with
  | nil => simp
  | append_singleton zs z ih =>
    rw [← List.append_assoc, inTurn_append_singleton]
    exact ih.trans (List.prefix_append _ _)

end InTurn

section Run

variable [DecidableEq κ] [DecidableEq ι] (cfg : Settings)

@[simp] theorem run_nil (s : Cache κ ν ε ι) : s.run cfg [] = (s, []) := rfl

theorem run_cons (s : Cache κ ν ε ι) (e : Event κ ν ε ι) (es : List (Event κ ν ε ι)) :
    s.run cfg (e :: es) =
      (((s.step cfg e).1.run cfg es).1, (s.step cfg e).2 ++ ((s.step cfg e).1.run cfg es).2) := rfl

theorem run_append (s : Cache κ ν ε ι) (a b : List (Event κ ν ε ι)) :
    s.run cfg (a ++ b) =
      (((s.run cfg a).1.run cfg b).1, (s.run cfg a).2 ++ ((s.run cfg a).1.run cfg b).2) := by
  induction a generalizing s with
  | nil => rfl
  | cons e a ih => simp [run_cons, ih]

theorem run_snoc (s : Cache κ ν ε ι) (es : List (Event κ ν ε ι)) (e : Event κ ν ε ι) :
    s.run cfg (es ++ [e]) = (((s.run cfg es).1.step cfg e).1,
      (s.run cfg es).2 ++ ((s.run cfg es).1.step cfg e).2) := by
  simp [run_append, run_cons]

theorem run_split {s : Cache κ ν ε ι} {es : List (Event κ ν ε ι)} {x y : List (Notice κ ν ε ι)}
    {n : Notice κ ν ε ι} (h : (s.run cfg es).2 = x ++ n :: y) :
    ∃ a e b x' y', es = a ++ e :: b ∧ x = (s.run cfg a).2 ++ x' ∧
      ((s.run cfg a).1.step cfg e).2 = x' ++ n :: y' := by
  induction es generalizing s x with
  | nil => simp at h
  | cons e es ih =>
    rw [run_cons] at h
    rcases List.append_eq_append_iff.1 h with ⟨x', rfl, hrest⟩ | ⟨y', hstep, hrest⟩
    · obtain ⟨a, e', b, x'', y'', rfl, rfl, hn⟩ := ih hrest
      exact ⟨e :: a, e', b, x'', y'', rfl, by simp [run_cons], by simpa [run_cons] using hn⟩
    · cases y' with
      | nil =>
        -- the notices of the first step end just before this one
        obtain ⟨a, e', b, x'', y'', rfl, hx, hn⟩ := ih (x := []) (by simpa using hrest.symm)
        obtain ⟨ha, rfl⟩ := List.append_eq_nil_iff.1 hx.symm
        exact ⟨e :: a, e', b, [], y'', rfl, by simpa [run_cons, ha] using hstep.symm,
          by simpa [run_cons] using hn⟩
      | cons m y' =>
        obtain ⟨rfl, -⟩ := List.cons.inj hrest
        exact ⟨[], e, es, x, y', rfl, by simp, hstep⟩

theorem exists_step_of_mem {s : Cache κ ν ε ι} {es : List (Event κ ν ε ι)} {n : Notice κ ν ε ι}
    (h : n ∈ (s.run cfg es).2) :
    ∃ a e b, es = a ++ e :: b ∧ n ∈ ((s.run cfg a).1.step cfg e).2 := by
  obtain ⟨x, y, hxy⟩ := List.append_of_mem h
  obtain ⟨a, e, b, x', y', hes, -, hn⟩ := run_split cfg hxy
  exact ⟨a, e, b, hes, by simp [hn]⟩

/-- What holds of the empty cache and is kept by every step holds after every run. -/
theorem run_induction {P : List (Event κ ν ε ι) → Cache κ ν ε ι → List (Notice κ ν ε ι) → Prop}
    (start : P [] .empty [])
    (next : ∀ es s log e, P es s log → P (es ++ [e]) (s.step cfg e).1 (log ++ (s.step cfg e).2))
    (es : List (Event κ ν ε ι)) : P es (Cache.empty.run cfg es).1 (Cache.empty.run cfg es).2 := by
  induction es using List.reverseRecOn with
  | nil => exact start
  | append_singleton es e ih =>
    rw [run_snoc]
    exact next _ _ _ e ih

end Run

end BearerAccess.Cache
