import BearerAccess.Json.Reader
import Mathlib.Data.List.Basic
/-!
Reading in two passes. One reading symbol by symbol gives the same as cutting all lexemes first and
putting them together afterwards, so a text can be looked at as its list of lexemes. Lexemes of two
texts follow each other if the first text ends between lexemes, or with a number that the second one
does not continue.
-/
set_option autoImplicit false

namespace BearerAccess.Json

namespace Scan

def run : Scan → List Symbol → Option (List Lexeme × Scan)
  | scan, [] => some ([], scan)
  | scan, s :: r => do
    let (lexemes, next) ← scan.step s
    let (more, last) ← run next r
    pure (lexemes ++ more, last)

variable {scan middle last : Scan} {a b : List Symbol} {x y : List Lexeme}

theorem run_append (ha : scan.run a = some (x, middle)) (hb : middle.run b = some (y, last)) :
    scan.run (a ++ b) = some (x ++ y, last) := by
  induction a generalizing scan x with
  | nil =>
    obtain ⟨rfl, rfl⟩ : [] = x ∧ scan = middle := by simpa [run] using ha
    exact hb
  | cons s a ih =>
    simp only [run, Option.bind_eq_bind, Option.bind_eq_some_iff] at ha
    obtain ⟨⟨first, next⟩, hstep, ⟨more, end'⟩, hmore, hx⟩ := ha
    obtain ⟨rfl, rfl⟩ : first ++ more = x ∧ end' = middle := by simpa using hx
    have hrest := ih hmore
    simp only [List.cons_append, run, hstep, hrest, Option.bind_eq_bind, Option.bind_some,
      List.append_assoc]
    rfl

theorem run_cons {s : Symbol} (hs : scan.step s = some (x, middle))
    (hb : middle.run b = some (y, last)) : scan.run (s :: b) = some (x ++ y, last) := by
  simp [run, hs, hb]

/-- A symbol that can continue nothing: it ends a number, and begins a lexeme after a blank. -/
def Delimits (c : Char) : Prop := c = ',' ∨ c = ':' ∨ c = ']' ∨ c = '\x7d'

theorem continueNumber_delimiter {part : NumberPart} {n : Numeral} {c : Char} (h : Delimits c) :
    continueNumber part n c = none := by
  rcases h with rfl | rfl | rfl | rfl <;> cases part <;> rfl

/-- A character that continues no number completes what can end, and is then read as after a blank.
-/
theorem step_delimiter {c : Char} (hc : ∀ part n, continueNumber part n c = none)
    (hend : scan.finish = some x) (hstart : start (.char c) = some (y, last)) :
    scan.step (.char c) = some (x ++ y, last) := by
  cases scan with
  | blank =>
    obtain rfl : [] = x := by simpa [finish] using hend
    exact hstart
  | number part n =>
    obtain ⟨done, hdone, rfl⟩ : ∃ done, numberEnd? part n = some done ∧ [done] = x := by
      simpa [finish] using hend
    simp [step, hc, hdone, hstart]
  | word rest result => cases hend
  | string part soFar => cases hend

end Scan

open Scan

def lexemes? (symbols : List Symbol) : Option (List Lexeme) := do
  let (lexemes, last) ← Scan.blank.run symbols
  let rest ← last.finish
  pure (lexemes ++ rest)

variable {a b : List Symbol} {x y : List Lexeme}

theorem lexemes?_of_run (h : Scan.blank.run a = some (x, .blank)) : lexemes? a = some x := by
  simp [lexemes?, h, finish]

theorem run_append_delimiter {c : Char} {last : Scan} (ha : lexemes? a = some x)
    (hc : Delimits c) (hb : Scan.blank.run (.char c :: b) = some (y, last)) :
    Scan.blank.run (a ++ .char c :: b) = some (x ++ y, last) := by
  simp only [lexemes?, Option.bind_eq_bind, Option.bind_eq_some_iff] at ha
  obtain ⟨⟨done, open'⟩, hrun, rest, hrest, hx⟩ := ha
  obtain rfl : done ++ rest = x := Option.some.inj hx
  simp only [run, Option.bind_eq_bind, Option.bind_eq_some_iff] at hb
  obtain ⟨⟨first, next⟩, hstart, ⟨more, end'⟩, hmore, hy⟩ := hb
  obtain ⟨rfl, rfl⟩ : first ++ more = y ∧ end' = last := by simpa using hy
  have hstep := step_delimiter (fun _ _ => continueNumber_delimiter hc) hrest hstart
  have hafter := run_cons hstep hmore
  rw [List.append_assoc]
  have hall := run_append hrun hafter
  simpa only [List.append_assoc] using hall

theorem foldlM_step_eq (symbols : List Symbol) (scan : Scan) (assembly : Assembly) :
    symbols.foldlM Reader.step ⟨scan, assembly⟩ =
      (scan.run symbols).bind fun (lexemes, last) =>
        (lexemes.foldlM Assembly.push assembly).map fun built => ⟨last, built⟩ := by
  induction symbols generalizing scan assembly with
  | nil => rfl
  | cons s symbols ih =>
    rw [List.foldlM_cons]
    cases hstep : scan.step s with
    | none => simp [Reader.step, run, hstep]
    | some stepped =>
      obtain ⟨first, next⟩ := stepped
      cases hfirst : first.foldlM Assembly.push assembly with
      | none =>
        simp only [Reader.step, run, hstep, hfirst, Option.bind_eq_bind, Option.bind_some,
          Option.bind_none]
        cases next.run symbols <;> simp [List.foldlM_append, hfirst]
      | some built =>
        simp only [Reader.step, run, hstep, hfirst, Option.bind_eq_bind, Option.bind_some,
          Option.pure_def, ih]
        cases next.run symbols <;> simp [List.foldlM_append, hfirst]

theorem Doc.ofSymbols?_eq (symbols : List Symbol) :
    Doc.ofSymbols? symbols = (lexemes? symbols).bind fun lexemes =>
      (lexemes.foldlM Assembly.push .empty).bind Assembly.doc? := by
  rw [ofSymbols?, Reader.initial, foldlM_step_eq, lexemes?]
  cases Scan.blank.run symbols with
  | none => rfl
  | some cut =>
    obtain ⟨lexemes, last⟩ := cut
    simp only [Option.bind_eq_bind, Option.bind_some]
    cases hfinish : last.finish with
    | none =>
      cases lexemes.foldlM Assembly.push .empty <;> simp [Reader.finish, hfinish]
    | some rest =>
      cases hbuilt : lexemes.foldlM Assembly.push .empty with
      | none => simp [List.foldlM_append, hbuilt]
      | some built => simp [List.foldlM_append, hbuilt, Reader.finish, hfinish]

end BearerAccess.Json
