import BearerAccess.Json.Doc
/-!
The lexemes of JSON, cut from symbols one symbol at a time. A number ends where the next symbol
cannot continue it, so one symbol may complete a number and be a lexeme of its own.
-/
set_option autoImplicit false

namespace BearerAccess.Json

inductive Lexeme where
  | openArray
  | closeArray
  | openObject
  | closeObject
  | colon
  | comma
  | null
  | bool (b : Bool)
  | number (n : Numeral)
  | string (s : List Piece)
  deriving DecidableEq, Repr

inductive NumberPart where
  | sign
  | zero
  | whole
  | point
  | fraction
  | mark
  | markSign
  | exponent
  deriving DecidableEq, Repr

inductive EscapePart where
  | none
  | backslash
  | hex (digits value : Nat)
  deriving DecidableEq, Repr

/-- What is being read. Digits and pieces read so far are in reverse order. -/
inductive Scan where
  | blank
  | word (rest : List Char) (result : Lexeme)
  | number (part : NumberPart) (soFar : Numeral)
  | string (part : EscapePart) (soFar : List Piece)
  deriving DecidableEq, Repr

namespace Scan

def hexValue? (c : Char) : Option Nat :=
  let n := c.toNat
  if 48 ≤ n ∧ n ≤ 57 then some (n - 48)
  else if 65 ≤ n ∧ n ≤ 70 then some (n - 55)
  else if 97 ≤ n ∧ n ≤ 102 then some (n - 87)
  else none

def escaped? : Char → Option Char
  | '"' => some '"'
  | '\\' => some '\\'
  | '/' => some '/'
  | 'b' => some '\x08'
  | 'f' => some '\x0c'
  | 'n' => some '\n'
  | 'r' => some '\r'
  | 't' => some '\t'
  | _ => none

def start : Symbol → Option (List Lexeme × Scan)
  | .stray _ => none
  | .char c =>
    if c = ' ' ∨ c = '\t' ∨ c = '\n' ∨ c = '\r' then some ([], .blank)
    else if c = '"' then some ([], .string .none [])
    else if c = '-' then some ([], .number .sign ⟨true, [], [], none⟩)
    else if c = '0' then some ([], .number .zero ⟨false, ['0'], [], none⟩)
    else if c.isDigit then some ([], .number .whole ⟨false, [c], [], none⟩)
    else match c with
      | '[' => some ([.openArray], .blank)
      | ']' => some ([.closeArray], .blank)
      | '\x7b' => some ([.openObject], .blank)
      | '\x7d' => some ([.closeObject], .blank)
      | ':' => some ([.colon], .blank)
      | ',' => some ([.comma], .blank)
      | 't' => some ([], .word ['r', 'u', 'e'] (.bool true))
      | 'f' => some ([], .word ['a', 'l', 's', 'e'] (.bool false))
      | 'n' => some ([], .word ['u', 'l', 'l'] .null)
      | _ => none

def written (n : Numeral) : Numeral :=
  ⟨n.negative, n.whole.reverse, n.fraction.reverse, n.exponent.map fun e => (e.1, e.2.reverse)⟩

def numberEnd? (part : NumberPart) (n : Numeral) : Option Lexeme :=
  match part with
  | .zero | .whole | .fraction | .exponent => some (.number (written n))
  | _ => none

def continueNumber (part : NumberPart) (n : Numeral) (c : Char) : Option Scan :=
  let addExponent (c : Char) : Numeral :=
    { n with exponent := n.exponent.map fun e => (e.1, c :: e.2) }
  match part with
  | .sign =>
    if c = '0' then some (.number .zero { n with whole := ['0'] })
    else if c.isDigit then some (.number .whole { n with whole := [c] })
    else none
  | .zero | .whole =>
    if c = '.' then some (.number .point n)
    else if c = 'e' ∨ c = 'E' then some (.number .mark { n with exponent := some (false, []) })
    else if part = .whole ∧ c.isDigit then some (.number .whole { n with whole := c :: n.whole })
    else none
  | .point | .fraction =>
    if c.isDigit then some (.number .fraction { n with fraction := c :: n.fraction })
    else if part = .fraction ∧ (c = 'e' ∨ c = 'E') then
      some (.number .mark { n with exponent := some (false, []) })
    else none
  | .mark =>
    if c = '+' then some (.number .markSign n)
    else if c = '-' then some (.number .markSign { n with exponent := some (true, []) })
    else if c.isDigit then some (.number .exponent (addExponent c))
    else none
  | .markSign | .exponent =>
    if c.isDigit then some (.number .exponent (addExponent c)) else none

def insideString (part : EscapePart) (soFar : List Piece) : Symbol → Option (List Lexeme × Scan)
  | .stray b =>
    match part with
    | .none => some ([], .string .none (.stray b :: soFar))
    | _ => none
  | .char c =>
    match part with
    | .none =>
      if c = '"' then some ([.string soFar.reverse], .blank)
      else if c = '\\' then some ([], .string .backslash soFar)
      else if c.toNat < 0x20 then none
      else some ([], .string .none (.char c :: soFar))
    | .backslash =>
      if c = 'u' then some ([], .string (.hex 0 0) soFar)
      else (escaped? c).map fun x => ([], .string .none (.char x :: soFar))
    | .hex digits value =>
      (hexValue? c).map fun d =>
        if digits = 3 then ([], .string .none (.unit (value * 16 + d) :: soFar))
        else ([], .string (.hex (digits + 1) (value * 16 + d)) soFar)

def step : Scan → Symbol → Option (List Lexeme × Scan)
  | .blank, s => start s
  | .word rest result, s =>
    match rest, s with
    | x :: y :: r, .char c => if c = x then some ([], .word (y :: r) result) else none
    | [x], .char c => if c = x then some ([result], .blank) else none
    | _, _ => none
  | .number part n, s =>
    let next := match s with
      | .char c => continueNumber part n c
      | .stray _ => none
    match next with
    | some scan => some ([], scan)
    | none => do
      let done ← numberEnd? part n
      let (more, scan) ← start s
      pure (done :: more, scan)
  | .string part soFar, s => insideString part soFar s

def finish : Scan → Option (List Lexeme)
  | .blank => some []
  | .number part n => (numberEnd? part n).map ([·])
  | _ => none

end Scan

end BearerAccess.Json
