import BearerAccess.Text.Symbols
import BearerAccess.Number.IntegerText
/-!
JSON documents as trees. A tree keeps strings and numbers as they were written, because a document
is well formed whatever its strings spell and however large its numbers are; whether a string is a
text, or a number fits, is decided only where one is asked for.
-/
set_option autoImplicit false

namespace BearerAccess.Json

/-- A piece of a string: a character, a byte that belongs to none, or a 16-bit unit written by its
number. -/
inductive Piece where
  | char (c : Char)
  | stray (b : UInt8)
  | unit (n : Nat)
  deriving DecidableEq, Repr

def isHighSurrogate (n : Nat) : Bool := 0xD800 ≤ n ∧ n < 0xDC00

def isLowSurrogate (n : Nat) : Bool := 0xDC00 ≤ n ∧ n < 0xE000

def surrogatePair (high low : Nat) : Char :=
  Char.ofNat (0x10000 + (high - 0xD800) * 0x400 + (low - 0xDC00))

/-- The characters that the pieces spell: units count one by one or as a high and a low surrogate,
and nothing is spelt by a lone surrogate or a stray byte. -/
def spelling? : List Piece → Option (List Char)
  | [] => some []
  | .char c :: r => (spelling? r).map (c :: ·)
  | .stray _ :: _ => none
  | .unit n :: .unit m :: r =>
    if isHighSurrogate n then
      if isLowSurrogate m then (spelling? r).map (surrogatePair n m :: ·) else none
    else if isLowSurrogate n then none
    else (spelling? (.unit m :: r)).map (Char.ofNat n :: ·)
  | .unit n :: r =>
    if isHighSurrogate n || isLowSurrogate n then none
    else (spelling? r).map (Char.ofNat n :: ·)

def pieces (text : List Char) : List Piece := text.map .char

structure Numeral where
  negative : Bool
  whole : List Char
  fraction : List Char
  exponent : Option (Bool × List Char)
  deriving DecidableEq, Repr

def Numeral.ofInt : Int → Numeral
  | .ofNat n => ⟨false, decimal n, [], none⟩
  | .negSucc n => ⟨true, decimal (n + 1), [], none⟩

/-- A JSON document. Members stand in the order in which they were written, and may repeat. -/
inductive Doc where
  | null
  | bool (b : Bool)
  | number (n : Numeral)
  | string (s : List Piece)
  | array (items : List Doc)
  | object (members : List (List Piece × Doc))
  deriving Repr

namespace Doc

def text? : Doc → Option String
  | .string s => (spelling? s).map String.ofList
  | _ => none

def bool? : Doc → Option Bool
  | .bool b => some b
  | _ => none

/-- A signed 64-bit integer: digits alone, with a minus sign for the negative ones only. -/
def int64? : Doc → Option Int64
  | .number ⟨negative, whole, [], none⟩ =>
    let n := Nat.ofDigitChars 10 whole 0
    if negative then
      if 0 < n ∧ n ≤ maxSigned + 1 then some (Int64.ofInt (-(n : Int))) else none
    else if n ≤ maxSigned then some (Int64.ofInt n) else none
  | _ => none

def items? : Doc → Option (List Doc)
  | .array xs => some xs
  | _ => none

end Doc

end BearerAccess.Json
