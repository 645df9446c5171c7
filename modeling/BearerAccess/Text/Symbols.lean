/-!
Bytes read as characters. A text has one spelling in UTF-8; bytes that came from elsewhere are read
as a list of symbols, each a character or a byte that belongs to none. Every byte below 0x80 is a
character of its own, so a stray byte never hides a delimiter.
-/
set_option autoImplicit false

namespace BearerAccess

abbrev Bytes := List UInt8

def utf8 (text : List Char) : Bytes := text.flatMap String.utf8EncodeChar

@[simp] theorem utf8_nil : utf8 [] = [] := rfl

@[simp] theorem utf8_cons (c : Char) (r : List Char) :
    utf8 (c :: r) = String.utf8EncodeChar c ++ utf8 r := rfl

inductive Symbol where
  | char (c : Char)
  | stray (b : UInt8)
  deriving DecidableEq, Repr

namespace Symbol

def ofScalar (low high n : Nat) : Option Char :=
  if low ≤ n ∧ n ≤ high ∧ n.isValidChar then some (Char.ofNat n) else none

def continuation (b : UInt8) : Option Nat :=
  if 0x80 ≤ b.toNat ∧ b.toNat < 0xC0 then some (b.toNat - 0x80) else none

/-- The character that the bytes begin with, and how many bytes follow its first one. -/
def leading : Bytes → Option (Char × Nat)
  | [] => none
  | a :: r =>
    if a.toNat < 0x80 then some (Char.ofNat a.toNat, 0)
    else if a.toNat < 0xC0 then none
    else if a.toNat < 0xE0 then
      match r with
      | b :: _ => do
        let y ← continuation b
        let c ← ofScalar 0x80 0x7FF ((a.toNat - 0xC0) * 64 + y)
        pure (c, 1)
      | [] => none
    else if a.toNat < 0xF0 then
      match r with
      | b :: c :: _ => do
        let y ← continuation b
        let z ← continuation c
        let x ← ofScalar 0x800 0xFFFF (((a.toNat - 0xE0) * 64 + y) * 64 + z)
        pure (x, 2)
      | _ => none
    else
      match r with
      | b :: c :: d :: _ => do
        let y ← continuation b
        let z ← continuation c
        let w ← continuation d
        let x ← ofScalar 0x10000 0x10FFFF ((((a.toNat - 0xF0) * 64 + y) * 64 + z) * 64 + w)
        pure (x, 3)
      | _ => none

/-- Reads the bytes after the first `skip` ones, which belong to a character already read. -/
def ofBytesAfter : Nat → Bytes → List Symbol
  | _, [] => []
  | skip + 1, _ :: r => ofBytesAfter skip r
  | 0, a :: r =>
    match leading (a :: r) with
    | some (c, more) => .char c :: ofBytesAfter more r
    | none => .stray a :: ofBytesAfter 0 r

def ofBytes (bytes : Bytes) : List Symbol := ofBytesAfter 0 bytes

def ofText (text : List Char) : List Symbol := text.map .char

def text? : List Symbol → Option (List Char)
  | [] => some []
  | .char c :: r => (text? r).map (c :: ·)
  | .stray _ :: _ => none

theorem text?_ofText (text : List Char) : text? (ofText text) = some text := by
  induction text with
  | nil => rfl
  | cons c r ih => simp_all [ofText, text?]

end Symbol

def bytesOf (s : String) : Bytes := utf8 s.toList

end BearerAccess
