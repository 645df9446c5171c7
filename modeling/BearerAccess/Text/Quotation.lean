import BearerAccess.Text.Hidden
/-!
Diagnostic quotations: a text between double quotes in which every character is visible. A quote and
a backslash follow a backslash, four controls have a letter, and every other hidden character is
written by its number in braces.
-/
set_option autoImplicit false

namespace BearerAccess.Text

def hexDigits (n : Nat) : List Char := Nat.toDigits 16 n

def quoteChar (c : Char) : List Char :=
  if c = '"' then ['\\', '"']
  else if c = '\\' then ['\\', '\\']
  else if c = '\t' then ['\\', 't']
  else if c = '\n' then ['\\', 'n']
  else if c = '\r' then ['\\', 'r']
  else if c.toNat = 0 then ['\\', '0']
  else if 0x20 ≤ c.toNat ∧ c.toNat < 0x7F then [c]
  else if isHidden c then ['\\', 'u', '\x7b'] ++ hexDigits c.toNat ++ ['\x7d']
  else [c]

def quotation (text : String) : String :=
  String.ofList ('"' :: text.toList.flatMap quoteChar ++ ['"'])

def quotation? : Option String → String
  | none => "None"
  | some t => "Some(" ++ quotation t ++ ")"

end BearerAccess.Text
