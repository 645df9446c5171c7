import BearerAccess.Json.Value
set_option autoImplicit false

namespace BearerAccess.Json

def hexDigit (n : Nat) : Char := if n < 10 then Char.ofNat (48 + n) else Char.ofNat (87 + n)

def fourHex (n : Nat) : List Char :=
  [hexDigit (n / 4096 % 16), hexDigit (n / 256 % 16), hexDigit (n / 16 % 16), hexDigit (n % 16)]

def escapeChar (c : Char) : List Char :=
  if c = '"' then ['\\', '"']
  else if c = '\\' then ['\\', '\\']
  else if c = '\x08' then ['\\', 'b']
  else if c = '\x0c' then ['\\', 'f']
  else if c = '\n' then ['\\', 'n']
  else if c = '\r' then ['\\', 'r']
  else if c = '\t' then ['\\', 't']
  else if c.toNat < 0x20 then '\\' :: 'u' :: fourHex c.toNat
  else [c]

def quote (text : List Char) : List Char := '"' :: text.flatMap escapeChar ++ ['"']

namespace Value

mutual

def render : Value → List Char
  | .null => ['n', 'u', 'l', 'l']
  | .bool true => ['t', 'r', 'u', 'e']
  | .bool false => ['f', 'a', 'l', 's', 'e']
  | .integer i => signedDecimal i
  | .real x => x.text.toList
  | .string s => quote s.toList
  | .array [] => ['[', ']']
  | .array (v :: vs) => '[' :: render v ++ renderItems vs
  | .object [] => ['\x7b', '\x7d']
  | .object ((n, v) :: ms) => '\x7b' :: quote n.toList ++ ':' :: render v ++ renderMembers ms

def renderItems : List Value → List Char
  | [] => [']']
  | v :: vs => ',' :: render v ++ renderItems vs

def renderMembers : List (String × Value) → List Char
  | [] => ['\x7d']
  | (n, v) :: ms => ',' :: quote n.toList ++ ':' :: render v ++ renderMembers ms

end

def newLine (level : Nat) : List Char := '\n' :: List.replicate (2 * level) ' '

mutual

def indented (level : Nat) : Value → List Char
  | .array [] => ['[', ']']
  | .array (v :: vs) =>
    '[' :: newLine (level + 1) ++ indented (level + 1) v ++ indentedItems level vs
  | .object [] => ['\x7b', '\x7d']
  | .object ((n, v) :: ms) =>
    '\x7b' :: newLine (level + 1) ++ quote n.toList ++ ':' :: ' ' :: indented (level + 1) v ++
      indentedMembers level ms
  | .null => render .null
  | .bool b => render (.bool b)
  | .integer i => render (.integer i)
  | .real x => render (.real x)
  | .string s => render (.string s)

def indentedItems (level : Nat) : List Value → List Char
  | [] => newLine level ++ [']']
  | v :: vs => ',' :: newLine (level + 1) ++ indented (level + 1) v ++ indentedItems level vs

def indentedMembers (level : Nat) : List (String × Value) → List Char
  | [] => newLine level ++ ['\x7d']
  | (n, v) :: ms =>
    ',' :: newLine (level + 1) ++ quote n.toList ++ ':' :: ' ' :: indented (level + 1) v ++
      indentedMembers level ms

end

def compact (v : Value) : String := String.ofList v.render

def pretty (v : Value) : String := String.ofList (v.indented 0)

def ofOption : Option String → Value
  | none => .null
  | some s => .string s

def memberIf {α : Type} (name : String) (write : α → Value) : Option α → List (String × Value)
  | none => []
  | some a => [(name, write a)]

end Value

end BearerAccess.Json
