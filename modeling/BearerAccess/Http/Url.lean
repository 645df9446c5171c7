import BearerAccess.Number.IntegerText
import BearerAccess.Text.Percent
/-!
Web addresses in their normal form: the scheme and the host in lower case, no default port, no
user, a path without dot segments, and everything that may not stand for itself percent-encoded.
Host names are ASCII names or bracketed addresses.
-/
set_option autoImplicit false

namespace BearerAccess

structure Url where
  secure : Bool
  host : List Char
  port? : Option Nat
  path : List Char
  query? : Option (List Char)
  fragment? : Option (List Char)
  deriving DecidableEq, Repr

/-- Why a text is not the address of a web page: it is no address at all, or one of another
scheme, which is given in its normal form. -/
inductive UrlFault where
  | unreadable
  | foreign (text : List Char)
  deriving DecidableEq, Repr

namespace Url

def scheme (u : Url) : List Char := if u.secure then "https".toList else "http".toList

def defaultPort (secure : Bool) : Nat := if secure then 443 else 80

def port (u : Url) : Nat := u.port?.getD (defaultPort u.secure)

def marked (mark : Char) : Option (List Char) → List Char
  | none => []
  | some text => mark :: text

def target (u : Url) : List Char := u.path ++ marked '?' u.query? ++ marked '#' u.fragment?

def server (u : Url) : List Char := u.host ++ marked ':' (u.port?.map decimal)

def text (u : Url) : String :=
  String.ofList (u.scheme ++ "://".toList ++ u.server ++ u.target)

def sameServer (u v : Url) : Bool := u.host == v.host && u.port == v.port

def plainBut (except : List Char) (c : Char) : Bool :=
  0x20 < c.toNat && c.toNat < 0x7F && !except.contains c

def encodePath : List Char → List Char :=
  Percent.encode (plainBut ['"', '#', '<', '>', '?', '\x60', '\x7b', '\x7d'])

def encodeQuery : List Char → List Char := Percent.encode (plainBut ['"', '#', '<', '>', '\x27'])

def encodeFragment : List Char → List Char := Percent.encode (plainBut ['"', '<', '>', '\x60'])

def isSlash (c : Char) : Bool := c == '/' || c == '\\'

def trim (text : List Char) : List Char :=
  let outer (c : Char) : Bool := c.toNat ≤ 0x20
  let text := ((text.dropWhile outer).reverse.dropWhile outer).reverse
  text.filter fun c => c != '\t' && c != '\n' && c != '\r'

def scheme? (text : List Char) : Option (List Char × List Char) :=
  let inScheme (c : Char) : Bool := c.isAlphanum || c == '+' || c == '-' || c == '.'
  match text.takeWhile inScheme, text.dropWhile inScheme with
  | c :: name, ':' :: rest => if c.isAlpha then some ((c :: name).map Char.toLower, rest) else none
  | _, _ => none

inductive Segment where
  | here
  | up
  | down (name : List Char)

def Segment.of (s : List Char) : Segment :=
  let dot := ['.']
  let coded := ['%', '2', 'e']
  let low := s.map Char.toLower
  if low = dot ∨ low = coded then .here
  else if low = dot ++ dot ∨ low = dot ++ coded ∨ low = coded ++ dot ∨ low = coded ++ coded then .up
  else .down (encodePath s)

/-- Follows segments from a place, whose segments are given in reverse order. A last segment that
only moves leaves an empty one. -/
def follow (place : List (List Char)) : List (List Char) → List (List Char)
  | [] => place
  | [s] =>
    match Segment.of s with
    | .here => [] :: place
    | .up => [] :: place.tail
    | .down name => name :: place
  | s :: r =>
    match Segment.of s with
    | .here => follow place r
    | .up => follow place.tail r
    | .down name => follow (name :: place) r

def pathOf (segments : List (List Char)) : List Char :=
  segments.reverse.flatMap fun s => '/' :: s

def cut (text : List Char) : List Char × Option (List Char) × Option (List Char) :=
  let beforeFragment := text.takeWhile (· != '#')
  let fragment? := match text.dropWhile (· != '#') with
    | _ :: f => some (encodeFragment f)
    | [] => none
  let query? := match beforeFragment.dropWhile (· != '?') with
    | _ :: q => some (encodeQuery q)
    | [] => none
  (beforeFragment.takeWhile (· != '?'), query?, fragment?)

def withTarget (u : Url) (place : List (List Char)) (text : List Char) : Url :=
  let (path, query?, fragment?) := cut text
  { u with path := pathOf (follow place (path.splitOnP isSlash)), query?, fragment? }

def forbiddenInHost : List Char :=
  [' ', '#', '/', ':', '<', '>', '?', '@', '[', '\\', ']', '^', '|', '%']

def isHostChar (c : Char) : Bool := plainBut forbiddenInHost c

def readHost (text : List Char) : Option (List Char) :=
  match text with
  | '[' :: r => if r.getLast? = some ']' then some (text.map Char.toLower) else none
  | text =>
    let name := (Percent.decode text).map fun b => (Char.ofNat b.toNat).toLower
    if name ≠ [] ∧ name.all isHostChar then some name else none

def maxPort : Nat := 65535

def readPort (secure : Bool) (text : List Char) : Option (Option Nat) :=
  match text with
  | [] => some none
  | text =>
    if text.all Char.isDigit ∧ Nat.ofDigitChars 10 text 0 ≤ maxPort then
      let n := Nat.ofDigitChars 10 text 0
      some (if n = defaultPort secure then none else some n)
    else none

def splitPort (text : List Char) : List Char × List Char :=
  match text with
  | '[' :: _ =>
    let name := text.takeWhile (· != ']')
    let rest := text.dropWhile (· != ']')
    (name ++ rest.take 1, rest.drop 1)
  | text => (text.takeWhile (· != ':'), text.dropWhile (· != ':'))

def ofRest? (secure : Bool) (rest : List Char) : Option Url := do
  let ends (c : Char) : Bool := isSlash c || c == '?' || c == '#'
  let rest := rest.dropWhile isSlash
  let authority := rest.takeWhile fun c => !ends c
  let server := (authority.reverse.takeWhile (· != '@')).reverse
  let (name, colon) := splitPort server
  let host ← readHost name
  let port? ← match colon with
    | [] => some none
    | ':' :: digits => readPort secure digits
    | _ => none
  let after := rest.dropWhile fun c => !ends c
  let after := match after with
    | c :: r => if isSlash c then r else c :: r
    | [] => []
  pure (withTarget ⟨secure, host, port?, [], none, none⟩ [] after)

def ofText? (text : List Char) : Except UrlFault Url :=
  match scheme? (trim text) with
  | none => .error .unreadable
  | some (name, rest) =>
    if name = "http".toList ∨ name = "https".toList then
      match ofRest? (name = "https".toList) rest with
      | some u => .ok u
      | none => .error .unreadable
    else .error (.foreign (name ++ ':' :: encodePath rest))

/-- The segments before the last one of an address, in reverse order. -/
def place (u : Url) : List (List Char) := ((u.path.splitOn '/').drop 1).reverse.drop 1

def join? (u : Url) (text : List Char) : Option Url :=
  let text := trim text
  match scheme? text with
  | some _ => (ofText? text).toOption
  | none =>
    match text with
    | [] => some { u with fragment? := none }
    | '#' :: f => some { u with fragment? := some (encodeFragment f) }
    | '?' :: _ =>
      let (_, query?, fragment?) := cut text
      some { u with query?, fragment? }
    | a :: b :: r =>
      if isSlash a ∧ isSlash b then ofRest? u.secure r
      else if isSlash a then some (withTarget u [] (b :: r))
      else some (withTarget u u.place (a :: b :: r))
    | [a] => some (if isSlash a then withTarget u [] [] else withTarget u u.place [a])

end Url

end BearerAccess
