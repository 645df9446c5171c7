import BearerAccess.Http.Exchange
/-!
Requests and replies as bytes. A connection carries one of each: the request asks for the connection
to end with the reply, so all that comes until then is the reply. A reply is a head of lines and a
body, which is written in chunks, has a length that the head gives, or is all the rest.
-/
set_option autoImplicit false

namespace BearerAccess

namespace HttpRequest

def fields (r : HttpRequest) : List (String × String) :=
  let length? : Option String := match r.method with
    | .get => none
    | .post => some (String.ofList (decimal r.body.length))
  let given (name : String) (value? : Option String) : List (String × String) :=
    value?.toList.map fun value => (name, value)
  [("host", String.ofList r.url.server), ("accept", "*/*")] ++
    given "authorization" r.authorization? ++ given "content-type" r.contentType? ++
    given "content-length" length? ++ [("connection", "close")]

def wire (r : HttpRequest) : Bytes :=
  let line (text : String) : Bytes := bytesOf text ++ [0x0D, 0x0A]
  let target := String.ofList (r.url.path ++ Url.marked '?' r.url.query?)
  line (r.method.name ++ " " ++ target ++ " HTTP/1.1") ++
    (r.fields.flatMap fun f => line (f.1 ++ ": " ++ f.2)) ++ line "" ++ r.body

end HttpRequest

namespace Http

/-- The head of a reply, its field names in lower case. -/
structure Head where
  status : Nat
  fields : List (List Char × Bytes)
  deriving DecidableEq, Repr

def asciiOf (bytes : Bytes) : List Char := bytes.map fun b => Char.ofNat b.toNat

def isGap (b : UInt8) : Bool := b == 0x20 || b == 0x09

def bare (bytes : Bytes) : Bytes :=
  ((bytes.dropWhile isGap).reverse.dropWhile isGap).reverse

def line? (bytes : Bytes) : Option (Bytes × Bytes) :=
  match bytes.dropWhile (· != 0x0A) with
  | [] => none
  | _ :: rest =>
    let line := bytes.takeWhile (· != 0x0A)
    some (if line.getLast? = some 0x0D then line.dropLast else line, rest)

def number? (text : List Char) : Option Nat :=
  if text ≠ [] ∧ text.all Char.isDigit then some (Nat.ofDigitChars 10 text 0) else none

def status? (line : Bytes) : Option Nat :=
  match (asciiOf line).splitOn ' ' with
  | version :: status :: _ =>
    if version.dropLast = "HTTP/1.".toList ∧ status.length = 3 then number? status else none
  | _ => none

def field? (line : Bytes) : Option (List Char × Bytes) :=
  match line.dropWhile (· != 0x3A) with
  | [] => none
  | _ :: value => some ((asciiOf (line.takeWhile (· != 0x3A))).map Char.toLower, bare value)

def fields? : Nat → Bytes → Option (List (List Char × Bytes) × Bytes)
  | 0, _ => none
  | fuel + 1, bytes => do
    let (line, rest) ← line? bytes
    if line = [] then pure ([], rest)
    else
      let field ← field? line
      let (fields, rest) ← fields? fuel rest
      pure (field :: fields, rest)

def maxFields : Nat := 100

def head? (bytes : Bytes) : Option (Head × Bytes) := do
  let (line, rest) ← line? bytes
  let status ← status? line
  let (fields, rest) ← fields? (maxFields + 1) rest
  pure (⟨status, fields⟩, rest)

/-- The head of the reply proper, which may come after heads that only announce it. -/
def finalHead? : Nat → Bytes → Option (Head × Bytes)
  | 0, _ => none
  | fuel + 1, bytes => do
    let (head, rest) ← head? bytes
    if head.status < 200 then finalHead? fuel rest else pure (head, rest)

def Head.field? (h : Head) (name : String) : Option Bytes := h.fields.lookup name.toList

def chunkLength? (line : Bytes) : Option Nat :=
  let digits := (asciiOf line).takeWhile fun c => (Percent.value? c).isSome
  if digits = [] then none
  else some (digits.foldl (fun n c => n * 16 + (Percent.value? c).getD 0) 0)

/-- A body in chunks, up to the empty one; none if it ends before that. -/
def chunked? : Nat → Bytes → Option Bytes
  | 0, _ => none
  | fuel + 1, bytes => do
    let (line, rest) ← line? bytes
    let length ← chunkLength? line
    if length = 0 then pure []
    else if rest.length < length then none
    else
      let (_, after) ← line? (rest.drop length)
      let more ← chunked? fuel after
      pure (rest.take length ++ more)

def Head.body? (h : Head) (rest : Bytes) : Option Bytes :=
  if h.status = 204 ∨ h.status = 304 then some []
  else if (h.field? "transfer-encoding").isSome then chunked? (rest.length + 1) rest
  else
    match h.field? "content-length" with
    | none => some rest
    | some text => do
      let length ← number? (asciiOf text)
      if rest.length < length then none else pure (rest.take length)

def replyOf (bytes : Bytes) : Reply :=
  match finalHead? (bytes.length + 1) bytes with
  | none => .closed 0
  | some (head, rest) =>
    let location? := (head.field? "location").bind fun value =>
      (Symbol.text? (Symbol.ofBytes value)).map String.ofList
    .response ⟨head.status, location?, head.body? rest⟩

end Http

end BearerAccess
