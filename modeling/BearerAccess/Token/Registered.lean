import BearerAccess.Json.Record
import BearerAccess.Json.Value
import BearerAccess.Signature.Scheme
/-!
The registered members of a token's header and payload. Before and after a signature is checked,
header and payload are read once more, for every member that the token format itself defines; here
is what is let through.
-/
set_option autoImplicit false

namespace BearerAccess

open Json

namespace Registered

def absentOr (test : Doc → Bool) (fields : Fields) (name : String) : Bool :=
  match fields.lookup name with
  | none => true
  | some .null => true
  | some d => test d

def isText (d : Doc) : Bool := d.text?.isSome

def isTextList (d : Doc) : Bool :=
  match d with
  | .array xs => xs.all isText
  | _ => false

/-- A name out of a list, written as a text or as an object with one member of that name, whose
value passes a test. -/
def isNameOf (names : List String) (value : Doc → Bool) (d : Doc) : Bool :=
  match d with
  | .string s => names.any fun n => spelling? s == some n.toList
  | .object [(name, v)] => value v && names.any fun n => spelling? name == some n.toList
  | _ => false

def isNull (d : Doc) : Bool :=
  match d with
  | .null => true
  | _ => false

def isNullOrEmpty (d : Doc) : Bool :=
  match d with
  | .null => true
  | .object [] => true
  | _ => false

def keyAlgorithms : List String :=
  Algorithm.all.map Algorithm.name ++ ["RSA1_5", "RSA-OAEP", "RSA-OAEP-256"]

def curves : List String := ["P-256", "P-384", "P-521", "Ed25519"]

def commonFields : List String :=
  ["use", "key_ops", "alg", "kid", "x5u", "x5c", "x5t", "x5t#S256"]

def isKeyOf (kty : String) (hasCurve : Bool) (texts : List String) (members : Fields) : Bool :=
  let wanted := ["kty"] ++ (if hasCurve then ["crv"] else []) ++ texts
  let known := members.filter fun m => wanted.contains m.1
  let given (name : String) (test : Doc → Bool) : Bool := (known.lookup name).any test
  decide (known.map Prod.fst).Nodup && given "kty" (isNameOf [kty] isNull) &&
    (!hasCurve || given "crv" (isNameOf curves isNull)) && texts.all fun t => given t isText

/-- Whether a header may carry this document as a key: every member is a free value, none of the
common members is given twice, and the others are those of one key type. -/
def isKey (d : Doc) : Bool :=
  match d with
  | .object members =>
    match named? members with
    | none => false
    | some all =>
      let common := all.filter fun m => commonFields.contains m.1
      let others := all.filter fun m => !commonFields.contains m.1
      all.all (fun m => (Value.ofDoc? (Value.maxDepth - 2) m.2).isSome) &&
        decide (common.map Prod.fst).Nodup &&
        ["use", "kid", "x5u", "x5t", "x5t#S256"].all (absentOr isText common) &&
        ["key_ops", "x5c"].all (absentOr isTextList common) &&
        absentOr (isNameOf keyAlgorithms isNullOrEmpty) common "alg" &&
        (isKeyOf "EC" true ["x", "y"] others || isKeyOf "RSA" false ["n", "e"] others ||
          isKeyOf "oct" false ["k"] others || isKeyOf "OKP" true ["x"] others)
  | _ => false

def headerFields : List String :=
  ["typ", "alg", "cty", "jku", "jwk", "kid", "x5u", "x5c", "x5t", "x5t#S256"]

def isHeader (d : Doc) : Bool :=
  match d with
  | .object _ =>
    match d.fields? headerFields with
    | none => false
    | some fields =>
      (fields.lookup "alg").any (isNameOf (Algorithm.all.map Algorithm.name) isNull) &&
        ["typ", "cty", "jku", "kid", "x5u", "x5t", "x5t#S256"].all (absentOr isText fields) &&
        absentOr isTextList fields "x5c" && absentOr isKey fields "jwk"
  | _ => false

/-- Whether a string that may hold lone surrogates can be skipped: the first of them, if any, is a
high one at the very end. -/
def skipsString : List Piece → Bool
  | [] => true
  | .unit n :: r =>
    if isHighSurrogate n then
      match r with
      | [] => true
      | .unit m :: r => isLowSurrogate m && skipsString r
      | _ => false
    else if isLowSurrogate n then false
    else skipsString r
  | _ :: r => skipsString r

/-- Whether a number can be skipped: its exponent, if too large, is so by its last digit only. -/
def skipsNumber (n : Numeral) : Bool :=
  match n.exponent with
  | some (false, digits) =>
    n.approximate.1 == 0 || decide (Nat.ofDigitChars 10 digits.dropLast 0 ≤ Numeral.maxWritten)
  | _ => true

mutual

/-- Whether a reader ends behind a value, though it may have failed to read it. What fails has to
stand last in every array and object around it, since each of them is closed then and not read on;
a name never stands last. -/
def skips (depth : Nat) : Doc → Bool
  | .null => true
  | .bool _ => true
  | .string s => skipsString s
  | .number n => skipsNumber n
  | .array xs =>
    match depth with
    | 0 => false
    | d + 1 => skipsItems d xs
  | .object ms =>
    match depth with
    | 0 => false
    | d + 1 => skipsMembers d ms

def skipsItems (depth : Nat) : List Doc → Bool
  | [] => true
  | [x] => skips depth x
  | x :: y :: r => (Value.ofDoc? depth x).isSome && skipsItems depth (y :: r)

def skipsMembers (depth : Nat) : List (List Piece × Doc) → Bool
  | [] => true
  | [(name, x)] => (spelling? name).isSome && skips depth x
  | (name, x) :: m :: r =>
    (spelling? name).isSome && (Value.ofDoc? depth x).isSome && skipsMembers depth (m :: r)

end

example : skips 1 (.array [.null, .string [.unit 0xD800]]) = true := by decide

example : skips 1 (.array [.string [.unit 0xD800], .null]) = false := by decide

def skipsAudience (d : Doc) : Bool := skips (Value.maxDepth - 1) d

def payloadFields : List String := ["exp", "nbf", "sub", "iss", "aud"]

/-- Whether a document is a payload in its registered members, which may have any values but not
occur twice. -/
def isPayload (d : Doc) : Bool :=
  match d with
  | .array items => items.length == payloadFields.length && (items.drop 4).all skipsAudience
  | d =>
    match d.fields? payloadFields with
    | none => false
    | some fields => absentOr skipsAudience fields "aud"

end Registered

end BearerAccess
