import BearerAccess.Json.Record
import BearerAccess.Json.Reader
import BearerAccess.Order.Increasing
/-!
Published signing keys. A key set holds the keys of a document that may verify signatures, one for
each key id: keys meant for encryption are left out, and of two keys with one id the later one
counts.
-/
set_option autoImplicit false

namespace BearerAccess

open Json

structure Jwk where
  kty : String
  kid : String
  alg? : Option String
  use? : Option String
  crv? : Option String
  x? : Option String
  y? : Option String
  n? : Option String
  e? : Option String
  deriving DecidableEq, Repr

namespace Jwk

def ofDoc? (d : Doc) : Option Jwk := do
  let fields ← d.fields? ["kty", "kid", "alg", "use", "crv", "x", "y", "n", "e"]
  let kty ← fields.required "kty" Doc.text?
  let kid ← fields.required "kid" Doc.text?
  let alg? ← fields.optional "alg" Doc.text?
  let use? ← fields.optional "use" Doc.text?
  let crv? ← fields.optional "crv" Doc.text?
  let x? ← fields.optional "x" Doc.text?
  let y? ← fields.optional "y" Doc.text?
  let n? ← fields.optional "n" Doc.text?
  let e? ← fields.optional "e" Doc.text?
  pure ⟨kty, kid, alg?, use?, crv?, x?, y?, n?, e?⟩

def listOfDoc? (d : Doc) : Option (List Jwk) := do
  let fields ← d.fields? ["keys"]
  let items ← fields.required "keys" Doc.items?
  items.mapM ofDoc?

def verifies (k : Jwk) : Bool := k.use? != some "enc"

def key (k : Jwk) : List Bytes := [bytesOf k.kid]

end Jwk

structure KeySet where
  toList : List Jwk
  increasing : Increasing.Holds Jwk.key toList

namespace KeySet

def ofKeys (keys : List Jwk) : KeySet :=
  ⟨Increasing.ofList Jwk.key (keys.filter Jwk.verifies), Increasing.holds_ofList Jwk.key _⟩

def find? (s : KeySet) (kid : String) : Option Jwk := s.toList.find? (·.kid == kid)

def size (s : KeySet) : Nat := s.toList.length

def isEmpty (s : KeySet) : Bool := s.toList.isEmpty

def ofDoc? (d : Doc) : Option KeySet := (Jwk.listOfDoc? d).map ofKeys

def ofBytes? (bytes : Bytes) : Option KeySet := (Doc.ofBytes? bytes).bind ofDoc?

theorem ext_toList {s t : KeySet} (h : s.toList = t.toList) : s = t := by
  cases s; cases t; cases h; rfl

instance : DecidableEq KeySet := fun s t =>
  if h : s.toList = t.toList then .isTrue (ext_toList h) else .isFalse fun e => h (e ▸ rfl)

end KeySet

end BearerAccess
