import BearerAccess.Json.Record
import BearerAccess.Json.Reader
import BearerAccess.Text.Base64Url
/-!
Compact tokens: three segments between dots, of which the first two are documents in base64.
Reading one checks its form only. What it says is trusted by nobody until its signature has been
verified, so the segments are kept as they were written.
-/
set_option autoImplicit false

namespace BearerAccess

open Json

inductive TokenFault where
  | tooLarge
  | malformed
  | missingKid
  deriving DecidableEq, Repr

def TokenFault.message (_ : TokenFault) : String := "The access token is invalid or expired"

def TokenFault.name : TokenFault → String
  | .tooLarge => "TokenTooLarge"
  | .malformed => "MalformedToken"
  | .missingKid => "MissingKid"

structure Segments where
  header : List Char
  payload : List Char
  signature : List Char
  deriving DecidableEq, Repr

def Segments.signed (s : Segments) : List Char := s.header ++ '.' :: s.payload

def Segments.ofText? (token : List Char) : Option Segments :=
  match token.splitOn '.' with
  | [header, payload, signature] => some ⟨header, payload, signature⟩
  | _ => none

structure WrittenHeader where
  alg : String
  kid? : Option String
  typ? : Option String
  deriving DecidableEq, Repr

def WrittenHeader.ofDoc? (d : Doc) : Option WrittenHeader := do
  let fields ← d.fields? ["alg", "kid", "typ"]
  let alg ← fields.required "alg" Doc.text?
  let kid? ← fields.optional "kid" Doc.text?
  let typ? ← fields.optional "typ" Doc.text?
  pure ⟨alg, kid?, typ?⟩

structure TokenHeader where
  alg : String
  kid : String
  typ? : Option String
  deriving DecidableEq, Repr

def WrittenHeader.keyed? (h : WrittenHeader) : Option TokenHeader :=
  match h.kid? with
  | some kid => if kid = "" then none else some ⟨h.alg, kid, h.typ?⟩
  | none => none

structure UnverifiedToken (α : Type) where
  header : TokenHeader
  claims : α
  segments : Segments
  deriving DecidableEq, Repr

namespace UnverifiedToken

def maxSize : Nat := 8192

/-- Reads a text as a token whose payload `read` accepts. Its header is judged before its payload.
-/
def decode {α : Type} (read : Bytes → Option α) (token : String) :
    Except TokenFault (UnverifiedToken α) :=
  if maxSize < token.utf8ByteSize then .error .tooLarge
  else
    match Segments.ofText? token.toList with
    | none => .error .malformed
    | some segments =>
      match ((Base64Url.decode? segments.header).bind Doc.ofBytes?).bind WrittenHeader.ofDoc? with
      | none => .error .malformed
      | some written =>
        match written.keyed? with
        | none => .error .missingKid
        | some header =>
          match (Base64Url.decode? segments.payload).bind read with
          | none => .error .malformed
          | some claims => .ok ⟨header, claims, segments⟩

end UnverifiedToken

end BearerAccess
