import BearerAccess.Json.Doc
/-!
Records: documents with named fields. A record is an object, in which other members are skipped
but no field may occur twice, or an array that gives the fields by position and may be shorter.
-/
set_option autoImplicit false

namespace BearerAccess.Json

abbrev Fields := List (String × Doc)

def named? : List (List Piece × Doc) → Option Fields
  | [] => some []
  | (name, d) :: r => do
    let n ← spelling? name
    let rest ← named? r
    pure ((String.ofList n, d) :: rest)

def Doc.fields? (names : List String) : Doc → Option Fields
  | .object members =>
    (named? members).bind fun all =>
      let known := all.filter fun m => names.contains m.1
      if (known.map Prod.fst).Nodup then some known else none
  | .array items => if items.length ≤ names.length then some (names.zip items) else none
  | _ => none

namespace Fields

variable {α : Type}

def required (fields : Fields) (name : String) (read : Doc → Option α) : Option α :=
  (fields.lookup name).bind read

def optional (fields : Fields) (name : String) (read : Doc → Option α) : Option (Option α) :=
  match fields.lookup name with
  | none => some none
  | some .null => some none
  | some d => (read d).map some

def defaulted (fields : Fields) (name : String) (read : Doc → Option α) (default : α) :
    Option α :=
  match fields.lookup name with
  | none => some default
  | some d => read d

end Fields

end BearerAccess.Json
