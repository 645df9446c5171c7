import BearerAccess.Proofs.Json.Members
import BearerAccess.Proofs.Json.RoundTrip
import Mathlib.Data.List.Forall2
set_option autoImplicit false

namespace BearerAccess.Json

namespace Doc

/-- A text as a document, with the escapes that it is written with. -/
def ofString (s : String) : Doc := .string (s.toList.map Piece.ofChar)

def ofTime (t : Int64) : Doc := .number (.ofInt t.toInt)

def ofOption : Option String → Doc
  | none => .null
  | some s => ofString s

def spelled (f : String × Doc) : List Piece × Doc := (f.1.toList.map Piece.ofChar, f.2)

def ofFields (fields : Fields) : Doc := .object (fields.map spelled)

@[simp] theorem text?_ofString (s : String) : (ofString s).text? = some s := by
  simp [ofString, text?, spelling?_ofChar]

@[simp] theorem int64?_ofTime (t : Int64) : (ofTime t).int64? = some t := int64?_ofInt t

theorem named?_spelled (fields : Fields) : named? (fields.map spelled) = some fields := by
  induction fields with
  | nil => rfl
  | cons f fields ih => simp [named?, spelled, spelling?_ofChar, ih]

theorem fields?_ofFields {fields : Fields} (h : (fields.map Prod.fst).Nodup)
    (names : List String) :
    (ofFields fields).fields? names = some (fields.filter fun f => names.contains f.1) := by
  have hknown : ((fields.filter fun f => names.contains f.1).map Prod.fst).Nodup :=
    h.sublist (List.filter_sublist.map Prod.fst)
  rw [ofFields, fields?, named?_spelled, Option.bind_some, if_pos hknown]

end Doc

namespace Fields

variable {α : Type} {fields : Fields} {keep : String → Bool} {name : String} {read : Doc → Option α}

theorem required_filter (h : keep name = true) :
    required (fields.filter fun f => keep f.1) name read = required fields name read := by
  rw [required, lookup_filter h, required]

theorem optional_filter (h : keep name = true) :
    optional (fields.filter fun f => keep f.1) name read = optional fields name read := by
  rw [optional, lookup_filter h, optional]

theorem defaulted_filter (h : keep name = true) (default : α) :
    defaulted (fields.filter fun f => keep f.1) name read default =
      defaulted fields name read default := by
  rw [defaulted, lookup_filter h, defaulted]

theorem required_of_lookup {d : Doc} (h : fields.lookup name = some d) :
    required fields name read = read d := by
  rw [required, h, Option.bind_some]

theorem required_text (fields : Fields) (name : String) {text : String}
    (h : fields.lookup name = some (.ofString text)) :
    required fields name Doc.text? = some text := by
  rw [required_of_lookup h, Doc.text?_ofString]

theorem optional_of_lookup {o : Option α} {doc : α → Doc} (h : fields.lookup name = o.map doc)
    (hread : ∀ a, read (doc a) = some a) (hnull : read .null = none) :
    optional fields name read = some o := by
  cases o with
  | none => rw [optional, h, Option.map_none]
  | some a =>
    have hr := hread a
    rw [optional, h, Option.map_some]
    split
    · rename_i hd
      cases hd
    · rename_i hd
      rw [Option.some.inj hd, hnull] at hr
      cases hr
    · rename_i d _ hd
      rw [← Option.some.inj hd, hr, Option.map_some]

theorem optional_text (fields : Fields) (name : String) {text : String}
    (h : fields.lookup name = some (.ofString text)) :
    optional fields name Doc.text? = some (some text) := by
  have hsome : fields.lookup name = (some text).map Doc.ofString := h
  exact optional_of_lookup hsome Doc.text?_ofString rfl

theorem optional_ofOption {o : Option String} (h : fields.lookup name = some (.ofOption o)) :
    optional fields name Doc.text? = some o := by
  cases o with
  | none => rw [optional, h, Doc.ofOption]
  | some text => exact optional_text fields name h

theorem optional_missing (fields : Fields) (name : String) (h : fields.lookup name = none)
    (read : Doc → Option α) : optional fields name read = some none := by
  rw [optional, h]

theorem defaulted_of_lookup {d : Doc} (h : fields.lookup name = some d) (default : α) :
    defaulted fields name read default = read d := by
  rw [defaulted, h]

def only (name : String) (doc : α → Doc) : Option α → Fields
  | none => []
  | some a => [(name, doc a)]

theorem lookup_only (name other : String) (doc : α → Doc) (o : Option α) :
    (only name doc o).lookup other = if other = name then o.map doc else none := by
  cases o <;> simp [only, lookup_cons]

theorem names_only (name : String) (doc : α → Doc) (o : Option α) :
    ((only name doc o).map Prod.fst).Sublist [name] := by
  cases o with
  | none => exact List.nil_sublist _
  | some a => exact List.Sublist.refl _

end Fields

namespace Value

def WrittenAs (m : String × Value) (f : String × Doc) : Prop := m.1 = f.1 ∧ m.2.doc? = some f.2

theorem doc?_object {ms : List (String × Value)} {fields : Fields}
    (h : List.Forall₂ WrittenAs ms fields) : (Value.object ms).doc? = some (.ofFields fields) := by
  have hmembers : memberDocs? ms = some (fields.map Doc.spelled) := by
    induction h with
    | nil => rfl
    | @cons m f ms fields hm _ ih =>
      obtain ⟨name, v⟩ := m
      obtain ⟨rfl, hv⟩ := hm
      simp only at hv
      simp [memberDocs?, hv, ih, Doc.spelled]
  rw [doc?, hmembers]
  rfl

theorem writtenAs_ofOption (name : String) (o : Option String) :
    WrittenAs (name, ofOption o) (name, .ofOption o) := by
  cases o <;> exact ⟨rfl, rfl⟩

theorem writtenAs_memberIf {α : Type} {write : α → Value} {doc : α → Doc}
    (h : ∀ a, (write a).doc? = some (doc a)) (name : String) (o : Option α) :
    List.Forall₂ WrittenAs (memberIf name write o) (Fields.only name doc o) := by
  cases o with
  | none => exact .nil
  | some a => exact .cons ⟨rfl, h a⟩ .nil

end Value

end BearerAccess.Json
