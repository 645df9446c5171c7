import BearerAccess.Proofs.Json.Lexemes
set_option autoImplicit false

namespace BearerAccess.Json

namespace Doc

mutual

def lexemes : Doc → List Lexeme
  | .null => [.null]
  | .bool b => [.bool b]
  | .number n => [.number n]
  | .string s => [.string s]
  | .array [] => [.openArray, .closeArray]
  | .array (d :: ds) => .openArray :: lexemes d ++ itemLexemes ds
  | .object [] => [.openObject, .closeObject]
  | .object ((name, d) :: ms) =>
    .openObject :: .string name :: .colon :: lexemes d ++ memberLexemes ms

def itemLexemes : List Doc → List Lexeme
  | [] => [.closeArray]
  | d :: ds => .comma :: lexemes d ++ itemLexemes ds

def memberLexemes : List (List Piece × Doc) → List Lexeme
  | [] => [.closeObject]
  | (name, d) :: ms => .comma :: .string name :: .colon :: lexemes d ++ memberLexemes ms

end

end Doc

namespace Assembly

section Steps

variable (d : Doc) (xs : List Doc) (ms : List (List Piece × Doc)) (name : List Piece)
  (fs : List Frame)

@[simp] theorem put_array :
    put d (.array xs :: fs) = some (.partly (.array (d :: xs) :: fs) .commaOrClose) := rfl

@[simp] theorem put_member : put d (.member ms name :: fs) =
    some (.partly (.object ((name, d) :: ms) :: fs) .commaOrClose) := rfl

@[simp] theorem push_close_empty :
    push (.partly (.array xs :: fs) .itemOrClose) .closeArray = put (.array xs.reverse) fs := rfl

@[simp] theorem push_comma_array : push (.partly (.array xs :: fs) .commaOrClose) .comma =
    some (.partly (.array xs :: fs) .value) := rfl

@[simp] theorem push_close_array :
    push (.partly (.array xs :: fs) .commaOrClose) .closeArray = put (.array xs.reverse) fs := rfl

@[simp] theorem push_close_memberless :
    push (.partly (.object ms :: fs) .nameOrClose) .closeObject = put (.object ms.reverse) fs := rfl

@[simp] theorem push_first_name : push (.partly (.object ms :: fs) .nameOrClose) (.string name) =
    some (.partly (.member ms name :: fs) .colon) := rfl

@[simp] theorem push_name : push (.partly (.object ms :: fs) .name) (.string name) =
    some (.partly (.member ms name :: fs) .colon) := rfl

@[simp] theorem push_colon : push (.partly fs .colon) .colon = some (.partly fs .value) := rfl

@[simp] theorem push_comma_object : push (.partly (.object ms :: fs) .commaOrClose) .comma =
    some (.partly (.object ms :: fs) .name) := rfl

@[simp] theorem push_close_object :
    push (.partly (.object ms :: fs) .commaOrClose) .closeObject =
      put (.object ms.reverse) fs := rfl

end Steps

def AcceptsValue (frames : List Frame) (expect : Expect) : Prop :=
  expect = .value ∨ expect = .itemOrClose ∧ ∃ xs fs, frames = .array xs :: fs

theorem push_of_acceptsValue {frames : List Frame} {expect : Expect}
    (h : AcceptsValue frames expect) {x : Lexeme} (hx : x ≠ .closeArray) :
    push (.partly frames expect) x = beginValue frames x := by
  rcases h with rfl | ⟨rfl, xs, fs, rfl⟩
  · rfl
  · cases x <;> first | rfl | exact absurd rfl hx

mutual

theorem foldlM_lexemes (d : Doc) (frames : List Frame) {expect : Expect}
    (h : AcceptsValue frames expect) :
    d.lexemes.foldlM push (.partly frames expect) = put d frames := by
  have hfirst {x : Lexeme} (hx : x ≠ .closeArray) := push_of_acceptsValue h hx
  match d with
  | .null | .bool _ | .number _ | .string _ => simp [Doc.lexemes, hfirst, beginValue]
  | .array [] => simp [Doc.lexemes, hfirst, beginValue]
  | .array (d :: ds) =>
    have hitem := foldlM_lexemes d (.array [] :: frames) (.inr ⟨rfl, _, _, rfl⟩)
    simp [Doc.lexemes, hfirst, beginValue, hitem, foldlM_itemLexemes ds [d]]
  | .object [] => simp [Doc.lexemes, hfirst, beginValue]
  | .object ((name, d) :: ms) =>
    have hmember := foldlM_lexemes d (.member [] name :: frames) (.inl rfl)
    simp [Doc.lexemes, hfirst, beginValue, hmember, foldlM_memberLexemes ms [(name, d)]]

theorem foldlM_itemLexemes (ds before : List Doc) {frames : List Frame} :
    (Doc.itemLexemes ds).foldlM push (.partly (.array before :: frames) .commaOrClose) =
      put (.array (before.reverse ++ ds)) frames := by
  match ds with
  | [] => simp [Doc.itemLexemes]
  | d :: ds =>
    have hitem := foldlM_lexemes d (.array before :: frames) (.inl rfl)
    simp [Doc.itemLexemes, hitem, foldlM_itemLexemes ds (d :: before)]

theorem foldlM_memberLexemes (ms before : List (List Piece × Doc)) {frames : List Frame} :
    (Doc.memberLexemes ms).foldlM push (.partly (.object before :: frames) .commaOrClose) =
      put (.object (before.reverse ++ ms)) frames := by
  match ms with
  | [] => simp [Doc.memberLexemes]
  | (name, d) :: ms =>
    have hmember := foldlM_lexemes d (.member before name :: frames) (.inl rfl)
    simp [Doc.memberLexemes, hmember, foldlM_memberLexemes ms ((name, d) :: before)]

end

end Assembly

theorem Doc.ofSymbols?_of_lexemes {symbols : List Symbol} {d : Doc}
    (h : lexemes? symbols = some d.lexemes) : Doc.ofSymbols? symbols = some d := by
  rw [Doc.ofSymbols?_eq, h, Option.bind_some, Assembly.empty,
    Assembly.foldlM_lexemes d [] (.inl rfl)]
  rfl

end BearerAccess.Json
