import BearerAccess.Json.Writer
import BearerAccess.Proofs.Json.Assembling
import BearerAccess.Proofs.Text.Utf8
import Mathlib.Data.Nat.Digits.Defs
/-!
Values written and read back: the compact form of a value without real numbers is read as the
document that has the same shape, whose strings spell the value's texts and whose numbers are
written in plain decimal.
-/
set_option autoImplicit false

namespace BearerAccess

@[simp] theorem Symbol.ofText_nil : ofText [] = [] := rfl

@[simp] theorem Symbol.ofText_cons (c : Char) (r : List Char) :
    ofText (c :: r) = .char c :: ofText r := rfl

@[simp] theorem Symbol.ofText_append (a b : List Char) :
    ofText (a ++ b) = ofText a ++ ofText b := List.map_append

namespace Json

open BearerAccess.Symbol (ofText)

section Strings

def Piece.ofChar (c : Char) : Piece :=
  if c.toNat < 0x20 ∧ c ∉ ['\x08', '\x0c', '\n', '\r', '\t'] then .unit c.toNat else .char c

theorem spelling?_unit {n : Nat} (h : n < 0xD800) (r : List Piece) :
    spelling? (.unit n :: r) = (spelling? r).map (Char.ofNat n :: ·) := by
  have hhigh : isHighSurrogate n = false := by simp [isHighSurrogate]; omega
  have hlow : isLowSurrogate n = false := by simp [isLowSurrogate]; omega
  match r with
  | [] | .char _ :: _ | .stray _ :: _ | .unit _ :: _ => simp [spelling?, hhigh, hlow]

theorem spelling?_ofChar (text : List Char) : spelling? (text.map Piece.ofChar) = some text := by
  induction text with
  | nil => rfl
  | cons c text ih =>
    rw [List.map_cons, Piece.ofChar]
    split
    · rename_i h
      rw [spelling?_unit (by omega), ih, Char.ofNat_toNat]
      rfl
    · rw [spelling?, ih]
      rfl

theorem hexValue?_hexDigit : ∀ n : Fin 16, Scan.hexValue? (hexDigit n) = some n.val := by decide

theorem run_fourHex {n : Nat} (h : n < 0x10000) (soFar : List Piece) :
    (Scan.string (.hex 0 0) soFar).run (ofText (fourHex n)) =
      some ([], .string .none (.unit n :: soFar)) := by
  have hdigit (k : Nat) : Scan.hexValue? (hexDigit (k % 16)) = some (k % 16) :=
    hexValue?_hexDigit ⟨k % 16, Nat.mod_lt _ (by decide)⟩
  have hn : ((n / 4096 % 16 * 16 + n / 256 % 16) * 16 + n / 16 % 16) * 16 + n % 16 = n := by omega
  simp [fourHex, Scan.run, Scan.step, Scan.insideString, hdigit, hn]

theorem run_escapeChar (c : Char) (soFar : List Piece) :
    (Scan.string .none soFar).run (ofText (escapeChar c)) =
      some ([], .string .none (Piece.ofChar c :: soFar)) := by
  by_cases hletter : c ∈ ['"', '\\', '\x08', '\x0c', '\n', '\r', '\t']
  · simp only [List.mem_cons, List.not_mem_nil, or_false] at hletter
    rcases hletter with rfl | rfl | rfl | rfl | rfl | rfl | rfl <;> rfl
  simp only [List.mem_cons, List.not_mem_nil, or_false, not_or] at hletter
  obtain ⟨hquote, hslash, hb, hf, hn, hr, ht⟩ := hletter
  simp only [escapeChar, Piece.ofChar, hquote, hslash, hb, hf, hn, hr, ht, if_false, List.mem_cons,
    List.not_mem_nil, or_false, not_false_eq_true, and_true]
  split
  · have hhex := run_fourHex (n := c.toNat) (by omega) soFar
    exact Scan.run_cons (x := []) rfl (Scan.run_cons (x := []) rfl hhex)
  · rename_i hvisible
    simp [Scan.run, Scan.step, Scan.insideString, hquote, hslash, hvisible]

theorem run_escaped (text : List Char) (soFar : List Piece) :
    (Scan.string .none soFar).run (ofText (text.flatMap escapeChar)) =
      some ([], .string .none ((text.map Piece.ofChar).reverse ++ soFar)) := by
  induction text generalizing soFar with
  | nil => rfl
  | cons c text ih =>
    rw [List.flatMap_cons, Symbol.ofText_append]
    have hall := Scan.run_append (run_escapeChar c soFar) (ih (Piece.ofChar c :: soFar))
    simpa using hall

theorem run_quote (text : List Char) : Scan.blank.run (ofText (quote text)) =
    some ([.string (text.map Piece.ofChar)], .blank) := by
  have hclose : (Scan.string .none (text.map Piece.ofChar).reverse).run [.char '"'] =
      some ([.string (text.map Piece.ofChar)], .blank) := by
    simp [Scan.run, Scan.step, Scan.insideString]
  have hinside := run_escaped text []
  rw [List.append_nil] at hinside
  rw [quote, List.cons_append, Symbol.ofText_cons, Symbol.ofText_append]
  exact Scan.run_cons (x := []) rfl (Scan.run_append hinside hclose)

end Strings

section Numbers

theorem isDigit_decimal {n : Nat} {c : Char} (h : c ∈ decimal n) : c.isDigit :=
  Nat.isDigit_of_mem_toDigits (by decide) (by decide) h

theorem decimal_ne_nil (n : Nat) : decimal n ≠ [] := Nat.toDigits_ne_nil

theorem digitChar_ne_zero : ∀ n : Fin 10, 0 < n.val → n.val.digitChar ≠ '0' := by decide

theorem decimal_eq_cons {n : Nat} (h : 0 < n) : ∃ c r, decimal n = c :: r ∧ c ≠ '0' := by
  induction n using Nat.strongRecOn with
  | ind n ih =>
    by_cases hn : n < 10
    · exact ⟨n.digitChar, [], Nat.toDigits_of_lt_base hn, digitChar_ne_zero ⟨n, hn⟩ h⟩
    · obtain ⟨c, r, hc, hne⟩ := ih (n / 10) (by omega) (by omega)
      refine ⟨c, r ++ [(n % 10).digitChar], ?_, hne⟩
      rw [decimal, Nat.toDigits_of_base_le (by decide) (by omega)]
      change decimal (n / 10) ++ _ = _
      rw [hc]
      rfl

theorem continue_whole {c : Char} (h : c.isDigit) (n : Numeral) :
    Scan.continueNumber .whole n c = some (.number .whole { n with whole := c :: n.whole }) := by
  have hpoint : c ≠ '.' := by rintro rfl; cases h
  have hmark : ¬(c = 'e' ∨ c = 'E') := by rintro (rfl | rfl) <;> cases h
  simp [Scan.continueNumber, hpoint, hmark, h]

theorem run_digits {digits : List Char} (h : ∀ c ∈ digits, c.isDigit) (n : Numeral) :
    (Scan.number .whole n).run (ofText digits) =
      some ([], .number .whole { n with whole := digits.reverse ++ n.whole }) := by
  induction digits generalizing n with
  | nil => rfl
  | cons c digits ih =>
    obtain ⟨hc, hrest⟩ := List.forall_mem_cons.1 h
    have hstep : (Scan.number .whole n).step (.char c) =
        some ([], .number .whole { n with whole := c :: n.whole }) := by
      simp [Scan.step, continue_whole hc]
    have hall := Scan.run_cons hstep (ih hrest { n with whole := c :: n.whole })
    simpa using hall

theorem run_decimal (negative : Bool) (n : Nat) :
    ∃ part soFar, Scan.numberEnd? part soFar = some (.number ⟨negative, decimal n, [], none⟩) ∧
      (Scan.number .sign ⟨negative, [], [], none⟩).run (ofText (decimal n)) =
        some ([], .number part soFar) := by
  rcases Nat.eq_zero_or_pos n with rfl | hn
  · exact ⟨.zero, ⟨negative, ['0'], [], none⟩, rfl, rfl⟩
  · obtain ⟨c, r, hc, hne⟩ := decimal_eq_cons hn
    have hdigits : ∀ x ∈ c :: r, x.isDigit := hc ▸ fun x => isDigit_decimal
    obtain ⟨hdigit, hrest⟩ := List.forall_mem_cons.1 hdigits
    have hstep : (Scan.number .sign ⟨negative, [], [], none⟩).step (.char c) =
        some ([], .number .whole ⟨negative, [c], [], none⟩) := by
      simp [Scan.step, Scan.continueNumber, hne, hdigit]
    have hall := Scan.run_cons hstep (run_digits hrest _)
    refine ⟨.whole, _, ?_, by rw [hc]; exact hall⟩
    simp [Scan.numberEnd?, Scan.written, hc]

/-- A number without a sign begins as one with a sign goes on. -/
theorem step_blank_digit {c : Char} (h : c.isDigit) : Scan.blank.step (.char c) =
    (Scan.number .sign ⟨false, [], [], none⟩).step (.char c) := by
  have hother : c ∉ [' ', '\t', '\n', '\r', '"', '-'] := by
    intro hc
    simp only [List.mem_cons, List.not_mem_nil, or_false] at hc
    rcases hc with rfl | rfl | rfl | rfl | rfl | rfl <;> cases h
  simp only [List.mem_cons, List.not_mem_nil, or_false, not_or] at hother
  obtain ⟨hspace, htab, hn, hr, hquote, hsign⟩ := hother
  by_cases hzero : c = '0'
  · subst hzero
    rfl
  · simp [Scan.step, Scan.start, Scan.continueNumber, hspace, htab, hn, hr, hquote, hsign, hzero, h]

theorem lexemes?_signedDecimal (i : Int) :
    lexemes? (ofText (signedDecimal i)) = some [.number (.ofInt i)] := by
  have hfinished {part : NumberPart} {soFar n : Numeral} {symbols : List Symbol}
      (hrun : Scan.blank.run symbols = some ([], .number part soFar))
      (hend : Scan.numberEnd? part soFar = some (.number n)) :
      lexemes? symbols = some [.number n] := by
    simp [lexemes?, hrun, Scan.finish, hend]
  cases i with
  | ofNat n =>
    obtain ⟨part, soFar, hend, hrun⟩ := run_decimal false n
    obtain ⟨c, r, hc⟩ := List.exists_cons_of_ne_nil (decimal_ne_nil n)
    have hdigit : c.isDigit := isDigit_decimal (n := n) (by rw [hc]; exact .head _)
    refine hfinished ?_ hend
    change Scan.blank.run (ofText (decimal n)) = _
    rw [hc] at hrun ⊢
    rw [Symbol.ofText_cons, Scan.run, step_blank_digit hdigit]
    exact hrun
  | negSucc n =>
    obtain ⟨part, soFar, hend, hrun⟩ := run_decimal true (n + 1)
    exact hfinished (Scan.run_cons (x := []) rfl hrun) hend

theorem ofDigitChars_decimal (n : Nat) : Nat.ofDigitChars 10 (decimal n) 0 = n :=
  Nat.ofDigitChars_toDigits (by decide) (by decide)

theorem int64?_ofInt (t : Int64) : (Doc.number (.ofInt t.toInt)).int64? = some t := by
  have hle : t.toInt ≤ maxSigned := Int.lt_add_one_iff.1 t.toInt_lt
  have hge := t.le_toInt
  have ht : Int64.ofInt t.toInt = t := Int64.ofInt_toInt t
  cases hi : t.toInt with
  | ofNat n =>
    rw [hi] at hle ht
    have hn : n ≤ maxSigned := Int.ofNat_le.1 hle
    simp only [Doc.int64?, Numeral.ofInt, ofDigitChars_decimal]
    simp [hn, ← ht]
  | negSucc n =>
    rw [hi] at hge ht
    have hn : n + 1 ≤ maxSigned + 1 := by simp only [maxSigned]; omega
    simp only [Doc.int64?, Numeral.ofInt, ofDigitChars_decimal]
    simp [hn, ← ht, Int.negSucc_eq]

end Numbers

namespace Value

mutual

/-- The document that a value is written as; a value with a real number in it has none here. -/
def doc? : Value → Option Doc
  | .null => some .null
  | .bool b => some (.bool b)
  | .integer i => some (.number (.ofInt i))
  | .real _ => none
  | .string s => some (.string (s.toList.map Piece.ofChar))
  | .array vs => (itemDocs? vs).map .array
  | .object ms => (memberDocs? ms).map .object

def itemDocs? : List Value → Option (List Doc)
  | [] => some []
  | v :: vs => do
    let d ← doc? v
    let ds ← itemDocs? vs
    pure (d :: ds)

def memberDocs? : List (String × Value) → Option (List (List Piece × Doc))
  | [] => some []
  | (name, v) :: ms => do
    let d ← doc? v
    let ds ← memberDocs? ms
    pure ((name.toList.map Piece.ofChar, d) :: ds)

end

def Follows (text : List Char) (lexemes : List Lexeme) : Prop :=
  ∃ c r, text = c :: r ∧ Scan.Delimits c ∧ Scan.blank.run (ofText text) = some (lexemes, .blank)

theorem Follows.after {text more : List Char} {x y : List Lexeme} (hmore : Follows more y)
    (htext : lexemes? (ofText text) = some x) :
    Scan.blank.run (ofText (text ++ more)) = some (x ++ y, .blank) := by
  obtain ⟨c, r, rfl, hc, hrun⟩ := hmore
  rw [Symbol.ofText_append, Symbol.ofText_cons]
  exact run_append_delimiter htext hc hrun

theorem run_member (name : List Char) {text more : List Char} {x y : List Lexeme}
    (hmore : Follows more y) (htext : lexemes? (ofText text) = some x) :
    Scan.blank.run (ofText (quote name ++ ':' :: text ++ more)) =
      some (.string (name.map Piece.ofChar) :: .colon :: x ++ y, .blank) := by
  have hcolon : Scan.blank.step (.char ':') = some ([.colon], .blank) := rfl
  have hvalue := Scan.run_cons hcolon (hmore.after htext)
  have hall := Scan.run_append (run_quote name) hvalue
  simpa using hall

mutual

theorem lexemes?_render (v : Value) {d : Doc} (h : v.doc? = some d) :
    lexemes? (ofText v.render) = some d.lexemes := by
  match v with
  | .null =>
    obtain rfl := Option.some.inj h
    rfl
  | .bool b =>
    obtain rfl := Option.some.inj h
    cases b <;> rfl
  | .integer i =>
    obtain rfl := Option.some.inj h
    exact lexemes?_signedDecimal i
  | .real x => cases h
  | .string s =>
    obtain rfl := Option.some.inj h
    exact lexemes?_of_run (run_quote s.toList)
  | .array [] =>
    obtain rfl := Option.some.inj h
    rfl
  | .array (v :: vs) =>
    simp only [doc?, itemDocs?, Option.bind_eq_bind, Option.map_eq_some_iff,
      Option.bind_eq_some_iff] at h
    obtain ⟨_, ⟨d, hd, ds, hds, hcons⟩, rfl⟩ := h
    obtain rfl := Option.some.inj hcons
    have hrest := (follows_renderItems vs hds).after (lexemes?_render v hd)
    exact lexemes?_of_run (Scan.run_cons (s := .char '[') (x := [.openArray]) rfl hrest)
  | .object [] =>
    obtain rfl := Option.some.inj h
    rfl
  | .object ((name, v) :: ms) =>
    simp only [doc?, memberDocs?, Option.bind_eq_bind, Option.map_eq_some_iff,
      Option.bind_eq_some_iff] at h
    obtain ⟨_, ⟨d, hd, ds, hds, hcons⟩, rfl⟩ := h
    obtain rfl := Option.some.inj hcons
    have hrest := run_member name.toList (follows_renderMembers ms hds)
      (lexemes?_render v hd)
    exact lexemes?_of_run (Scan.run_cons (s := .char '\x7b') (x := [.openObject]) rfl hrest)

theorem follows_renderItems (vs : List Value) {ds : List Doc} (h : itemDocs? vs = some ds) :
    Follows (renderItems vs) (Doc.itemLexemes ds) := by
  match vs with
  | [] =>
    obtain rfl := Option.some.inj h
    exact ⟨']', [], rfl, .inr (.inr (.inl rfl)), rfl⟩
  | v :: vs =>
    simp only [itemDocs?, Option.bind_eq_bind, Option.bind_eq_some_iff] at h
    obtain ⟨d, hd, ds, hds, hcons⟩ := h
    obtain rfl := Option.some.inj hcons
    have hrest := (follows_renderItems vs hds).after (lexemes?_render v hd)
    exact ⟨',', _, rfl, .inl rfl, Scan.run_cons (x := [.comma]) rfl hrest⟩

theorem follows_renderMembers (ms : List (String × Value)) {ds : List (List Piece × Doc)}
    (h : memberDocs? ms = some ds) : Follows (renderMembers ms) (Doc.memberLexemes ds) := by
  match ms with
  | [] =>
    obtain rfl := Option.some.inj h
    exact ⟨'\x7d', [], rfl, .inr (.inr (.inr rfl)), rfl⟩
  | (name, v) :: ms =>
    simp only [memberDocs?, Option.bind_eq_bind, Option.bind_eq_some_iff] at h
    obtain ⟨d, hd, ds, hds, hcons⟩ := h
    obtain rfl := Option.some.inj hcons
    have hrest := run_member name.toList (follows_renderMembers ms hds)
      (lexemes?_render v hd)
    exact ⟨',', _, rfl, .inl rfl, Scan.run_cons (x := [.comma]) rfl hrest⟩

end

variable {v : Value} {d : Doc}

theorem ofSymbols?_render (h : v.doc? = some d) : Doc.ofSymbols? (ofText v.render) = some d :=
  Doc.ofSymbols?_of_lexemes (lexemes?_render v h)

theorem ofText?_compact (h : v.doc? = some d) : Doc.ofText? v.compact = some d := by
  rw [Doc.ofText?, compact, String.toList_ofList]
  exact ofSymbols?_render h

theorem ofBytes?_render (h : v.doc? = some d) : Doc.ofBytes? (utf8 v.render) = some d := by
  rw [Doc.ofBytes?, Symbol.ofBytes_utf8]
  exact ofSymbols?_render h

end Value

end Json

end BearerAccess
