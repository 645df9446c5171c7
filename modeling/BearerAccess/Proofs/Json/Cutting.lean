import BearerAccess.Proofs.Json.Assembling
/-!
The converse of reading. What has been put together tells which lexemes were read, so only the
lexemes of a document are read as that document; and where a bracket, a colon or a comma is among
the lexemes of some symbols, it stands among the symbols, between those of the lexemes before it and
those of the lexemes after it.
-/
set_option autoImplicit false

namespace BearerAccess.Json

theorem flatMap_append_singleton {α β : Type} (f : α → List β) (b : β) {l : List α} (h : l ≠ []) :
    l.flatMap (fun a => f a ++ [b]) = [b].intercalate (l.map f) ++ [b] := by
  induction l with
  | nil => exact absurd rfl h
  | cons a l ih =>
    cases l with
    | nil => simp
    | cons a' l =>
      rw [List.flatMap_cons, ih (by simp)]
      simp [List.intercalate_cons_cons]

namespace Doc

def memberLexeme (m : List Piece × Doc) : List Lexeme := .string m.1 :: .colon :: m.2.lexemes

theorem lexemes_array (ds : List Doc) : (array ds).lexemes =
    .openArray :: [.comma].intercalate (ds.map lexemes) ++ [.closeArray] := by
  have hitems (d : Doc) (ds : List Doc) : d.lexemes ++ itemLexemes ds =
      [.comma].intercalate ((d :: ds).map lexemes) ++ [.closeArray] := by
    induction ds generalizing d with
    | nil => simp [itemLexemes]
    | cons d' ds ih => simp [itemLexemes, ih d', List.intercalate_cons_cons]
  cases ds with
  | nil => simp [lexemes]
  | cons d ds => simpa [lexemes] using hitems d ds

theorem lexemes_object (ms : List (List Piece × Doc)) : (object ms).lexemes =
    .openObject :: [.comma].intercalate (ms.map memberLexeme) ++ [.closeObject] := by
  have hmembers (m : List Piece × Doc) (ms : List (List Piece × Doc)) :
      memberLexeme m ++ memberLexemes ms =
        [.comma].intercalate ((m :: ms).map memberLexeme) ++ [.closeObject] := by
    induction ms generalizing m with
    | nil => simp [memberLexemes]
    | cons m' ms ih =>
      have hnext := ih m'
      simp_all [memberLexemes, memberLexeme, List.intercalate_cons_cons]
  cases ms with
  | nil => simp [lexemes]
  | cons m ms => simpa [lexemes, memberLexeme] using hmembers m ms

end Doc

/-- What was read when a frame was begun and its parts so far were followed by commas. -/
def Frame.begun : Frame → List Lexeme
  | .array xs => .openArray :: xs.reverse.flatMap fun d => d.lexemes ++ [.comma]
  | .object ms => .openObject :: ms.reverse.flatMap fun m => Doc.memberLexeme m ++ [.comma]
  | .member ms name =>
    .openObject :: (ms.reverse.flatMap fun m => Doc.memberLexeme m ++ [.comma]) ++
      [.string name, .colon]

def begun (frames : List Frame) : List Lexeme := frames.reverse.flatMap Frame.begun

@[simp] theorem begun_cons (f : Frame) (fs : List Frame) : begun (f :: fs) = begun fs ++ f.begun := by
  simp [begun]

namespace Assembly

def ReadAs (read : List Lexeme) : Assembly → Prop
  | .whole d => read = d.lexemes
  | .partly frames .value => read = begun frames
  | .partly frames .itemOrClose => read = begun frames ∧ ∃ fs, frames = .array [] :: fs
  | .partly frames .nameOrClose => read = begun frames ∧ ∃ fs, frames = .object [] :: fs
  | .partly frames .name => read = begun frames
  | .partly frames .colon => read ++ [.colon] = begun frames
  | .partly frames .commaOrClose => read ++ [.comma] = begun frames

variable {read : List Lexeme} {a a' : Assembly} {d : Doc} {frames fs : List Frame}

theorem readAs_put (hread : read = begun frames ++ d.lexemes) (h : put d frames = some a) :
    ReadAs read a := by
  match frames with
  | [] =>
    obtain rfl := Option.some.inj h
    exact hread
  | .array xs :: fs =>
    obtain rfl := Option.some.inj h
    simp [ReadAs, hread, Frame.begun]
  | .member ms name :: fs =>
    obtain rfl := Option.some.inj h
    simp [ReadAs, hread, Frame.begun, Doc.memberLexeme]
  | .object ms :: fs => cases h

theorem readAs_beginValue {x : Lexeme} (hread : read = begun frames)
    (h : beginValue frames x = some a) : ReadAs (read ++ [x]) a := by
  cases x <;> try cases h
  case null | bool | number | string => exact readAs_put (by simp [hread, Doc.lexemes]) h
  case openArray | openObject => simp [ReadAs, hread, Frame.begun]

theorem read_of_followed {α : Type} {f : α → List Lexeme} {l : List α} {before : List Lexeme}
    {x : Lexeme} (hx : x ≠ .comma)
    (h : read ++ [.comma] = before ++ x :: l.flatMap fun a => f a ++ [.comma]) :
    read = before ++ x :: [.comma].intercalate (l.map f) := by
  by_cases hl : l = []
  · subst hl
    have hlast := congrArg List.getLast? h
    simp only [List.flatMap_nil, List.getLast?_concat, Option.some.injEq] at hlast
    exact absurd hlast.symm hx
  · rw [flatMap_append_singleton f .comma hl, ← List.cons_append, ← List.append_assoc] at h
    exact List.append_cancel_right h

theorem readAs_closeArray {xs : List Doc} (h : put (.array xs.reverse) fs = some a)
    (hread : read ++ [.comma] = begun (.array xs :: fs) ∨
      read = begun (.array xs :: fs) ∧ xs = []) : ReadAs (read ++ [.closeArray]) a := by
  refine readAs_put ?_ h
  have hparts : read = begun fs ++ .openArray :: [.comma].intercalate (xs.reverse.map Doc.lexemes) := by
    rcases hread with hread | ⟨hread, rfl⟩
    · exact read_of_followed (by decide) (by simpa [Frame.begun] using hread)
    · simpa [Frame.begun] using hread
  simp [hparts, Doc.lexemes_array]

theorem readAs_closeObject {ms : List (List Piece × Doc)} (h : put (.object ms.reverse) fs = some a)
    (hread : read ++ [.comma] = begun (.object ms :: fs) ∨
      read = begun (.object ms :: fs) ∧ ms = []) : ReadAs (read ++ [.closeObject]) a := by
  refine readAs_put ?_ h
  have hparts : read =
      begun fs ++ .openObject :: [.comma].intercalate (ms.reverse.map Doc.memberLexeme) := by
    rcases hread with hread | ⟨hread, rfl⟩
    · exact read_of_followed (by decide) (by simpa [Frame.begun] using hread)
    · simpa [Frame.begun] using hread
  simp [hparts, Doc.lexemes_object]

theorem readAs_push {x : Lexeme} (hread : ReadAs read a) (h : push a x = some a') :
    ReadAs (read ++ [x]) a' := by
  unfold push at h
  -- the cases stand in the order of the equations of `push`
  split at h
  · cases h
  · exact readAs_beginValue hread h
  · obtain ⟨hread, fs', hfs⟩ := hread
    cases hfs
    exact readAs_closeArray h (.inr ⟨hread, rfl⟩)
  · exact readAs_beginValue hread.1 h
  · obtain ⟨hread, fs', hfs⟩ := hread
    cases hfs
    exact readAs_closeObject h (.inr ⟨hread, rfl⟩)
  · obtain rfl := Option.some.inj h
    simp [ReadAs, hread.1, Frame.begun]
  · obtain rfl := Option.some.inj h
    have hbegun : read = _ := hread
    simp [ReadAs, hbegun, Frame.begun]
  · obtain rfl := Option.some.inj h
    exact hread
  · obtain rfl := Option.some.inj h
    exact hread
  · exact readAs_closeArray h (.inl hread)
  · obtain rfl := Option.some.inj h
    exact hread
  · exact readAs_closeObject h (.inl hread)
  · cases h

theorem readAs_foldlM {more : List Lexeme} (hread : ReadAs read a)
    (h : more.foldlM push a = some a') : ReadAs (read ++ more) a' := by
  induction more generalizing read a with
  | nil =>
    obtain rfl := Option.some.inj h
    simpa using hread
  | cons x more ih =>
    obtain ⟨next, hnext, hrest⟩ := Option.bind_eq_some_iff.1 h
    have hafter := ih (readAs_push hread hnext) hrest
    simpa using hafter

end Assembly

/-- A document is read exactly from its lexemes. -/
theorem Doc.ofSymbols?_eq_some {symbols : List Symbol} {d : Doc} :
    Doc.ofSymbols? symbols = some d ↔ lexemes? symbols = some d.lexemes := by
  refine ⟨fun h => ?_, Doc.ofSymbols?_of_lexemes⟩
  rw [Doc.ofSymbols?_eq] at h
  obtain ⟨read, hread, built, hbuilt, hd⟩ : ∃ read, lexemes? symbols = some read ∧
      ∃ built, read.foldlM Assembly.push .empty = some built ∧ built.doc? = some d := by
    simpa only [Option.bind_eq_some_iff] using h
  have hempty : Assembly.ReadAs [] .empty := rfl
  have hreadAs := Assembly.readAs_foldlM hempty hbuilt
  cases built with
  | whole d' =>
    obtain rfl := Option.some.inj hd
    rw [hread]
    exact congrArg some hreadAs
  | partly frames expect => cases hd

section Marks

def Lexeme.mark? : Lexeme → Option Char
  | .openArray => some '['
  | .closeArray => some ']'
  | .openObject => some '\x7b'
  | .closeObject => some '\x7d'
  | .colon => some ':'
  | .comma => some ','
  | _ => none

namespace Scan

variable {scan next last : Scan} {a b symbols : List Symbol} {s : Symbol} {x y : List Lexeme}
  {p : Lexeme} {c : Char}

theorem start_mark (h : p.mark? = some c) : start (.char c) = some ([p], .blank) := by
  cases p <;> cases h <;> rfl

theorem continueNumber_mark (h : p.mark? = some c) (part : NumberPart) (n : Numeral) :
    continueNumber part n c = none := by
  cases p <;> cases h <;> cases part <;> rfl

theorem start_eq_some (h : start s = some (x, next)) : x = [] ∨
    ∃ p c, p.mark? = some c ∧ s = .char c ∧ x = [p] ∧ next = .blank := by
  cases s with
  | stray b => cases h
  | char c =>
    simp only [start] at h
    split_ifs at h <;> try (obtain ⟨rfl, -⟩ := Prod.mk.inj (Option.some.inj h); exact .inl rfl)
    split at h <;> cases h <;> first | exact .inl rfl | exact .inr ⟨_, _, rfl, rfl, rfl, rfl⟩

def Unmarked : Scan → Prop
  | .word _ result => result.mark? = none
  | _ => True

theorem unmarked_start (h : start s = some (x, next)) : next.Unmarked := by
  cases s with
  | stray b => cases h
  | char c =>
    simp only [start] at h
    split_ifs at h <;> try (obtain ⟨-, rfl⟩ := Prod.mk.inj (Option.some.inj h); trivial)
    split at h <;> cases h <;> trivial

theorem unmarked_continueNumber {part : NumberPart} {n : Numeral}
    (h : continueNumber part n c = some next) : next.Unmarked := by
  cases part <;> simp only [continueNumber] at h <;> split_ifs at h <;> cases h <;> trivial

theorem unmarked_insideString {part : EscapePart} {soFar : List Piece}
    (h : insideString part soFar s = some (x, next)) :
    next.Unmarked ∧ ∀ p ∈ x, p.mark? = none := by
  cases s with
  | stray b =>
    cases part <;> cases h
    exact ⟨trivial, by simp⟩
  | char c =>
    cases part with
    | none =>
      simp only [insideString] at h
      split_ifs at h <;> cases h <;> exact ⟨trivial, by simp [Lexeme.mark?]⟩
    | backslash =>
      simp only [insideString] at h
      split_ifs at h
      · cases h
        exact ⟨trivial, by simp⟩
      · obtain ⟨c', -, hc'⟩ := Option.map_eq_some_iff.1 h
        cases hc'
        exact ⟨trivial, by simp⟩
    | hex digits value =>
      obtain ⟨d, -, hd⟩ := Option.map_eq_some_iff.1 h
      split_ifs at hd <;> cases hd <;> exact ⟨trivial, by simp⟩

/-- A step gives no mark, or it is at the character of one and ends what was being read. -/
theorem step_eq_some (hscan : scan.Unmarked) (h : scan.step s = some (x, next)) :
    next.Unmarked ∧ ((∀ p ∈ x, p.mark? = none) ∨
      ∃ done p c, p.mark? = some c ∧ s = .char c ∧ x = done ++ [p] ∧ next = .blank ∧
        scan.finish = some done ∧ ∀ q ∈ done, q.mark? = none) := by
  cases scan with
  | blank =>
    refine ⟨unmarked_start h, ?_⟩
    rcases start_eq_some h with rfl | ⟨p, c, hp, rfl, rfl, rfl⟩
    · simp
    · exact .inr ⟨[], p, c, hp, rfl, rfl, rfl, rfl, by simp⟩
  | word rest result =>
    have hresult : result.mark? = none := hscan
    simp only [step] at h
    split at h
    · split_ifs at h
      cases h
      exact ⟨hscan, .inl (by simp)⟩
    · split_ifs at h
      cases h
      exact ⟨trivial, .inl (by simpa using hresult)⟩
    · cases h
  | number part n =>
    simp only [step] at h
    split at h
    · rename_i scan' hcontinued
      cases h
      cases s with
      | stray b => cases hcontinued
      | char c => exact ⟨unmarked_continueNumber hcontinued, .inl (by simp)⟩
    · simp only [Option.bind_eq_bind, Option.bind_eq_some_iff] at h
      obtain ⟨done, hdone, ⟨more, scan'⟩, hstart, hx⟩ := h
      cases hx
      have hnumber : done.mark? = none := by
        cases part <;> cases hdone <;> rfl
      refine ⟨unmarked_start hstart, ?_⟩
      rcases start_eq_some hstart with rfl | ⟨p, c, hp, rfl, rfl, rfl⟩
      · exact .inl (by simpa using hnumber)
      · exact .inr ⟨[done], p, c, hp, rfl, rfl, rfl, by simp [finish, hdone], by simpa using hnumber⟩
  | string part soFar =>
    obtain ⟨hnext, hx⟩ := unmarked_insideString h
    exact ⟨hnext, .inl hx⟩

theorem mark_is_last {q : Lexeme} {done : List Lexeme} (hp : p.mark? = some c)
    (hdone : ∀ q ∈ done, q.mark? = none) (h : x ++ p :: y = done ++ [q]) :
    x = done ∧ p = q ∧ y = [] := by
  rcases List.eq_nil_or_concat y with rfl | ⟨y, r, rfl⟩
  · obtain ⟨hx, hq⟩ := List.append_inj' h rfl
    exact ⟨hx, List.singleton_inj.1 hq, rfl⟩
  · rw [List.concat_eq_append, ← List.cons_append, ← List.append_assoc] at h
    obtain ⟨rfl, -⟩ := List.append_inj' h rfl
    rw [hdone p (by simp)] at hp
    cases hp

theorem run_cut (hp : p.mark? = some c) (hscan : scan.Unmarked)
    (h : scan.run symbols = some (x ++ p :: y, last)) :
    ∃ a b done middle rest, symbols = a ++ .char c :: b ∧ scan.run a = some (done, middle) ∧
      middle.finish = some rest ∧ done ++ rest = x ∧ blank.run b = some (y, last) := by
  induction symbols generalizing scan x with
  | nil => simp [run] at h
  | cons s symbols ih =>
    simp only [run, Option.bind_eq_bind, Option.bind_eq_some_iff, Option.pure_def,
      Option.some.injEq, Prod.mk.injEq] at h
    obtain ⟨⟨first, next⟩, hstep, ⟨more, last'⟩, hmore, hall, hlast⟩ := h
    dsimp only at hmore hall hlast
    subst hlast
    obtain ⟨hnext, hfirst⟩ := step_eq_some hscan hstep
    have hlater (x' : List Lexeme) (hxs : x = first ++ x') (hms : more = x' ++ p :: y) :
        ∃ a b done middle rest, s :: symbols = a ++ .char c :: b ∧
          scan.run a = some (done, middle) ∧ middle.finish = some rest ∧ done ++ rest = x ∧
          blank.run b = some (y, last') := by
      obtain ⟨a, b, done, middle, rest, rfl, ha, hrest, rfl, hb⟩ := ih hnext (hms ▸ hmore)
      exact ⟨s :: a, b, first ++ done, middle, rest, rfl, run_cons hstep ha, hrest, by simp [hxs], hb⟩
    rcases List.append_eq_append_iff.1 hall with ⟨x', hx', hms⟩ | ⟨y', hx', hys⟩
    · exact hlater x' hx' hms
    cases y' with
    | nil => exact hlater [] (by simpa using hx'.symm) hys.symm
    | cons p' y' =>
      obtain ⟨rfl, rfl⟩ := List.cons.inj hys
      -- the mark is among the lexemes of this step, so it is the last of them
      rcases hfirst with hnone | ⟨done, q, c', hq, rfl, hdone, rfl, hfinish, hunmarked⟩
      · have hmem : p ∈ first := by
          rw [hx']
          simp
        rw [hnone p hmem] at hp
        cases hp
      · obtain ⟨rfl, rfl, rfl⟩ := mark_is_last hp hunmarked (hx'.symm.trans hdone)
        obtain rfl : c = c' := Option.some.inj (hp.symm.trans hq)
        exact ⟨[], symbols, [], scan, x, rfl, rfl, hfinish, rfl, hmore⟩

theorem run_mark (hp : p.mark? = some c) {middle : Scan} {done rest : List Lexeme}
    (ha : scan.run a = some (done, middle)) (hrest : middle.finish = some rest)
    (hb : blank.run b = some (y, last)) :
    scan.run (a ++ .char c :: b) = some (done ++ rest ++ p :: y, last) := by
  have hstep := step_delimiter (continueNumber_mark hp) hrest (start_mark hp)
  simpa using run_append ha (run_cons hstep hb)

theorem finish_unmarked {rest : List Lexeme} (h : scan.finish = some rest) :
    ∀ q ∈ rest, q.mark? = none := by
  cases scan with
  | blank =>
    obtain rfl : [] = rest := Option.some.inj h
    simp
  | number part n =>
    obtain ⟨done, hdone, rfl⟩ := Option.map_eq_some_iff.1 h
    cases part <;> cases hdone <;> simp [Lexeme.mark?]
  | word | string => cases h

end Scan

open Scan

variable {symbols : List Symbol} {text : List Char} {x y : List Lexeme} {p : Lexeme} {c : Char}

theorem lexemes?_mark (hp : p.mark? = some c) : lexemes? symbols = some (x ++ p :: y) ↔
    ∃ a b, symbols = a ++ .char c :: b ∧ lexemes? a = some x ∧ lexemes? b = some y := by
  constructor
  · intro h
    simp only [lexemes?, Option.bind_eq_bind, Option.bind_eq_some_iff] at h
    obtain ⟨⟨done, last⟩, hrun, rest, hrest, hx⟩ := h
    have hblank : Scan.blank.Unmarked := trivial
    obtain ⟨y', rfl, rfl⟩ : ∃ y', done = x ++ p :: y' ∧ y = y' ++ rest := by
      rcases List.append_eq_append_iff.1 (Option.some.inj hx) with ⟨x', -, hms⟩ | ⟨y', hx', hys⟩
      · rw [finish_unmarked hrest p (by simp [hms])] at hp
        cases hp
      · cases y' with
        | nil =>
          obtain rfl : p :: y = rest := hys
          rw [finish_unmarked hrest p (by simp)] at hp
          cases hp
        | cons p' y' =>
          obtain ⟨rfl, hy⟩ := List.cons.inj hys
          exact ⟨y', hx', hy⟩
    obtain ⟨a, b, done, middle, rest', rfl, ha, hrest', rfl, hb⟩ := run_cut hp hblank hrun
    exact ⟨a, b, rfl, by simp [lexemes?, ha, hrest'], by simp [lexemes?, hb, hrest]⟩
  · rintro ⟨a, b, rfl, ha, hb⟩
    simp only [lexemes?, Option.bind_eq_bind, Option.bind_eq_some_iff] at ha hb
    obtain ⟨⟨done, middle⟩, ha, rest, hrest, hx⟩ := ha
    obtain ⟨⟨more, last⟩, hb, rest', hrest', hy⟩ := hb
    obtain rfl := Option.some.inj hx
    obtain rfl := Option.some.inj hy
    simp [lexemes?, run_mark hp ha hrest hb, hrest']

open BearerAccess.Symbol (ofText)

theorem lexemes?_ofText_mark (hp : p.mark? = some c) :
    lexemes? (ofText text) = some (x ++ p :: y) ↔
      ∃ a b, text = a ++ c :: b ∧ lexemes? (ofText a) = some x ∧ lexemes? (ofText b) = some y := by
  rw [lexemes?_mark hp]
  constructor
  · rintro ⟨a, b, htext, ha, hb⟩
    obtain ⟨a, b', rfl, rfl, hb'⟩ := List.map_eq_append_iff.1 htext
    obtain ⟨c', b, rfl, hc, rfl⟩ := List.map_eq_cons_iff.1 hb'
    cases hc
    exact ⟨a, b, rfl, ha, hb⟩
  · rintro ⟨a, b, rfl, ha, hb⟩
    exact ⟨ofText a, ofText b, by simp [ofText], ha, hb⟩

end Marks

end BearerAccess.Json
