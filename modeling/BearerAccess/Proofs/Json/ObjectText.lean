import BearerAccess.Proofs.Json.Cutting
import BearerAccess.Proofs.Json.RoundTrip
import BearerAccess.Proofs.Json.Stated
/-!
The text of an object: the texts of its members between commas and braces, with blanks wherever they
may stand. Every text that is read as an object is one of these, so what is said of all of them
is said of all texts of objects.
-/
set_option autoImplicit false

namespace BearerAccess.Json

open BearerAccess.Symbol (ofText)

/-- The text of a member, and the member that is cut from it. -/
structure MemberText where
  text : List Char
  member : List Piece × Doc
  cut : lexemes? (ofText text) = some (Doc.memberLexeme member)

def Blank (text : List Char) : Prop := lexemes? (ofText text) = some []

structure ObjectText where
  before : List Char
  inside : List Char
  members : List MemberText
  after : List Char
  before_blank : Blank before
  inside_blank : Blank inside
  after_blank : Blank after

def MemberText.joined (members : List MemberText) : List Char :=
  [','].intercalate (members.map text)

namespace ObjectText

def text (o : ObjectText) : String :=
  String.ofList (o.before ++ '\x7b' :: (o.inside ++ MemberText.joined o.members ++
    '\x7d' :: o.after))

def doc (o : ObjectText) : Doc := .object (o.members.map MemberText.member)

end ObjectText

theorem Blank.lexemes?_append {a b : List Char} {y : List Lexeme} (ha : Blank a)
    (hb : lexemes? (ofText b) = some y) : lexemes? (ofText (a ++ b)) = some y := by
  simp only [Blank, lexemes?, Option.bind_eq_bind, Option.bind_eq_some_iff, Option.pure_def,
    Option.some.injEq, List.append_eq_nil_iff] at ha
  obtain ⟨⟨done, middle⟩, hrun, rest, hrest, rfl, rfl⟩ := ha
  obtain rfl : middle = .blank := by
    cases middle with
    | blank => rfl
    | number part n => simp [Scan.finish] at hrest
    | word | string => cases hrest
  simp only [lexemes?, Option.bind_eq_bind, Option.bind_eq_some_iff] at hb
  obtain ⟨⟨more, last⟩, hmore, hfinish⟩ := hb
  have hall := Scan.run_append hrun hmore
  simpa [lexemes?, hall, Option.bind_eq_some_iff] using hfinish

namespace MemberText

theorem joined_cons (m : MemberText) {members : List MemberText} (h : members ≠ []) :
    joined (m :: members) = m.text ++ ',' :: joined members := by
  match members with
  | m' :: members => simp [joined, List.intercalate_cons_cons]

theorem lexemes?_joined (members : List MemberText) : lexemes? (ofText (joined members)) =
    some ([.comma].intercalate (members.map fun m => Doc.memberLexeme m.member)) := by
  match members with
  | [] => rfl
  | [m] => simpa [joined] using m.cut
  | m :: m' :: members =>
    have hcut := (lexemes?_ofText_mark (p := .comma) rfl).2
      ⟨m.text, _, rfl, m.cut, lexemes?_joined (m' :: members)⟩
    simpa [joined_cons, List.intercalate_cons_cons] using hcut

theorem exists_joined {text : List Char} {ms : List (List Piece × Doc)} (hms : ms ≠ [])
    (h : lexemes? (ofText text) = some ([.comma].intercalate (ms.map Doc.memberLexeme))) :
    ∃ members : List MemberText, members.map member = ms ∧ joined members = text := by
  induction ms generalizing text with
  | nil => exact absurd rfl hms
  | cons m ms ih =>
    match ms with
    | [] => exact ⟨[⟨text, m, by simpa using h⟩], rfl, by simp [joined]⟩
    | m' :: ms =>
      rw [List.map_cons, List.map_cons, List.intercalate_cons_cons] at h
      obtain ⟨a, b, rfl, ha, hb⟩ := (lexemes?_ofText_mark (p := .comma) rfl).1 (by simpa using h)
      obtain ⟨members, hmembers, rfl⟩ := ih (by simp) hb
      have hne : members ≠ [] := by
        rintro rfl
        cases hmembers
      exact ⟨⟨a, m, ha⟩ :: members, by simp [hmembers], joined_cons _ hne⟩

end MemberText

namespace ObjectText

theorem ofText?_text (o : ObjectText) : Doc.ofText? o.text = some o.doc := by
  rw [Doc.ofText?, text, String.toList_ofList, Doc.ofSymbols?_eq_some, doc, Doc.lexemes_object,
    List.map_map]
  have hmembers := o.inside_blank.lexemes?_append (MemberText.lexemes?_joined o.members)
  have hclosed := (lexemes?_ofText_mark (p := .closeObject) rfl).2
    ⟨_, o.after, rfl, hmembers, o.after_blank⟩
  exact (lexemes?_ofText_mark (p := .openObject) (x := []) rfl).2
    ⟨o.before, _, rfl, o.before_blank, hclosed⟩

theorem exists_of_ofText? {text : String} {ms : List (List Piece × Doc)}
    (h : Doc.ofText? text = some (.object ms)) :
    ∃ o : ObjectText, o.text = text ∧ o.members.map MemberText.member = ms := by
  rw [Doc.ofText?, Doc.ofSymbols?_eq_some, Doc.lexemes_object] at h
  obtain ⟨before, b, htext, hbefore, hb⟩ :=
    (lexemes?_ofText_mark (p := .openObject) (x := []) rfl).1 h
  obtain ⟨between, after, rfl, hbetween, hafter⟩ :=
    (lexemes?_ofText_mark (p := .closeObject) rfl).1 hb
  obtain ⟨inside, members, rfl, hinside, hmembers⟩ : ∃ inside members,
      inside ++ MemberText.joined members = between ∧ Blank inside ∧
        members.map MemberText.member = ms := by
    by_cases hms : ms = []
    · subst hms
      exact ⟨between, [], by simp [MemberText.joined], hbetween, rfl⟩
    · obtain ⟨members, hmembers, rfl⟩ := MemberText.exists_joined hms hbetween
      exact ⟨[], members, rfl, rfl, hmembers⟩
  refine ⟨⟨before, inside, members, after, hbefore, hinside, hafter⟩, ?_, hmembers⟩
  rw [ObjectText.text, ← htext, String.ofList_toList]

end ObjectText

/-- One change of the members of an object that leaves those with the given names as they are. -/
inductive Edit (names : List String) : List MemberText → List MemberText → Prop where
  | permuted {members members' : List MemberText} : members.Perm members' →
      Edit names members members'
  | inserted {before after : List MemberText} {m : MemberText} {name : String} :
      Called name m.member → name ∉ names → Edit names (before ++ after) (before ++ m :: after)
  | deleted {before after : List MemberText} {m : MemberText} :
      (∀ name ∈ names, ¬Called name m.member) →
      Edit names (before ++ m :: after) (before ++ after)

def Edits (names : List String) : List MemberText → List MemberText → Prop :=
  Relation.ReflTransGen (Edit names)

theorem Edit.agreesOn {names : List String} {members members' : List MemberText}
    (h : Edit names members members') : (Doc.object (members.map MemberText.member)).AgreesOn names
      (.object (members'.map MemberText.member)) := by
  cases h with
  | permuted h => exact Doc.agreesOn_perm (h.map _)
  | @inserted before after m name hcalled hname =>
    refine (Doc.agreesOn_cons hcalled hname).trans (Doc.agreesOn_perm ?_)
    exact (List.perm_middle (a := m)).symm.map MemberText.member
  | @deleted before after m hm =>
    refine (Doc.agreesOn_perm ?_).trans (Doc.agreesOn_tail hm)
    exact (List.perm_middle (a := m)).map MemberText.member

theorem Edits.agreesOn {names : List String} {members members' : List MemberText}
    (h : Edits names members members') : (Doc.object (members.map MemberText.member)).AgreesOn names
      (.object (members'.map MemberText.member)) := by
  induction h with
  | refl => exact ⟨id, fun _ _ _ => Iff.rfl⟩
  | tail _ hedit ih => exact ih.trans hedit.agreesOn

end BearerAccess.Json
