import BearerAccess.Text.Blank
import Mathlib.Data.List.Basic
/-!
The words of a text, found by their places. A word stands wherever a run of characters that are not
blank has a blank, or an end of the text, on either side; the words of a text are these runs in the
order in which they stand there, one for each place.
-/
set_option autoImplicit false

namespace BearerAccess

structure IsWord (w : List Char) : Prop where
  nonempty : w ≠ []
  unbroken : ∀ c ∈ w, isBlank c = false

/-- A text cut around a run of characters that are not blank and that goes on on neither side. -/
structure CutAround (text before w after : List Char) : Prop where
  whole : text = before ++ w ++ after
  word : IsWord w
  left : ∀ c ∈ before.getLast?, isBlank c = true
  right : ∀ c ∈ after.head?, isBlank c = true

def WordAt (text : List Char) (place : Nat) (w : List Char) : Prop :=
  ∃ before after, CutAround text before w after ∧ before.length = place

/-- All words of a text with their places, one after the other. -/
structure WordsOf (text : List Char) (placed : List (Nat × List Char)) : Prop where
  ordered : (placed.map Prod.fst).Pairwise (· < ·)
  all : ∀ place w, (place, w) ∈ placed ↔ WordAt text place w

/-- Words written one after the other, each with the gap behind it. Blanks may stand around all of
them, and do stand between any two. -/
structure Spaced where
  lead : List Char
  parts : List (List Char × List Char)
  lead_blank : ∀ c ∈ lead, isBlank c = true
  isWord : ∀ part ∈ parts, IsWord part.1
  gap_blank : ∀ part ∈ parts, ∀ c ∈ part.2, isBlank c = true
  apart : ∀ gap ∈ (parts.map Prod.snd).dropLast, gap ≠ []

namespace Spaced

def written (s : Spaced) : List Char := s.lead ++ s.parts.flatMap fun part => part.1 ++ part.2

def words (s : Spaced) : List (List Char) := s.parts.map Prod.fst

end Spaced

variable {text w gap x y : List Char} {b : Char} {place : Nat}

theorem words_append_blank (hb : isBlank b = true) (x y : List Char) :
    words (x ++ b :: y) = words x ++ words y := by
  rw [words, List.splitOnP_append_cons x y hb, List.filter_append]
  rfl

theorem IsWord.words_eq (hw : IsWord w) : words w = [w] := by
  rw [words, List.splitOnP_eq_singleton hw.unbroken]
  simp [hw.nonempty]

theorem words_gap (hgap : ∀ c ∈ gap, isBlank c = true) (text : List Char) :
    words (gap ++ text) = words text := by
  induction gap with
  | nil => rfl
  | cons b gap ih =>
    obtain ⟨hb, hgap⟩ := List.forall_mem_cons.1 hgap
    have hfirst := words_append_blank hb [] (gap ++ text)
    rw [List.nil_append, words_nil, List.nil_append, ih hgap] at hfirst
    exact hfirst

theorem IsWord.words_append (hw : IsWord w) (hgap : ∀ c ∈ gap, isBlank c = true)
    (hapart : gap = [] → text = []) : words (w ++ (gap ++ text)) = w :: words text := by
  cases gap with
  | nil => rw [hapart rfl, List.append_nil, List.append_nil, hw.words_eq, words_nil]
  | cons b gap =>
    obtain ⟨hb, hgap⟩ := List.forall_mem_cons.1 hgap
    rw [List.cons_append, words_append_blank hb, hw.words_eq, words_gap hgap]
    rfl

theorem Spaced.words_written (s : Spaced) : BearerAccess.words s.written = s.words := by
  obtain ⟨lead, parts, hlead, hword, hgap, hapart⟩ := s
  rw [written, words_gap hlead, words]
  induction parts with
  | nil => exact words_nil
  | cons part parts ih =>
    obtain ⟨hfirst, hword⟩ := List.forall_mem_cons.1 hword
    obtain ⟨hblank, hgap⟩ := List.forall_mem_cons.1 hgap
    by_cases hlast : parts = []
    · subst hlast
      simpa using hfirst.words_append hblank fun _ => rfl
    · rw [List.map_cons, List.dropLast_cons_of_ne_nil (by simpa using hlast)] at hapart
      obtain ⟨hne, hapart⟩ := List.forall_mem_cons.1 hapart
      dsimp only
      rw [List.flatMap_cons, List.append_assoc,
        hfirst.words_append hblank fun hnone => absurd hnone hne, ih hword hgap hapart,
        List.map_cons]

section Places

theorem blank_induction {P : List Char → Prop}
    (unbroken : ∀ x, (∀ c ∈ x, isBlank c = false) → P x)
    (append : ∀ x b y, isBlank b = true → P x → P y → P (x ++ b :: y)) (text : List Char) :
    P text := by
  by_cases hplain : ∀ c ∈ text, isBlank c = false
  · exact unbroken text hplain
  · simp only [not_forall, Bool.not_eq_false, exists_prop] at hplain
    obtain ⟨b, hmem, hb⟩ := hplain
    obtain ⟨x, y, htext⟩ := List.append_of_mem hmem
    have hx : x.length < text.length := by simp [htext]
    have hy : y.length < text.length := by simp [htext]; omega
    rw [htext]
    exact append x b y hb (blank_induction unbroken append x) (blank_induction unbroken append y)
termination_by text.length

theorem wordAt_of_unbroken (htext : ∀ c ∈ text, isBlank c = false) :
    WordAt text place w ↔ place = 0 ∧ w = text ∧ text ≠ [] := by
  constructor
  · rintro ⟨before, after, hcut, rfl⟩
    obtain rfl := hcut.whole
    have hnone {o : Option Char} (hmem : ∀ c ∈ o, c ∈ before ++ w ++ after)
        (hblank : ∀ c ∈ o, isBlank c = true) : o = none :=
      Option.eq_none_iff_forall_not_mem.2 fun c hc => by
        simpa [htext c (hmem c hc)] using hblank c hc
    have hbefore : before = [] := List.getLast?_eq_none_iff.1
      (hnone (fun c hc => by simp [List.mem_of_getLast? hc]) hcut.left)
    have hafter : after = [] := List.head?_eq_none_iff.1
      (hnone (fun c hc => by simp [List.mem_of_head? hc]) hcut.right)
    simp [hbefore, hafter, hcut.word.nonempty]
  · rintro ⟨rfl, rfl, hne⟩
    exact ⟨[], [], ⟨by simp, ⟨hne, htext⟩, by simp, by simp⟩, rfl⟩

theorem CutAround.append_right {before after : List Char} (h : CutAround x before w after)
    (hb : isBlank b = true) (y : List Char) :
    CutAround (x ++ b :: y) before w (after ++ b :: y) where
  whole := by simp [h.whole]
  word := h.word
  left := h.left
  right := by
    intro c hc
    cases after with
    | nil => simpa [← Option.some.inj hc] using hb
    | cons a after => exact h.right c hc

theorem CutAround.append_left {before after : List Char} (h : CutAround y before w after)
    (hb : isBlank b = true) (x : List Char) :
    CutAround (x ++ b :: y) (x ++ b :: before) w after where
  whole := by simp [h.whole]
  word := h.word
  left := by
    intro c hc
    obtain rfl : before.getLast?.getD b = c := by
      simpa [List.getLast?_append, List.getLast?_cons] using hc
    cases hlast : before.getLast? with
    | none => exact hb
    | some a => exact h.left a hlast
  right := h.right

/-- A word does not reach over a blank: it stands before it or behind it. -/
theorem CutAround.of_append {before after : List Char}
    (h : CutAround (x ++ b :: y) before w after) (hb : isBlank b = true) :
    (∃ rest, CutAround x before w rest) ∨
      ∃ rest, before = x ++ b :: rest ∧ CutAround y rest w after := by
  obtain ⟨hwhole, hword, hleft, hright⟩ := h
  have hw : b ∉ w := fun hmem => by
    simpa [hb] using hword.unbroken b hmem
  rcases List.append_eq_append_iff.1 hwhole with ⟨m, hstart, hrest⟩ | ⟨m, hx, hafter⟩
  · rcases List.cons_eq_append_iff.1 hrest with ⟨rfl, -⟩ | ⟨m, rfl, hy⟩
    · exact .inl ⟨[], ⟨by simpa using hstart.symm, hword, hleft, by simp⟩⟩
    -- the word ends behind the blank, so it has to begin there
    · rcases List.append_eq_append_iff.1 hstart with ⟨k, -, hm⟩ | ⟨k, hbefore, hm⟩
      · exact absurd (by simp [hm]) hw
      · rcases List.cons_eq_append_iff.1 hm with ⟨-, hbegun⟩ | ⟨rest, rfl, hrest⟩
        · exact absurd (by simp [hbegun]) hw
        · refine .inr ⟨rest, hbefore, ⟨by rw [hy, hrest], hword, fun c hc => hleft c ?_, hright⟩⟩
          rw [hbefore, List.getLast?_append, List.getLast?_cons, Option.mem_def.1 hc]
          rfl
  · refine .inl ⟨m, ⟨hx, hword, hleft, fun c hc => hright c ?_⟩⟩
    rw [hafter, List.head?_append, Option.mem_def.1 hc]
    rfl

theorem wordAt_append_blank (hb : isBlank b = true) : WordAt (x ++ b :: y) place w ↔
    WordAt x place w ∨ ∃ later, WordAt y later w ∧ x.length + 1 + later = place := by
  constructor
  · rintro ⟨before, after, hcut, rfl⟩
    rcases hcut.of_append hb with ⟨rest, hx⟩ | ⟨rest, rfl, hy⟩
    · exact .inl ⟨before, rest, hx, rfl⟩
    · exact .inr ⟨rest.length, ⟨rest, after, hy, rfl⟩, by simp; omega⟩
  · rintro (⟨before, after, hcut, rfl⟩ | ⟨_, ⟨before, after, hcut, rfl⟩, rfl⟩)
    · exact ⟨before, _, hcut.append_right hb y, rfl⟩
    · exact ⟨_, after, hcut.append_left hb x, by simp; omega⟩

theorem WordAt.lt_length (h : WordAt text place w) : place < text.length := by
  obtain ⟨before, after, hcut, rfl⟩ := h
  have hpos := List.length_pos_iff.2 hcut.word.nonempty
  simp only [hcut.whole, List.length_append]
  omega

theorem WordsOf.append {placed placed' : List (Nat × List Char)} (hx : WordsOf x placed)
    (hb : isBlank b = true) (hy : WordsOf y placed') :
    WordsOf (x ++ b :: y) (placed ++ placed'.map fun r => (x.length + 1 + r.1, r.2)) where
  ordered := by
    rw [List.map_append, List.map_map, List.pairwise_append]
    refine ⟨hx.ordered, ?_, ?_⟩
    · refine List.pairwise_map.2 ((List.pairwise_map.1 hy.ordered).imp fun {r s} hlt => ?_)
      exact Nat.add_lt_add_left hlt _
    · intro place hplace later hlater
      obtain ⟨⟨place, w⟩, hmem, rfl⟩ := List.mem_map.1 hplace
      obtain ⟨r, -, rfl⟩ := List.mem_map.1 hlater
      have hlt := ((hx.all place w).1 hmem).lt_length
      dsimp only [Function.comp_apply]
      omega
  all place w := by
    rw [wordAt_append_blank hb, List.mem_append, hx.all]
    refine or_congr_right ?_
    simp only [List.mem_map, Prod.exists, Prod.mk.injEq, hy.all]
    constructor
    · rintro ⟨later, _, hlater, hplace, rfl⟩
      exact ⟨later, hlater, hplace⟩
    · rintro ⟨later, hlater, hplace⟩
      exact ⟨later, w, hlater, hplace, rfl⟩

theorem exists_wordsOf (text : List Char) :
    ∃ placed, WordsOf text placed ∧ placed.map Prod.snd = words text := by
  induction text using blank_induction with
  | unbroken x hx =>
    by_cases hne : x = []
    · subst hne
      exact ⟨[], ⟨by simp, fun place w => by simp [wordAt_of_unbroken hx]⟩, rfl⟩
    · refine ⟨[(0, x)], ⟨by simp, fun place w => ?_⟩, (IsWord.words_eq ⟨hne, hx⟩).symm⟩
      simp [wordAt_of_unbroken hx, hne]
  | append x b y hb ihx ihy =>
    obtain ⟨placed, hx, hwords⟩ := ihx
    obtain ⟨placed', hy, hwords'⟩ := ihy
    refine ⟨_, hx.append hb hy, ?_⟩
    rw [words_append_blank hb, ← hwords, ← hwords', List.map_append, List.map_map]
    rfl

theorem mem_words : w ∈ words text ↔ ∃ place, WordAt text place w := by
  obtain ⟨placed, hplaced, hwords⟩ := exists_wordsOf text
  rw [← hwords]
  simp [hplaced.all]

end Places

end BearerAccess
