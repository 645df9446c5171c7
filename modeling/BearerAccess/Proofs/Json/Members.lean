import BearerAccess.Json.Record
import Mathlib.Data.List.Basic
set_option autoImplicit false

namespace BearerAccess.Json

theorem named?_of_mem {members : List (List Piece × Doc)} {all : Fields}
    (h : named? members = some all) {m : List Piece × Doc} (hm : m ∈ members) :
    ∃ name, spelling? m.1 = some name ∧ (String.ofList name, m.2) ∈ all := by
  induction members generalizing all with
  | nil => cases hm
  | cons first members ih =>
    obtain ⟨n, d⟩ := first
    simp only [named?, Option.bind_eq_bind, Option.bind_eq_some_iff] at h
    obtain ⟨name, hname, rest, hrest, hall⟩ := h
    obtain rfl : (String.ofList name, d) :: rest = all := Option.some.inj hall
    rcases List.mem_cons.1 hm with rfl | hm
    · exact ⟨name, hname, .head _⟩
    · obtain ⟨other, hother, hmem⟩ := ih hrest hm
      exact ⟨other, hother, .tail _ hmem⟩

theorem named?_append (a b : List (List Piece × Doc)) :
    named? (a ++ b) = (named? a).bind fun x => (named? b).map (x ++ ·) := by
  induction a with
  | nil => simp [named?]
  | cons first a ih =>
    obtain ⟨n, d⟩ := first
    simp only [List.cons_append, named?, ih]
    cases spelling? n <;> cases named? a <;> cases named? b <;> rfl

theorem named?_without {members : List (List Piece × Doc)} {name : String}
    (h : ∀ m ∈ members, ∃ other, spelling? m.1 = some other ∧ other ≠ name.toList) :
    ∃ all, named? members = some all ∧ ∀ f ∈ all, f.1 ≠ name := by
  induction members with
  | nil => exact ⟨[], rfl, by simp⟩
  | cons first members ih =>
    obtain ⟨n, d⟩ := first
    obtain ⟨other, hother, hne⟩ := h _ (.head _)
    obtain ⟨all, hall, hrest⟩ := ih fun m hm => h m (.tail _ hm)
    refine ⟨(String.ofList other, d) :: all, by simp only [named?, hother, hall]; rfl, ?_⟩
    rw [List.forall_mem_cons]
    exact ⟨fun he => hne (by simp [← he]), hrest⟩

theorem named?_split {members : List (List Piece × Doc)} {x y : Fields} {f : String × Doc}
    (h : named? members = some (x ++ f :: y)) :
    ∃ before name after, members = before ++ (name, f.2) :: after ∧ named? before = some x ∧
      spelling? name = some f.1.toList ∧ named? after = some y := by
  induction members generalizing x with
  | nil => simp [named?] at h
  | cons first members ih =>
    obtain ⟨n, d⟩ := first
    simp only [named?, Option.bind_eq_bind, Option.bind_eq_some_iff] at h
    obtain ⟨name, hname, rest, hrest, hall⟩ := h
    have hcons : (String.ofList name, d) :: rest = x ++ f :: y := Option.some.inj hall
    cases x with
    | nil =>
      obtain ⟨rfl, rfl⟩ := List.cons.inj hcons
      exact ⟨[], n, members, rfl, rfl, by simpa using hname, hrest⟩
    | cons g x =>
      obtain ⟨rfl, rfl⟩ := List.cons.inj hcons
      obtain ⟨before, name', after, rfl, hbefore, hname', hafter⟩ := ih hrest
      exact ⟨(n, d) :: before, name', after, rfl, by simp only [named?, hname, hbefore]; rfl,
        hname', hafter⟩

theorem Fields.lookup_cons (fields : Fields) (name other : String) (d : Doc) :
    List.lookup name ((other, d) :: fields) =
      if name = other then some d else fields.lookup name := by
  by_cases h : name = other
  · simp [h]
  · have hne : (name == other) = false := by simpa using h
    simp [List.lookup_cons, h, hne]

theorem Fields.lookup_filter {fields : Fields} {keep : String → Bool} {name : String}
    (h : keep name = true) :
    (fields.filter fun m => keep m.1).lookup name = fields.lookup name := by
  induction fields with
  | nil => rfl
  | cons m fields ih =>
    obtain ⟨n, d⟩ := m
    by_cases hn : name = n
    · subst hn
      simp [h]
    · cases hk : keep n <;> simp [hk, Fields.lookup_cons, hn, ih]

theorem lookup_eq_some_of_nodup {fields : Fields} {name : String} {d : Doc}
    (hname : ∀ f ∈ fields, f.1 = name) (hnodup : (fields.map Prod.fst).Nodup) :
    fields.lookup name = some d ↔ fields = [(name, d)] := by
  match fields with
  | [] => simp
  | [(n, e)] =>
    obtain rfl := hname _ (.head _)
    simp
  | f :: g :: more =>
    simp [hname f (.head _), hname g (.tail _ (.head _))] at hnodup

theorem Doc.only_field {members : List (List Piece × Doc)} {name : String} {d : Doc} :
    (((Doc.object members).fields? [name]).bind fun fields => fields.lookup name) = some d ↔
      ∃ x y, named? members = some (x ++ (name, d) :: y) ∧ ∀ f ∈ x ++ y, f.1 ≠ name := by
  have hkept (all : Fields) : ∀ f ∈ all.filter (fun m => [name].contains m.1), f.1 = name :=
    fun f hf => by simpa using (List.mem_filter.1 hf).2
  have hdropped {all : Fields} (h : ∀ f ∈ all, f.1 ≠ name) :
      all.filter (fun m => [name].contains m.1) = [] :=
    List.filter_eq_nil_iff.2 fun f hf => by simpa using h f hf
  constructor
  · intro h
    obtain ⟨fields, hfields, hd⟩ := Option.bind_eq_some_iff.1 h
    obtain ⟨all, hall, hknown⟩ := Option.bind_eq_some_iff.1 hfields
    simp only at hknown
    split at hknown
    · rename_i hnodup
      obtain rfl := Option.some.inj hknown
      have hone := (lookup_eq_some_of_nodup (hkept all) hnodup).1 hd
      obtain ⟨x, y, rfl, hx, -, hy⟩ := List.filter_eq_cons_iff.1 hone
      refine ⟨x, y, hall, fun f hf => ?_⟩
      rcases List.mem_append.1 hf with hf | hf
      · simpa using hx f hf
      · simpa using List.filter_eq_nil_iff.1 hy f hf
    · cases hknown
  · rintro ⟨x, y, hall, hothers⟩
    have hfilter : (x ++ (name, d) :: y).filter (fun m => [name].contains m.1) = [(name, d)] := by
      rw [List.filter_append, List.filter_cons_of_pos (by simp),
        hdropped fun f hf => hothers f (List.mem_append_left _ hf),
        hdropped fun f hf => hothers f (List.mem_append_right _ hf), List.nil_append]
    simp only [Doc.fields?, hall, Option.bind_some, hfilter]
    simp

end BearerAccess.Json
