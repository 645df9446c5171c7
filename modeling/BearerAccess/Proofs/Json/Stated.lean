import BearerAccess.Proofs.Json.Members
import Mathlib.Data.List.Forall2
import Mathlib.Data.List.Nodup
/-!
What a record states. An object states under a name what its member of that name holds, an array
what stands at the name's place. Reading a record finds for each field what is stated under its
name, so a record is read from all documents that state the same, whatever else these hold.
-/
set_option autoImplicit false

namespace BearerAccess.Json

def Called (name : String) (m : List Piece × Doc) : Prop := spelling? m.1 = some name.toList

theorem Called.unique {name other : String} {m : List Piece × Doc} (h : Called name m)
    (h' : Called other m) : name = other :=
  String.toList_inj.1 (Option.some.inj (h.symm.trans h'))

def Gives (m : List Piece × Doc) (f : String × Doc) : Prop := Called f.1 m ∧ m.2 = f.2

theorem named?_eq_some {members : List (List Piece × Doc)} {all : Fields} :
    named? members = some all ↔ List.Forall₂ Gives members all := by
  induction members generalizing all with
  | nil => cases all <;> simp [named?]
  | cons m members ih =>
    obtain ⟨n, d⟩ := m
    simp only [named?, Option.bind_eq_bind, Option.bind_eq_some_iff]
    constructor
    · rintro ⟨name, hname, rest, hrest, hall⟩
      obtain rfl := Option.some.inj hall
      exact .cons ⟨by simpa [Called] using hname, rfl⟩ (ih.1 hrest)
    · rintro (_ | ⟨⟨hcalled, hd⟩, hrest⟩)
      rename_i f rest
      obtain ⟨name, v⟩ := f
      obtain rfl : d = v := hd
      exact ⟨name.toList, hcalled, rest, ih.2 hrest, by simp⟩

theorem Gives.mem_iff {members : List (List Piece × Doc)} {all : Fields}
    (h : List.Forall₂ Gives members all) {f : String × Doc} :
    f ∈ all ↔ ∃ m ∈ members, Gives m f := by
  induction h with
  | nil => simp
  | @cons m g members all hm _ ih =>
    have hfirst : f = g ↔ Gives m f := by
      constructor
      · rintro rfl
        exact hm
      · rintro ⟨hcalled, hd⟩
        exact Prod.ext (hcalled.unique hm.1) (hd.symm.trans hm.2)
    rw [List.mem_cons, hfirst, ih]
    simp

theorem Fields.lookup_eq_some_iff_mem {fields : Fields} (h : (fields.map Prod.fst).Nodup)
    {name : String} {d : Doc} : fields.lookup name = some d ↔ (name, d) ∈ fields := by
  induction fields with
  | nil => simp
  | cons f fields ih =>
    obtain ⟨other, e⟩ := f
    obtain ⟨hother, hrest⟩ := List.nodup_cons.1 h
    rw [Fields.lookup_cons, List.mem_cons, Prod.mk.injEq]
    split
    · rename_i he
      subst he
      have hnot : (name, d) ∉ fields := fun hm => hother (List.mem_map.2 ⟨_, hm, rfl⟩)
      simp [hnot, eq_comm]
    · rename_i he
      simp [he, ih hrest]

namespace Doc

/-- An object all of whose members have texts for names, no known one of them twice, or an array
with no more items than there are names. -/
inductive IsRecord (names : List String) : Doc → Prop where
  | object {members : List (List Piece × Doc)} :
      (∀ m ∈ members, ∃ name, Called name m) →
      members.Pairwise (fun a b => ∀ name ∈ names, Called name a → ¬Called name b) →
      IsRecord names (.object members)
  | array {items : List Doc} : items.length ≤ names.length → IsRecord names (.array items)

inductive States (names : List String) : Doc → String → Doc → Prop where
  | member {members : List (List Piece × Doc)} {m : List Piece × Doc} {name : String} :
      m ∈ members → Called name m → States names (.object members) name m.2
  | item {items : List Doc} {i : Nat} {name : String} {d : Doc} :
      names[i]? = some name → items[i]? = some d → States names (.array items) name d

variable {names : List String} {d : Doc} {fields : Fields}

theorem states_object {members : List (List Piece × Doc)} {name : String} {v : Doc} :
    (object members).States names name v ↔ ∃ m ∈ members, Gives m (name, v) := by
  constructor
  · rintro (⟨hm, hcalled⟩ | _)
    exact ⟨_, hm, hcalled, rfl⟩
  · rintro ⟨m, hm, hcalled, rfl⟩
    exact .member hm hcalled

theorem pairwise_iff_nodup {members : List (List Piece × Doc)} {all : Fields}
    (h : List.Forall₂ Gives members all) :
    members.Pairwise (fun a b => ∀ name ∈ names, Called name a → ¬Called name b) ↔
      ((all.filter fun f => names.contains f.1).map Prod.fst).Nodup := by
  induction h with
  | nil => simp
  | @cons m f members all hm hrest ih =>
    have hfirst : (∀ b ∈ members, ∀ name ∈ names, Called name m → ¬Called name b) ↔
        (f.1 ∈ names → ∀ g ∈ all, f.1 ≠ g.1) := by
      constructor
      · intro hall hknown g hg he
        obtain ⟨b, hb, hgives⟩ := (Gives.mem_iff hrest).1 hg
        exact hall b hb f.1 hknown hm.1 (he ▸ hgives.1)
      · intro hall b hb name hname hcalled hother
        have hf : f.1 = name := hm.1.unique hcalled
        exact hall (hf ▸ hname) (name, b.2) ((Gives.mem_iff hrest).2 ⟨b, hb, hother, rfl⟩) hf
    rw [List.pairwise_cons, ih, hfirst]
    by_cases hknown : f.1 ∈ names
    · rw [List.filter_cons_of_pos (by simpa using hknown), List.map_cons, List.nodup_cons]
      refine and_congr_left fun _ => ?_
      constructor
      · intro hne hmem
        obtain ⟨g, hg, he⟩ := List.mem_map.1 hmem
        exact hne hknown g (List.mem_filter.1 hg).1 he.symm
      · intro hnot _ g hg he
        have hkept : g ∈ all.filter fun f => names.contains f.1 :=
          List.mem_filter.2 ⟨hg, by simpa using he ▸ hknown⟩
        exact hnot (he ▸ List.mem_map_of_mem hkept)
    · rw [List.filter_cons_of_neg (by simpa using hknown)]
      simp [hknown]

theorem fields?_eq_some (hnames : names.Nodup) (h : d.fields? names = some fields) :
    d.IsRecord names ∧ ∀ name ∈ names, ∀ v, fields.lookup name = some v ↔ d.States names name v := by
  cases d with
  | object members =>
    obtain ⟨all, hall, hknown⟩ := Option.bind_eq_some_iff.1 h
    have hgives := named?_eq_some.1 hall
    simp only at hknown
    split at hknown
    · rename_i hnodup
      obtain rfl := Option.some.inj hknown
      refine ⟨.object (fun m hm => ?_) ((pairwise_iff_nodup hgives).2 hnodup), fun name hn v => ?_⟩
      · obtain ⟨name, hname, -⟩ := named?_of_mem hall hm
        exact ⟨String.ofList name, by simpa [Called] using hname⟩
      · rw [Fields.lookup_eq_some_iff_mem hnodup, states_object, ← Gives.mem_iff hgives]
        simp [hn]
    · cases hknown
  | array items =>
    simp only [fields?] at h
    split at h
    · rename_i hlength
      obtain rfl := Option.some.inj h
      have hnodup : ((names.zip items).map Prod.fst).Nodup := by
        rw [List.zip_eq_zip_take_min, List.map_fst_zip (by simp)]
        exact hnames.sublist (List.take_sublist _ _)
      refine ⟨.array hlength, fun name hn v => ?_⟩
      rw [Fields.lookup_eq_some_iff_mem hnodup, List.mem_iff_getElem?]
      constructor
      · rintro ⟨i, hi⟩
        obtain ⟨hname, hitem⟩ := List.getElem?_zip_eq_some.1 hi
        exact .item hname hitem
      · rintro (_ | ⟨hname, hitem⟩)
        exact ⟨_, List.getElem?_zip_eq_some.2 ⟨hname, hitem⟩⟩
    · cases h
  | null | bool | number | string => cases h

theorem IsRecord.exists_fields (h : d.IsRecord names) : ∃ fields, d.fields? names = some fields := by
  cases h with
  | @object members htexts hone =>
    obtain ⟨all, hgives⟩ : ∃ all, List.Forall₂ Gives members all := by
      clear hone
      induction members with
      | nil => exact ⟨[], .nil⟩
      | cons m members ih =>
        obtain ⟨⟨name, hname⟩, hrest⟩ := List.forall_mem_cons.1 htexts
        obtain ⟨all, hall⟩ := ih hrest
        exact ⟨(name, m.2) :: all, .cons ⟨hname, rfl⟩ hall⟩
    refine ⟨all.filter fun f => names.contains f.1, ?_⟩
    rw [fields?, named?_eq_some.2 hgives, Option.bind_some,
      if_pos ((pairwise_iff_nodup hgives).1 hone)]
  | array hlength => exact ⟨_, if_pos hlength⟩

section Fields

variable {α : Type} {read : Doc → Option α} {name : String}

def Holds (names : List String) (read : Doc → Option α) (d : Doc) (name : String) (a : α) : Prop :=
  ∃ v, d.States names name v ∧ read v = some a

def MayHold (names : List String) (read : Doc → Option α) (d : Doc) (name : String) :
    Option α → Prop
  | none => ∀ v, d.States names name v → v = .null
  | some a => d.Holds names read name a

/-- A field that may be missing, and is not null. -/
def HoldsOr (names : List String) (read : Doc → Option α) (d : Doc) (name : String)
    (default a : α) : Prop :=
  d.Holds names read name a ∨ a = default ∧ ∀ v, ¬d.States names name v

variable (h : ∀ v, fields.lookup name = some v ↔ d.States names name v)

include h

theorem required_eq_some {a : α} :
    fields.required name read = some a ↔ d.Holds names read name a := by
  rw [Fields.required, Option.bind_eq_some_iff]
  simp only [Holds, h]

theorem optional_eq_some (hnull : read .null = none) {o : Option α} :
    fields.optional name read = some o ↔ d.MayHold names read name o := by
  cases hl : fields.lookup name with
  | none =>
    have hnone (v : Doc) : ¬d.States names name v := fun hv => by simp [(h v).2 hv] at hl
    cases o <;> simp [Fields.optional, hl, MayHold, Holds, hnone]
  | some v =>
    have hsome (w : Doc) : d.States names name w ↔ v = w := by rw [← h, hl, Option.some.injEq]
    by_cases hv : v = .null
    · subst hv
      cases o <;> simp [Fields.optional, hl, MayHold, Holds, hsome, hnull]
    · have hread : fields.optional name read = (read v).map some := by
        cases v <;> first | exact absurd rfl hv | simp only [Fields.optional, hl]
      cases o <;> simp [hread, MayHold, Holds, hsome, hv]

theorem defaulted_eq_some {default a : α} :
    fields.defaulted name read default = some a ↔ d.HoldsOr names read name default a := by
  cases hl : fields.lookup name with
  | none =>
    have hnone (v : Doc) : ¬d.States names name v := fun hv => by simp [(h v).2 hv] at hl
    simp [Fields.defaulted, hl, HoldsOr, Holds, hnone, eq_comm]
  | some v =>
    have hsome (w : Doc) : d.States names name w ↔ v = w := by rw [← h, hl, Option.some.injEq]
    simp [Fields.defaulted, hl, HoldsOr, Holds, hsome]

end Fields

section Agreement

variable {d' d'' : Doc}

/-- As a record with these names, the second document is read wherever the first one is, and states
the same. -/
structure AgreesOn (names : List String) (d d' : Doc) : Prop where
  record : d.IsRecord names → d'.IsRecord names
  states : ∀ name ∈ names, ∀ v, d.States names name v ↔ d'.States names name v

theorem AgreesOn.trans (h : d.AgreesOn names d') (h' : d'.AgreesOn names d'') :
    d.AgreesOn names d'' where
  record hd := h'.record (h.record hd)
  states name hn v := (h.states name hn v).trans (h'.states name hn v)

variable {α : Type} {read : Doc → Option α} {name : String}

theorem AgreesOn.holds (h : d.AgreesOn names d') (hn : name ∈ names) (a : α) :
    d.Holds names read name a ↔ d'.Holds names read name a := by
  simp only [Holds, h.states name hn]

theorem AgreesOn.mayHold (h : d.AgreesOn names d') (hn : name ∈ names) (o : Option α) :
    d.MayHold names read name o ↔ d'.MayHold names read name o := by
  cases o with
  | none => simp only [MayHold, h.states name hn]
  | some a => exact h.holds hn a

theorem AgreesOn.holdsOr (h : d.AgreesOn names d') (hn : name ∈ names) (default a : α) :
    d.HoldsOr names read name default a ↔ d'.HoldsOr names read name default a := by
  simp only [HoldsOr, h.holds hn, h.states name hn]

variable {members members' : List (List Piece × Doc)} {m : List Piece × Doc}

theorem isRecord_object : (object members).IsRecord names ↔
    (∀ m ∈ members, ∃ name, Called name m) ∧
      members.Pairwise (fun a b => ∀ name ∈ names, Called name a → ¬Called name b) :=
  ⟨fun h => by cases h with | object htexts hone => exact ⟨htexts, hone⟩,
    fun ⟨htexts, hone⟩ => .object htexts hone⟩

theorem agreesOn_perm (h : members.Perm members') :
    (object members).AgreesOn names (object members') where
  record hrecord := by
    obtain ⟨htexts, hone⟩ := isRecord_object.1 hrecord
    refine .object (fun m hm => htexts m (h.mem_iff.2 hm)) (hone.perm h ?_)
    exact fun hab name hn hb ha => hab name hn ha hb
  states name hn v := by simp only [states_object, h.mem_iff]

theorem agreesOn_cons {other : String} (hcalled : Called other m) (hother : other ∉ names) :
    (object members).AgreesOn names (object (m :: members)) where
  record hrecord := by
    obtain ⟨htexts, hone⟩ := isRecord_object.1 hrecord
    refine .object (List.forall_mem_cons.2 ⟨⟨other, hcalled⟩, htexts⟩) (.cons ?_ hone)
    exact fun b _ name hn hm => absurd (hm.unique hcalled ▸ hn) hother
  states name hn v := by
    have hnot : ¬Gives m (name, v) := fun hm => hother (hcalled.unique hm.1 ▸ hn)
    simp only [states_object, List.mem_cons, exists_eq_or_imp, hnot, false_or]

theorem agreesOn_tail (hm : ∀ name ∈ names, ¬Called name m) :
    (object (m :: members)).AgreesOn names (object members) where
  record hrecord := by
    obtain ⟨htexts, hone⟩ := isRecord_object.1 hrecord
    exact .object (List.forall_mem_cons.1 htexts).2 (List.pairwise_cons.1 hone).2
  states name hn v := by
    have hnot : ¬Gives m (name, v) := fun h => hm name hn h.1
    simp only [states_object, List.mem_cons, exists_eq_or_imp, hnot, false_or]

end Agreement

end Doc

end BearerAccess.Json
