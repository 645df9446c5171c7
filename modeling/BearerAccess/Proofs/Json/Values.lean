import BearerAccess.Proofs.Json.RoundTrip
import BearerAccess.Proofs.Order.Members
set_option autoImplicit false

namespace BearerAccess

namespace Json

/-- A value that nests at most so deep and that a document can hold as it is. -/
inductive Plain : Nat → Value → Prop where
  | null {depth : Nat} : Plain depth .null
  | bool {depth : Nat} (b : Bool) : Plain depth (.bool b)
  | integer {depth : Nat} {i : Int} (hlow : -((maxSigned : Int) + 1) ≤ i) (hhigh : i ≤ maxUnsigned) :
      Plain depth (.integer i)
  | string {depth : Nat} (s : String) : Plain depth (.string s)
  | array {depth : Nat} {items : List Value} (h : ∀ v ∈ items, Plain depth v) :
      Plain (depth + 1) (.array items)
  | object {depth : Nat} {members : List (String × Value)}
      (horder : Increasing.Holds (fun m => [bytesOf m.1]) members)
      (h : ∀ m ∈ members, Plain depth m.2) : Plain (depth + 1) (.object members)

theorem value?_ofInt {i : Int} (hlow : -((maxSigned : Int) + 1) ≤ i) (hhigh : i ≤ maxUnsigned) :
    (Numeral.ofInt i).value? = some (.integer i) := by
  cases i with
  | ofNat n =>
    have hn : n ≤ maxUnsigned := Int.ofNat_le.1 hhigh
    simp [Numeral.value?, Numeral.ofInt, ofDigitChars_decimal, hn]
  | negSucc n =>
    have hn : n + 1 ≤ maxSigned + 1 := by omega
    simp [Numeral.value?, Numeral.ofInt, ofDigitChars_decimal, hn, Int.negSucc_eq]

section Reading

variable {depth : Nat}

def HeldBy (depth : Nat) (v : Value) (d : Doc) : Prop :=
  v.doc? = some d ∧ Value.ofDoc? depth d = some v

theorem exists_items {items : List Value} (h : ∀ v ∈ items, ∃ d, HeldBy depth v d) :
    ∃ ds, Value.itemDocs? items = some ds ∧ Value.ofItems? depth ds = some items := by
  induction items with
  | nil => exact ⟨[], rfl, rfl⟩
  | cons v items ih =>
    obtain ⟨⟨d, hwritten, hread⟩, hrest⟩ := List.forall_mem_cons.1 h
    obtain ⟨ds, hwrittens, hreads⟩ := ih hrest
    exact ⟨d :: ds, by simp [Value.itemDocs?, hwritten, hwrittens],
      by simp [Value.ofItems?, hread, hreads]⟩

theorem exists_members {members : List (String × Value)}
    (h : ∀ m ∈ members, ∃ d, HeldBy depth m.2 d) :
    ∃ ds, Value.memberDocs? members = some ds ∧ Value.ofMembers? depth ds = some members := by
  induction members with
  | nil => exact ⟨[], rfl, rfl⟩
  | cons m members ih =>
    obtain ⟨⟨d, hwritten, hread⟩, hrest⟩ := List.forall_mem_cons.1 h
    obtain ⟨ds, hwrittens, hreads⟩ := ih hrest
    exact ⟨(m.1.toList.map Piece.ofChar, d) :: ds,
      by simp [Value.memberDocs?, hwritten, hwrittens],
      by simp [Value.ofMembers?, hread, hreads, spelling?_ofChar]⟩

theorem Plain.exists_doc {v : Value} (h : Plain depth v) : ∃ d, HeldBy depth v d := by
  induction h with
  | null => exact ⟨.null, rfl, rfl⟩
  | bool b => exact ⟨.bool b, rfl, rfl⟩
  | integer hlow hhigh => exact ⟨_, rfl, value?_ofInt hlow hhigh⟩
  | string s => exact ⟨_, rfl, by simp [Value.ofDoc?, spelling?_ofChar]⟩
  | array _ ih =>
    obtain ⟨ds, hwritten, hread⟩ := exists_items ih
    exact ⟨.array ds, by simp [Value.doc?, hwritten], by simp [Value.ofDoc?, hread]⟩
  | object horder _ ih =>
    obtain ⟨ds, hwritten, hread⟩ := exists_members ih
    have hsorted := Increasing.ofList_of_holds horder
    exact ⟨.object ds, by simp [Value.doc?, hwritten],
      by simp [Value.ofDoc?, hread, Value.sortMembers, hsorted]⟩

end Reading

theorem Plain.read_compact {v : Value} (h : Plain Value.maxDepth v) :
    Value.ofText? v.compact = some v ∧ Value.ofBytes? (bytesOf v.compact) = some v := by
  obtain ⟨d, hwritten, hread⟩ := h.exists_doc
  constructor
  · rw [Value.ofText?, Value.ofText?_compact hwritten]
    exact hread
  · rw [Value.ofBytes?, bytesOf, Value.compact, String.toList_ofList, Value.ofBytes?_render hwritten]
    exact hread

end Json

end BearerAccess
