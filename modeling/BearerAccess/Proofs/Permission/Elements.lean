import BearerAccess.Permission
import BearerAccess.Proofs.Order.Members
import BearerAccess.Proofs.Text.Utf8
/-!
What a permission set holds: the permissions that have been gathered in it, each once and in the
order of the bytes of its resource and its scope. A set is known by its elements, so in whatever
order, how often and in which way they came makes no difference.
-/
set_option autoImplicit false

namespace BearerAccess

namespace Permission

def Precedes (p q : Permission) : Prop :=
  bytesOf p.resource < bytesOf q.resource ∨
    bytesOf p.resource = bytesOf q.resource ∧ bytesOf p.scope < bytesOf q.scope

theorem key_lt_iff {p q : Permission} : p.key < q.key ↔ p.Precedes q := by
  simp [key, Precedes, List.cons_lt_cons_iff]

theorem key_injective (p q : Permission) (h : p.key = q.key) : p = q := by
  obtain ⟨hresource, hscope⟩ : bytesOf p.resource = bytesOf q.resource ∧
      bytesOf p.scope = bytesOf q.scope := by simpa [Permission.key] using h
  cases p
  cases q
  cases bytesOf_inj.1 hresource
  cases bytesOf_inj.1 hscope
  rfl

end Permission

namespace PermissionSet

variable {ps qs : List Permission} {s t : PermissionSet} {p q : Permission}

theorem nodup_toList (s : PermissionSet) : s.toList.Nodup := s.increasing.nodup

theorem pairwise_precedes (s : PermissionSet) : s.toList.Pairwise Permission.Precedes :=
  s.increasing.imp Permission.key_lt_iff.1

theorem ext (h : ∀ p, p ∈ s.toList ↔ p ∈ t.toList) : s = t :=
  ext_toList (s.increasing.ext t.increasing h)

theorem mem_insert : q ∈ (s.insert p).toList ↔ q = p ∨ q ∈ s.toList :=
  Increasing.mem_insert Permission.key_injective

theorem mem_ofList : p ∈ (ofList ps).toList ↔ p ∈ ps :=
  Increasing.mem_ofList Permission.key_injective

theorem isEmpty_ofList : (ofList ps).isEmpty = true ↔ ps = [] := by
  simp only [isEmpty, List.isEmpty_iff, List.eq_nil_iff_forall_not_mem, mem_ofList]

/-- A set that permissions were gathered in: all at once, or one by one, each as it is or read from
its written form. -/
inductive Gathered : List Permission → PermissionSet → Prop where
  | collected (ps : List Permission) : Gathered ps (ofList ps)
  | inserted {ps : List Permission} {s : PermissionSet} (p : Permission) :
      Gathered ps s → Gathered (ps ++ [p]) (s.insert p)
  | read {ps : List Permission} {s : PermissionSet} {text : String} {p : Permission} :
      Permission.ofText? text = .ok p → Gathered ps s → Gathered (ps ++ [p]) (s.insert p)

theorem Gathered.mem (h : Gathered ps s) (p : Permission) : p ∈ s.toList ↔ p ∈ ps := by
  induction h with
  | collected ps => exact mem_ofList
  | inserted q _ ih | read _ _ ih =>
    rw [mem_insert, ih, List.mem_append, List.mem_singleton, or_comm]

theorem Gathered.unique (hs : Gathered ps s) (ht : Gathered qs t) (h : ∀ p, p ∈ ps ↔ p ∈ qs) :
    s = t :=
  ext fun p => (hs.mem p).trans ((h p).trans (ht.mem p).symm)

end PermissionSet

end BearerAccess
