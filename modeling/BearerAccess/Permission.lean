import BearerAccess.Order.Increasing
import BearerAccess.Text.Quotation
/-!
Permissions: a scope on a resource, written with a number sign between them. A permission set is
kept in byte order of resource and scope, so it depends on its elements alone, and so does all
that shows it.
-/
set_option autoImplicit false

namespace BearerAccess

structure Permission where
  resource : String
  scope : String
  deriving DecidableEq, Repr

structure PermissionFault where
  text : String
  deriving DecidableEq, Repr

namespace PermissionFault

def message (f : PermissionFault) : String :=
  "Invalid permission '" ++ f.text ++ "', expected resource#scope"

def diagnostic (f : PermissionFault) : String :=
  "ParsePermissionError(" ++ Text.quotation f.text ++ ")"

end PermissionFault

namespace Permission

def text (p : Permission) : String := p.resource ++ "#" ++ p.scope

/-- Reads a written form: the first number sign ends the resource, and neither side is empty. -/
def ofText? (text : String) : Except PermissionFault Permission :=
  let (resource, rest) := text.toList.span (· != '#')
  match rest with
  | _ :: scope =>
    if resource.isEmpty || scope.isEmpty then .error ⟨text⟩
    else .ok ⟨String.ofList resource, String.ofList scope⟩
  | [] => .error ⟨text⟩

def key (p : Permission) : List Bytes := [bytesOf p.resource, bytesOf p.scope]

end Permission

/-- A set of permissions, in increasing order. -/
structure PermissionSet where
  toList : List Permission
  increasing : Increasing.Holds Permission.key toList

namespace PermissionSet

def empty : PermissionSet := ⟨[], List.Pairwise.nil⟩

def insert (s : PermissionSet) (p : Permission) : PermissionSet :=
  ⟨Increasing.insert Permission.key p s.toList, Increasing.holds_insert Permission.key s.increasing⟩

def ofList (ps : List Permission) : PermissionSet :=
  ⟨Increasing.ofList Permission.key ps, Increasing.holds_ofList Permission.key ps⟩

def isEmpty (s : PermissionSet) : Bool := s.toList.isEmpty

def texts (s : PermissionSet) : List String := s.toList.map Permission.text

theorem ext_toList {s t : PermissionSet} (h : s.toList = t.toList) : s = t := by
  cases s; cases t; cases h; rfl

instance : DecidableEq PermissionSet := fun s t =>
  if h : s.toList = t.toList then .isTrue (ext_toList h) else .isFalse fun e => h (e ▸ rfl)

end PermissionSet

end BearerAccess
