import BearerAccess.AuthError
set_option autoImplicit false

namespace BearerAccess

/-- A collaborator in some state, asked whether a token carries a set of permissions. -/
abbrev Decider (σ ε : Type) := String → PermissionSet → σ → Except ε Bool × σ

namespace Gate

variable {σ ε : Type}

def isYes : Except ε Bool → Bool
  | .ok granted => granted
  | .error _ => false

def isGranted (decide : Decider σ ε) (token : String) (permissions : PermissionSet) (s : σ) :
    Bool × σ :=
  let (answer, s) := decide token permissions s
  (isYes answer, s)

def requireGranted (decide : Decider σ ε) (token : String) (permissions : PermissionSet) (s : σ) :
    Except AuthError Unit × σ :=
  let (granted, s) := isGranted decide token permissions s
  (if granted then .ok () else .error (.permissionDenied permissions), s)

end Gate

end BearerAccess
