import BearerAccess.Decision.DecisionError
import BearerAccess.Gate
set_option autoImplicit false

namespace BearerAccess.Testing

structure ScriptedDecider where
  answers : List (Except DecisionError Bool)
  asked : List (String × PermissionSet)

namespace ScriptedDecider

def ofAnswers (answers : List (Except DecisionError Bool)) : ScriptedDecider := ⟨answers, []⟩

def exhausted : Except DecisionError Bool := .error (.status 500)

def decide : Decider ScriptedDecider DecisionError := fun token permissions s =>
  (s.answers.headD exhausted, ⟨s.answers.tail, s.asked ++ [(token, permissions)]⟩)

end ScriptedDecider

end BearerAccess.Testing
