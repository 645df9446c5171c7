import BearerAccess.Number.IntegerText
set_option autoImplicit false

namespace BearerAccess

inductive DecisionError where
  | http (reason : String)
  | status (code : Nat)
  | parse (reason : String)
  deriving DecidableEq, Repr

def DecisionError.message : DecisionError → String
  | .http reason => "Decision request failed: " ++ reason
  | .status code => "Decision endpoint returned status " ++ String.ofList (decimal code)
  | .parse reason => "Invalid decision payload: " ++ reason

end BearerAccess
