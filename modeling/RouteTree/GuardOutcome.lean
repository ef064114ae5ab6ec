import RouteTree.Text.Quoted

/-! # Outcomes of guards

A guard lets a route be selected, keeps it from matching, or ends the traversal.
-/

namespace RouteTree

/-- What a guard decides. -/
inductive GuardOutcome where
  /-- The route may be selected. -/
  | proceed
  /-- The route does not match. -/
  | reject
  /-- The traversal ends here and the caller should go to `target`. -/
  | redirect (target : String)
  deriving DecidableEq, Repr

namespace GuardOutcome

/-- The name of an outcome's kind, as messages give it. -/
def kindName : GuardOutcome → String
  | .proceed => "Proceed"
  | .reject => "Reject"
  | .redirect _ => "Redirect"

/-- An outcome as data. -/
def literal : GuardOutcome → String
  | .proceed => "Proceed()"
  | .reject => "Reject()"
  | .redirect target => "Redirect(path=" ++ Text.quoted target ++ ")"

end GuardOutcome

end RouteTree
