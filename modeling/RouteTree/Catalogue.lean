import RouteTree.Text.Quoted

/-! # The catalogue of public names

Every public name is defined in one place, and names outside the catalogue are refused.
-/

namespace RouteTree.Catalogue

/-- The public names, grouped by the place that defines them. -/
def places : List (String × List String) := [
  ("waypoint.errors", ["AlreadyAppendedError", "ConfigurationError", "MissingParameterError",
    "NotInHierarchyError", "PathSyntaxError", "WaypointError"]),
  ("waypoint.config", ["RouterConfig"]),
  ("waypoint.http.query", ["QueryParams"]),
  ("waypoint.routing.path", ["PathDefinition", "compile_path"]),
  ("waypoint.routing.results", ["MatchType", "Proceed", "Redirect", "Reject", "RouteRequest",
    "Selection"]),
  ("waypoint.routing.route", ["Route"]),
  ("waypoint.routing.router", ["DispatchResult", "Router"])]

/-- The name that is not in the catalogue. -/
structure UnknownName where
  name : String
  deriving DecidableEq, Repr

def UnknownName.message (error : UnknownName) : String :=
  "module 'waypoint' has no attribute " ++ Text.quoted error.name

/-- The place that defines a public name. -/
def placeOf (name : String) : Except UnknownName String :=
  match places.find? fun (_, names) => names.contains name with
  | some (place, _) => .ok place
  | none => .error ⟨name⟩

end RouteTree.Catalogue
