/-! # Handles

Routes and routers are known by handles, which stay valid while more of them are added.
-/

namespace RouteTree

/-- The handle of a route. -/
structure RouteId where
  index : Nat
  deriving DecidableEq, Repr, Inhabited

/-- The handle of a router. -/
structure RouterId where
  index : Nat
  deriving DecidableEq, Repr, Inhabited

/-- A route or a router; routes can be appended to either. -/
inductive Handle where
  | route (id : RouteId)
  | router (id : RouterId)
  deriving DecidableEq, Repr

end RouteTree
