/-!
# Identities

Names of the things that outlive a single operation: documents, elements, events, and the handlers
attached to elements. Each is the place of its record in the world.
-/

namespace WebBindings

structure DocumentId where
  index : Nat
deriving DecidableEq, Inhabited

structure ElementId where
  index : Nat
deriving DecidableEq, Inhabited

structure EventId where
  index : Nat
deriving DecidableEq, Inhabited

structure HandlerId where
  index : Nat
deriving DecidableEq, Inhabited

structure HandlerMapId where
  index : Nat
deriving DecidableEq, Inhabited

/-- A registration on one element; later registrations have greater numbers. -/
structure ListenerId where
  number : Nat
deriving DecidableEq, Inhabited

namespace ListenerId

def shown (id : ListenerId) : String := "ListenerId(" ++ toString id.number ++ ")"

end ListenerId

end WebBindings
