import SemanticMemory.Address
import SemanticMemory.ElementType

/-!
# Triple patterns

A triple names an edge together with its source and its target.  A pattern asks for triples: it
fixes each end to one address or to a filter on types, and it filters the edge by its type.
-/

namespace SemanticMemory

/-- What a pattern asks of one end of an edge. -/
inductive Slot where
  /-- The end is the element at this address. -/
  | fixed (address : Address)
  /-- The type of the end passes this filter. -/
  | typed (filter : ElementType)
  deriving DecidableEq

namespace Slot

instance : Coe Address Slot :=
  ⟨fixed⟩

instance : Coe ElementType Slot :=
  ⟨typed⟩

/-- The slot that every element fits. -/
def any : Slot :=
  typed .any

def address? : Slot → Option Address
  | fixed address => some address
  | typed _ => none

/-- Whether an element at this address and of this type fits the slot. -/
def accepts (slot : Slot) (address : Address) (type : ElementType) : Bool :=
  match slot with
  | fixed wanted => wanted == address
  | typed filter => type.carries filter

@[simp]
theorem accepts_any (address : Address) (type : ElementType) :
    any.accepts address type = true := by
  simp [any, accepts]

@[simp]
theorem accepts_fixed (wanted address : Address) (type : ElementType) :
    (fixed wanted).accepts address type = true ↔ wanted = address := by
  simp [accepts]

end Slot

/-- A question about edges and their ends. -/
structure Pattern where
  source : Slot
  edgeType : ElementType
  target : Slot
  deriving DecidableEq

namespace Pattern

def incoming (address : Address) : Pattern :=
  ⟨.any, .any, address⟩

def outgoing (address : Address) : Pattern :=
  ⟨address, .any, .any⟩

end Pattern

structure Triple where
  source : Address
  edge : Address
  target : Address
  deriving DecidableEq

end SemanticMemory
