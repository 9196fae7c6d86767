import SemanticMemory.Memory.Creation
import SemanticMemory.Memory.Erasure
import SemanticMemory.Memory.Identifier
import SemanticMemory.Memory.Query
import SemanticMemory.TripleStore

/-!
# A memory is a store

The operations of a memory, as a store of triples.  A layered store keeps its elements in one
memory, however many layers lie over it.
-/

namespace SemanticMemory

instance : TripleStore Memory where
  isElement := Memory.isElement
  elementType := Memory.elementType
  endpoints := Memory.endpoints
  matching := Memory.matching
  identifier := Memory.identifier
  owner? := Memory.owner?
  createNode := Memory.createNode
  createLink := Memory.createLink
  createEdge := Memory.createEdge
  erase := Memory.erase
  assignIdentifier := Memory.assignIdentifier

/-- Stores whose elements are kept in one memory. -/
class Layered (σ : Type) where
  memory : σ → Memory
  withMemory : σ → Memory → σ

namespace Layered

instance : Layered Memory where
  memory store := store
  withMemory _ memory := memory

/-- Acts on the memory under the layers, unseen by them. -/
def beneath {σ ε α : Type} [Layered σ] (action : Action Memory ε α) : Action σ ε α :=
  action.onPart memory withMemory

end Layered

end SemanticMemory
