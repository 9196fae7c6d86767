import SemanticMemory.TripleStore

/-!
# Survey of a store

What a store has to say about one element, gathered in one record.
-/

namespace SemanticMemory

structure ElementReport where
  address : Address
  type : ElementType
  identifier : Option String
  ends : Option (Address × Address)
  incoming : List Address
  outgoing : List Address
  deriving DecidableEq

namespace ElementReport

variable {σ : Type} [TripleStore σ]

def of (store : σ) (address : Address) : Except StoreError ElementReport := do
  let type ← TripleStore.elementType store address
  let identifier ← TripleStore.identifier store address
  let incoming ← TripleStore.matching store (.incoming address)
  let outgoing ← TripleStore.matching store (.outgoing address)
  return {
    address
    type
    identifier
    ends := (TripleStore.endpoints store address).toOption
    incoming := incoming.map Triple.edge
    outgoing := outgoing.map Triple.edge }

end ElementReport

end SemanticMemory
