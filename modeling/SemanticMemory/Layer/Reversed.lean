import SemanticMemory.Memory.Store

/-!
# A store that answers backwards

This layer passes every call on and reverses the answers to patterns.  Work that does not depend on
the order of answers goes on unchanged over it.
-/

namespace SemanticMemory

/-- A store under a layer that reverses answers. -/
@[ext]
structure Reversed (σ : Type) where
  inner : σ

namespace Reversed

variable {σ ε α : Type}

/-- Acts on the store under the layer. -/
def within (action : Action σ ε α) : Action (Reversed σ) ε α :=
  action.onPart inner fun _ inner => ⟨inner⟩

@[simp]
theorem run_within (action : Action σ ε α) (store : Reversed σ) :
    (within action).run store =
      ⟨(action.run store.inner).result, ⟨(action.run store.inner).state⟩,
        (action.run store.inner).events⟩ :=
  rfl

instance [TripleStore σ] : TripleStore (Reversed σ) where
  isElement store := TripleStore.isElement store.inner
  elementType store := TripleStore.elementType store.inner
  endpoints store := TripleStore.endpoints store.inner
  matching store pattern := (TripleStore.matching store.inner pattern).map List.reverse
  identifier store := TripleStore.identifier store.inner
  owner? store := TripleStore.owner? store.inner
  createNode type := within (TripleStore.createNode type)
  createLink := within TripleStore.createLink
  createEdge type source target := within (TripleStore.createEdge type source target)
  erase address := within (TripleStore.erase address)
  assignIdentifier address identifier := within (TripleStore.assignIdentifier address identifier)

instance [Layered σ] : Layered (Reversed σ) where
  memory store := Layered.memory store.inner
  withMemory store memory := ⟨Layered.withMemory store.inner memory⟩

theorem matching_eq [TripleStore σ] (store : Reversed σ) (pattern : Pattern) :
    TripleStore.matching store pattern =
      (TripleStore.matching store.inner pattern).map List.reverse :=
  rfl

/-- Two reversing layers cancel each other. -/
theorem matching_reversed_twice [TripleStore σ] (store : Reversed (Reversed σ))
    (pattern : Pattern) :
    TripleStore.matching store pattern = TripleStore.matching store.inner.inner pattern := by
  rw [matching_eq, matching_eq]
  cases TripleStore.matching store.inner.inner pattern with
  | error error => rfl
  | ok triples => simp [Except.map]

end Reversed

end SemanticMemory
