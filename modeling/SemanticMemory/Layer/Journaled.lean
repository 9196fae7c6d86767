import SemanticMemory.Memory.History

/-!
# A store that keeps a journal

This layer passes every call on.  The calls that may change the store it also writes down, in the
order in which they are made and each with its answer.  A helper that works on a store makes its
calls one by one, so the journal tells which calls the helper came down to.
-/

namespace SemanticMemory

namespace Call

/-- What a call is answered when it succeeds. -/
def Value : Call → Type
  | createNode _ => Address
  | createLink => Address
  | createEdge _ _ _ => Address
  | erase _ => Bool
  | assignIdentifier _ _ => Unit
  | clear => Unit

/-- The call, made to any store. -/
def action {σ : Type} [TripleStore σ] [Layered σ] : (call : Call) → Action σ StoreError call.Value
  | createNode type => TripleStore.createNode type
  | createLink => TripleStore.createLink
  | createEdge type source target => TripleStore.createEdge type source target
  | erase address => TripleStore.erase address
  | assignIdentifier address identifier => TripleStore.assignIdentifier address identifier
  | clear => Layered.beneath fun memory => ⟨.ok (), memory.clear, []⟩

theorem state_action (memory : Memory) (call : Call) :
    (call.action.run memory).state = call.apply memory := by
  cases call <;> rfl

end Call

/-- A call that was made, and what it was answered. -/
structure Record where
  call : Call
  answer : Except StoreError call.Value

/-- A store under a layer that keeps a journal. -/
structure Journaled (σ : Type) where
  inner : σ
  /-- The calls made so far, the first one first. -/
  journal : List Record

namespace Journaled

variable {σ : Type}

/-- A journal in which nothing is written yet. -/
def blank (inner : σ) : Journaled σ :=
  ⟨inner, []⟩

/-- Makes a call to the store under the layer and writes it down. -/
def noted (call : Call) (action : Action σ StoreError call.Value) :
    Action (Journaled σ) StoreError call.Value :=
  fun store =>
    let reply := action.run store.inner
    ⟨reply.result, ⟨reply.state, store.journal ++ [⟨call, reply.result⟩]⟩, reply.events⟩

theorem run_noted (call : Call) (action : Action σ StoreError call.Value) (store : Journaled σ) :
    (noted call action).run store =
      ⟨(action.run store.inner).result,
        ⟨(action.run store.inner).state,
          store.journal ++ [⟨call, (action.run store.inner).result⟩]⟩,
        (action.run store.inner).events⟩ :=
  rfl

instance [TripleStore σ] : TripleStore (Journaled σ) where
  isElement store := TripleStore.isElement store.inner
  elementType store := TripleStore.elementType store.inner
  endpoints store := TripleStore.endpoints store.inner
  matching store := TripleStore.matching store.inner
  identifier store := TripleStore.identifier store.inner
  owner? store := TripleStore.owner? store.inner
  createNode type := noted (.createNode type) (TripleStore.createNode type)
  createLink := noted .createLink TripleStore.createLink
  createEdge type source target :=
    noted (.createEdge type source target) (TripleStore.createEdge type source target)
  erase address := noted (.erase address) (TripleStore.erase address)
  assignIdentifier address identifier :=
    noted (.assignIdentifier address identifier) (TripleStore.assignIdentifier address identifier)

end Journaled

end SemanticMemory
