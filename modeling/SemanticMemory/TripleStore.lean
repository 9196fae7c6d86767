import SemanticMemory.Action
import SemanticMemory.Failure
import SemanticMemory.Pattern

/-!
# Stores of triples

What the rest of the library asks of a store.  Questions are functions of the state, so they cannot
change it; changes are actions.  Nothing is said about the order in which a store answers a
pattern.
-/

namespace SemanticMemory

/-- A type of states that hold elements. -/
class TripleStore (σ : Type) where
  isElement : σ → Address → Bool
  elementType : σ → Address → Except StoreError ElementType
  endpoints : σ → Address → Except StoreError (Address × Address)
  /-- Every triple that a pattern asks for. -/
  matching : σ → Pattern → Except StoreError (List Triple)
  identifier : σ → Address → Except StoreError (Option String)
  /-- The element that carries an identifier. -/
  owner? : σ → String → Option Address
  createNode : ElementType → Action σ StoreError Address
  createLink : Action σ StoreError Address
  createEdge : ElementType → Address → Address → Action σ StoreError Address
  /-- Erases an element and every edge that hangs on it, and says whether there was one. -/
  erase : Address → Action σ StoreError Bool
  /-- Gives an identifier to an element, in place of the one that it carried. -/
  assignIdentifier : Address → String → Action σ StoreError Unit

namespace TripleStore

variable {σ : Type} [TripleStore σ]

/-- Whether some edge of the type runs from the source to the target. -/
def hasEdge (store : σ) (source target : Address) (type : ElementType) : Except StoreError Bool :=
  (matching store ⟨source, type, target⟩).map fun triples => !triples.isEmpty

/-- Asks the store a question on behalf of a helper. -/
def ask {α : Type} (question : σ → Except StoreError α) : Action σ Failure α :=
  .query fun store => (question store).mapError .store

/-- Changes the store on behalf of a helper. -/
def change {α : Type} (action : Action σ StoreError α) : Action σ Failure α :=
  action.mapError .store

omit [TripleStore σ] in
theorem run_ask {α : Type} (question : σ → Except StoreError α) (store : σ) :
    (ask question).run store = ⟨(question store).mapError .store, store, []⟩ :=
  rfl

omit [TripleStore σ] in
theorem run_change {α : Type} {action : Action σ StoreError α} {store next : σ}
    {result : Except StoreError α} {events : List Event}
    (reply : action.run store = ⟨result, next, events⟩) :
    (change action).run store = ⟨result.mapError .store, next, events⟩ := by
  rw [change, Action.run_mapError, reply]

omit [TripleStore σ] in
theorem succeeds_ask_iff {α : Type} {question : σ → Except StoreError α} {store next : σ}
    {answer : α} :
    (ask question).Succeeds store answer next ↔ question store = .ok answer ∧ next = store := by
  rw [ask, Action.succeeds_query_iff]
  refine and_congr_left fun _ => ?_
  cases question store with
  | error error => exact ⟨nofun, nofun⟩
  | ok given =>
      constructor
      · intro same
        cases same
        rfl
      · intro same
        cases same
        rfl

end TripleStore

end SemanticMemory
