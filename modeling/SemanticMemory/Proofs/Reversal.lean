import SemanticMemory.Layer.Reversed
import SemanticMemory.Setup
import SemanticMemory.Proofs.Likeness

/-!
# Work over a store that answers backwards

A layer that reverses answers passes every change on.  Whatever changes a store without asking for a
pattern, or asks only whether a pattern has an answer, does the same work over the layer.
-/

namespace SemanticMemory

namespace Reversed

variable {σ ε α β : Type}

theorem succeeds_within_iff {action : Action σ ε α} {store next : Reversed σ} {value : α} :
    (within action).Succeeds store value next ↔
      action.Succeeds store.inner value next.inner := by
  simp only [Action.Succeeds, run_within]
  constructor
  · rintro ⟨events, reply⟩
    refine ⟨events, ?_⟩
    rcases run : action.run store.inner with ⟨result, reached, reported⟩
    rw [run] at reply
    cases reply
    rfl
  · rintro ⟨events, reply⟩
    exact ⟨events, by rw [reply]⟩

theorem within_query (question : σ → Except ε α) :
    within (.query question) = .query fun store => question store.inner :=
  rfl

theorem within_bind (first : Action σ ε α) (next : α → Action σ ε β) :
    within (first >>= next) = within first >>= fun value => within (next value) := by
  funext store
  change (within (first >>= next)).run store =
    (within first >>= fun value => within (next value)).run store
  rcases opening : first.run store.inner with ⟨error | value, reached, events⟩
  · have stopped : (within first).run store = ⟨.error error, ⟨reached⟩, events⟩ := by
      rw [run_within, opening]
    rw [Action.run_bind_of_error stopped, run_within, Action.run_bind_of_error opening]
  · have went : (within first).run store = ⟨.ok value, ⟨reached⟩, events⟩ := by
      rw [run_within, opening]
    rw [Action.run_bind_of_ok went, run_within, Action.run_bind_of_ok opening]
    rfl

end Reversed

open TripleStore

variable {σ : Type} [TripleStore σ]

theorem TripleStore.hasEdge_reversed (store : Reversed σ) (source target : Address)
    (type : ElementType) :
    hasEdge store source target type = hasEdge store.inner source target type := by
  rw [hasEdge, hasEdge, Reversed.matching_eq]
  cases matching store.inner ⟨source, type, target⟩ <;> simp [Except.map]

theorem Marker.firstMarked_reversed (store : Reversed σ) (marker : Address)
    (triples : List Triple) :
    firstMarked store marker triples = firstMarked store.inner marker triples :=
  firstMarked_congr (hasEdge_reversed store) marker triples

namespace Catalog

theorem resolve_reversed (names : CatalogNames) :
    (resolve names : Action (Reversed σ) Failure Catalog) = Reversed.within (resolve names) := by
  have lookUp_reversed (store : Reversed σ) : lookUp store names = lookUp store.inner names := by
    apply lookUp_congr
    exact fun _ => rfl
  simp only [resolve, Reversed.within_bind, Reversed.within_query, lookUp_reversed]
  rfl

end Catalog

namespace Setup

theorem namedNode_reversed (name : String) :
    (namedNode name : Action (Reversed σ) Stage Address) = Reversed.within (namedNode name) := by
  simp only [namedNode, Reversed.within_bind]
  rfl

theorem createOrderRoles_reversed (relation : Address) (names : List String) :
    (createOrderRoles relation names : Action (Reversed σ) Stage Unit) =
      Reversed.within (createOrderRoles relation names) := by
  induction names with
  | nil => rfl
  | cons name names ih =>
      simp only [createOrderRoles, Reversed.within_bind, namedNode_reversed, ih]
      rfl

theorem bootstrap_reversed :
    (bootstrap : Action (Reversed σ) Stage Catalog) = Reversed.within bootstrap := by
  simp only [bootstrap, Reversed.within_bind, namedNode_reversed, createOrderRoles_reversed]
  rw [Catalog.resolve_reversed]
  rfl

theorem makeOperator_reversed (catalog : Catalog) (name : String) :
    (makeOperator catalog name : Action (Reversed σ) Stage (Address × Address)) =
      Reversed.within (makeOperator catalog name) := by
  simp only [makeOperator, Reversed.within_bind, namedNode_reversed]
  rfl

theorem attachOrderRole_reversed (catalog : Catalog) (arc : Address) (position : Nat) :
    (attachOrderRole catalog arc position : Action (Reversed σ) Stage Address) =
      Reversed.within (attachOrderRole catalog arc position) := by
  unfold attachOrderRole
  cases catalog.orderRole? position <;> rfl

end Setup

end SemanticMemory
