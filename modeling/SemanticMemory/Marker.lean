import SemanticMemory.Catalog.Basic

/-!
# Marked sources

The ordinal role of an edge and the type of an operator are found the same way.  Both are constant
nodes with an access arc to the element in question, and both are told apart from other such nodes
by a membership arc that comes from a marker of the catalog.  Where several nodes are marked, the
first one that the store lists is taken.
-/

namespace SemanticMemory

namespace Marker

open TripleStore

variable {σ : Type} [TripleStore σ]

/-- The constant nodes with an access arc to the element. -/
def candidates (element : Address) : Pattern :=
  ⟨ElementType.nodeConst, .accessArc, element⟩

/-- The first source that has a membership arc from the marker. -/
def firstMarked (store : σ) (marker : Address) :
    List Triple → Except StoreError (Option Address)
  | [] => .ok none
  | triple :: triples => do
      if ← hasEdge store marker triple.source .membershipArc then
        return some triple.source
      else
        firstMarked store marker triples

/-- The first candidate that has a membership arc from the marker. -/
def markedSource (store : σ) (marker element : Address) : Except StoreError (Option Address) := do
  firstMarked store marker (← matching store (candidates element))

/-- Finds the marked source of an element and reports it when there is one. -/
def resolve (marker element : Address) (report : Address → Event) :
    Action σ Failure (Option Address) := do
  match ← ask fun store => markedSource store marker element with
  | none => return none
  | some source =>
      Action.emit (report source)
      return some source

/-- The ordinal role that is attached to an edge. -/
def resolveOrderRole (catalog : Catalog) (edge : Address) : Action σ Failure (Option Address) :=
  resolve catalog.orderRoleRelation edge (.orderRoleResolved edge)

def resolveOperatorType (catalog : Catalog) (operator : Address) :
    Action σ Failure (Option Address) :=
  resolve catalog.operatorAtomicType operator (.operatorTypeResolved operator)

end Marker

end SemanticMemory
