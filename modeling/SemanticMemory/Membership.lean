import SemanticMemory.TripleStore

/-!
# Set membership

The members of a set are the targets of the membership arcs that start at it.  There is no other
record of them.
-/

namespace SemanticMemory

namespace Membership

open TripleStore

variable {σ : Type} [TripleStore σ]

def arcs (set element : Address) : Pattern :=
  ⟨set, .membershipArc, element⟩

def members (set : Address) : Pattern :=
  ⟨set, .membershipArc, .any⟩

/-- Makes the element a member of the set and says whether it was none before. -/
def add (set element : Address) : Action σ Failure Bool := do
  if ← ask fun store => hasEdge store set element .membershipArc then
    return false
  else
    let arc ← change (createEdge .membershipArc set element)
    Action.emit (.memberAdded set element arc)
    return true

/-- Erases the edges of the listed triples one by one and says whether one of them was there. -/
def eraseEdges : List Triple → Action σ Failure Bool
  | [] => return false
  | triple :: triples => do
      let erased ← change (TripleStore.erase triple.edge)
      let others ← eraseEdges triples
      return erased || others

/-- Erases every membership arc from the set to the element and says whether there was one. -/
def remove (set element : Address) : Action σ Failure Bool := do
  let triples ← ask fun store => matching store (arcs set element)
  let removed ← eraseEdges triples
  if removed then
    Action.emit (.memberRemoved set element)
  return removed

/-- What adding comes to: nothing, or a membership arc, or the refusal of one. -/
theorem run_add {set element : Address} {store : σ} {isMember : Bool}
    (answered : hasEdge store set element .membershipArc = .ok isMember) :
    (add set element).run store =
      if isMember = true then ⟨.ok false, store, []⟩
      else
        match (createEdge .membershipArc set element).run store with
        | ⟨.ok arc, next, events⟩ => ⟨.ok true, next, events ++ [.memberAdded set element arc]⟩
        | ⟨.error cause, next, events⟩ => ⟨.error (.store cause), next, events⟩ := by
  have asked : (ask fun store => hasEdge store set element .membershipArc).run store =
      ⟨.ok isMember, store, []⟩ := by
    rw [run_ask, answered]
    rfl
  rw [add, Action.run_bind_of_ok asked]
  cases isMember with
  | true => rfl
  | false =>
      simp only [Bool.false_eq_true, if_false, List.nil_append]
      rcases created : (createEdge .membershipArc set element).run store with
        ⟨error | arc, next, events⟩
      · rw [Action.run_bind_of_error (run_change created)]
      · rw [Action.run_bind_of_ok (run_change created)]
        rfl

/-- Erasing edges one by one is erasing each of them and looking whether one was there. -/
theorem eraseEdges_eq (triples : List Triple) :
    (eraseEdges triples : Action σ Failure Bool) = do
      let answers ← change ((triples.map Triple.edge).mapM TripleStore.erase)
      return answers.any id := by
  induction triples with
  | nil => rfl
  | cons triple triples ih =>
      rw [eraseEdges, ih]
      simp only [List.map_cons, List.mapM_cons, change, Action.mapError_bind, Action.mapError_pure,
        bind_assoc, pure_bind, List.any_cons, id]

/-- Removing comes down to erasing what the store lists. -/
theorem run_remove {set element : Address} {store : σ} {triples : List Triple}
    (answered : matching store (arcs set element) = .ok triples) :
    (remove set element).run store =
      match (eraseEdges triples).run store with
      | ⟨.ok removed, next, events⟩ =>
          ⟨.ok removed, next, events ++ if removed then [.memberRemoved set element] else []⟩
      | ⟨.error failure, next, events⟩ => ⟨.error failure, next, events⟩ := by
  have asked : (ask fun store => matching store (arcs set element)).run store =
      ⟨.ok triples, store, []⟩ := by
    rw [run_ask, answered]
    rfl
  rw [remove, Action.run_bind_of_ok asked]
  rcases erased : (eraseEdges triples).run store with ⟨failure | removed, next, events⟩
  · rw [Action.run_bind_of_error erased]
    rfl
  · rw [Action.run_bind_of_ok erased]
    cases removed <;> rfl

theorem succeeds_remove {set element : Address} {store next : σ} {triples : List Triple}
    {removed : Bool} (answered : matching store (arcs set element) = .ok triples)
    (erased : (eraseEdges triples).Succeeds store removed next) :
    (remove set element).Succeeds store removed next := by
  obtain ⟨events, reply⟩ := erased
  exact ⟨_, by rw [run_remove answered, reply]⟩

end Membership

end SemanticMemory
