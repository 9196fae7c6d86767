import SemanticMemory.Memory.Basic

/-!
# Dependence between elements

An edge depends on its ends.  Upwards, the cascade of an element holds all that depends on it,
through any number of edges.  Downwards, the cone of an element holds all that it depends on.  The
two are converse to each other.
-/

namespace SemanticMemory

namespace Memory

/-- Whether an edge lives at an address and runs from the source to the target. -/
def Joins (memory : Memory) (edge source target : Address) : Prop :=
  ∃ element, memory.elements[edge]? = some element ∧ element.ends = some (source, target)

/-- The least set that holds the root and every edge with an end in the set. -/
inductive Cascade (memory : Memory) (root : Address) : Address → Prop where
  | root : Cascade memory root root
  | fromSource {edge source target : Address} (joins : memory.Joins edge source target)
      (member : Cascade memory root source) : Cascade memory root edge
  | fromTarget {edge source target : Address} (joins : memory.Joins edge source target)
      (member : Cascade memory root target) : Cascade memory root edge

/-- The least set that holds the top and both ends of every edge in the set. -/
inductive Cone (memory : Memory) (top : Address) : Address → Prop where
  | top : Cone memory top top
  | toSource {edge source target : Address} (joins : memory.Joins edge source target)
      (member : Cone memory top edge) : Cone memory top source
  | toTarget {edge source target : Address} (joins : memory.Joins edge source target)
      (member : Cone memory top edge) : Cone memory top target

theorem Cascade.trans {memory : Memory} {first second third : Address}
    (lower : Cascade memory first second) (upper : Cascade memory second third) :
    Cascade memory first third := by
  induction upper with
  | root => exact lower
  | fromSource joins _ ih => exact .fromSource joins ih
  | fromTarget joins _ ih => exact .fromTarget joins ih

theorem Cone.trans {memory : Memory} {first second third : Address}
    (upper : Cone memory first second) (lower : Cone memory second third) :
    Cone memory first third := by
  induction lower with
  | top => exact upper
  | toSource joins _ ih => exact .toSource joins ih
  | toTarget joins _ ih => exact .toTarget joins ih

theorem cascade_iff_cone {memory : Memory} {lower upper : Address} :
    Cascade memory lower upper ↔ Cone memory upper lower := by
  constructor
  · intro cascade
    induction cascade with
    | root => exact .top
    | fromSource joins _ ih => exact (Cone.toSource joins .top).trans ih
    | fromTarget joins _ ih => exact (Cone.toTarget joins .top).trans ih
  · intro cone
    induction cone with
    | top => exact .root
    | toSource joins _ ih => exact (Cascade.fromSource joins .root).trans ih
    | toTarget joins _ ih => exact (Cascade.fromTarget joins .root).trans ih

end Memory

end SemanticMemory
