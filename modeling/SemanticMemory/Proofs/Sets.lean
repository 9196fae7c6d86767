import SemanticMemory.Proofs.Integrity
import SemanticMemory.Proofs.Members

/-!
# Runs that keep sets

A run changes a memory by calls that leave membership arcs alone, adds members to sets and takes
members out of them.  The pairs that the calls of the run speak of are the pairs that the memory
answers, and the answers of further calls follow from the pairs.
-/

namespace SemanticMemory

/-- A call in a run that keeps sets. -/
inductive SetCall where
  | plain (call : Call)
  | add (set element : Address)
  | remove (set element : Address)

namespace SetCall

/-- Membership arcs come and go with members only, and members and sets are nodes or links. -/
def IsPermitted (memory : Memory) : SetCall → Prop
  | plain (.createEdge type _ _) => type.carries .membershipArc = false
  | plain (.erase root) => ¬∃ set element, memory.IsMemberArc root set element
  | plain _ => True
  | add set element | remove set element => memory.IsLeaf set ∧ memory.IsLeaf element

def apply (memory : Memory) : SetCall → Memory
  | plain call => call.apply memory
  | add set element => ((Membership.add set element).run memory).state
  | remove set element => ((Membership.remove set element).run memory).state

/-- The pairs after a call, given the pairs before it.  A pair is entered when it was added with
success, and an erasure takes every pair away that mentions the element. -/
def amend (memory : Memory) (relation : List (Address × Address)) :
    SetCall → List (Address × Address)
  | plain (.erase root) => relation.filter fun pair => pair.1 ≠ root ∧ pair.2 ≠ root
  | plain .clear => []
  | plain _ => relation
  | add set element =>
      match ((Membership.add set element).run memory).result with
      | .error _ => relation
      | .ok _ => if (set, element) ∈ relation then relation else relation ++ [(set, element)]
  | remove set element => relation.filter fun pair => pair ≠ (set, element)

end SetCall

/-- A memory that permitted calls lead to from an empty one, with the pairs of sets and members
that the calls speak of. -/
inductive SetRun : Memory → List (Address × Address) → Prop where
  | empty {limits : Limits} (valid : limits.validate = .ok ()) : SetRun (.empty limits) []
  | step {memory : Memory} {relation : List (Address × Address)} (run : SetRun memory relation)
      (call : SetCall) (permitted : call.IsPermitted memory) :
      SetRun (call.apply memory) (call.amend memory relation)

namespace Memory

variable {memory : Memory} {relation : List (Address × Address)}

theorem mirrors_empty (limits : Limits) : (Memory.empty limits).Mirrors [] := by
  have noTriples := scan_empty limits memberArcs
  constructor
  case sound => exact Sound.empty limits
  case pairs_eq => rw [memberPairs, noTriples, List.map_nil]
  case nodup => exact List.nodup_nil
  case leaves => simp [noTriples]

theorem Mirrors.applyPlain (mirrors : memory.Mirrors relation) {call : Call}
    (permitted : (SetCall.plain call).IsPermitted memory) :
    (call.apply memory).Mirrors ((SetCall.plain call).amend memory relation) := by
  cases call with
  | createNode type => exact mirrors.createNode type
  | createLink =>
      exact mirrors.insert (fun _ => fits_leaf (by decide) (by decide)) (.inl rfl)
  | createEdge type source target => exact mirrors.createEdge permitted source target
  | erase root => exact mirrors.erase permitted
  | assignIdentifier address identifier => exact mirrors.assignIdentifier address identifier
  | clear => exact mirrors_empty memory.limits

/-- Every permitted call keeps the membership arcs in step with the pairs. -/
theorem Mirrors.apply (mirrors : memory.Mirrors relation) {call : SetCall}
    (permitted : call.IsPermitted memory) :
    (call.apply memory).Mirrors (call.amend memory relation) := by
  cases call with
  | plain call => exact mirrors.applyPlain permitted
  | add set element =>
      obtain ⟨setLeaf, elementLeaf⟩ := permitted
      rw [SetCall.apply, SetCall.amend]
      by_cases isMember : (set, element) ∈ relation
      · simp only [mirrors.run_add_of_mem isMember, if_pos isMember]
        exact mirrors
      · rcases mirrors.run_add_of_not_mem setLeaf elementLeaf isMember with
          ⟨next, events, added, after⟩ | ⟨_, next, refused, after⟩
        · simp only [added, if_neg isMember]
          exact after
        · simp only [refused]
          exact after
  | remove set element =>
      obtain ⟨next, events, removed, after⟩ := mirrors.run_remove set element
      rw [SetCall.apply, SetCall.amend, removed]
      exact after

end Memory

theorem SetRun.mirrors {memory : Memory} {relation : List (Address × Address)}
    (run : SetRun memory relation) : memory.Mirrors relation := by
  induction run with
  | empty valid => exact Memory.mirrors_empty _
  | step _ call permitted ih => exact ih.apply permitted

/-- The pairs of a run say what adding and removing answer next, which membership arcs live, and
which members the memory lists for a set. -/
theorem SetRun.members_agree {memory : Memory} {relation : List (Address × Address)}
    (run : SetRun memory relation) :
    relation.Nodup ∧
    (∀ set element, memory.IsLeaf set → memory.IsLeaf element →
      (((Membership.add set element).run memory).result = .ok false ↔
        (set, element) ∈ relation) ∧
      ((set, element) ∉ relation →
        ((Membership.add set element).run memory).result = .ok true ∨
          (((Membership.add set element).run memory).result = .error (.store .capacityExceeded) ∧
            (Memory.createLink.run memory).result = .error .capacityExceeded)) ∧
      ((Membership.remove set element).run memory).result =
        .ok (decide ((set, element) ∈ relation))) ∧
    (∀ set element,
      ((set, element) ∈ relation → ∃! arc, memory.IsMemberArc arc set element) ∧
      ((set, element) ∉ relation → ∀ arc, ¬memory.IsMemberArc arc set element)) ∧
    ∀ set, (memory.matching (Membership.members set)).map (List.map Triple.target) =
      .ok ((relation.filter fun pair => pair.1 = set).map Prod.snd) := by
  have mirrors := run.mirrors
  have linked := mirrors.sound.linked
  refine ⟨mirrors.nodup, ?answers, ?arcs, ?members⟩
  case answers =>
    intro set element setLeaf elementLeaf
    obtain ⟨_, _, removed, _⟩ := mirrors.run_remove set element
    by_cases isMember : (set, element) ∈ relation
    · have added := mirrors.run_add_of_mem isMember
      simp [added, removed, isMember]
    · rcases mirrors.run_add_of_not_mem setLeaf elementLeaf isMember with
        ⟨_, _, added, _⟩ | ⟨full, _, refused, _⟩
      · simp [added, removed, isMember]
      · simp [refused, removed, isMember, full]
  case arcs =>
    intro set element
    simp only [Memory.isMemberArc_iff linked]
    constructor
    · intro isMember
      obtain ⟨arc, arcs_eq⟩ := mirrors.exists_scan_arcs_eq isMember
      simp [arcs_eq]
    · intro noMember
      simp [mirrors.scan_arcs_eq_nil noMember]
  case members =>
    intro set
    rw [linked.matching_eq_scan, Except.map, Memory.targets_members_eq, mirrors.pairs_eq]

/-- A node that is a member of itself.  A link was a member of it, too, until it was taken out, and
with it went an edge that started at the membership arc. -/
def selfMember : Memory :=
  [SetCall.plain (.createNode .nodeConst), .plain .createLink, .add ⟨0, 1⟩ ⟨0, 2⟩,
    .add ⟨0, 1⟩ ⟨0, 1⟩, .plain (.createEdge .commonArcConst ⟨0, 3⟩ ⟨0, 1⟩),
    .remove ⟨0, 1⟩ ⟨0, 2⟩].foldl SetCall.apply (.empty ⟨4, 3⟩)

theorem setRun_selfMember : SetRun selfMember [(⟨0, 1⟩, ⟨0, 1⟩)] := by
  have leaves := ((SetRun.empty (rfl : Limits.validate ⟨4, 3⟩ = .ok ())).step
    (.plain (.createNode .nodeConst)) trivial).step (.plain .createLink) trivial
  have entered := leaves.step (.add ⟨0, 1⟩ ⟨0, 2⟩)
    ⟨⟨.nodeConst, by decide, rfl⟩, ⟨.linkConst, by decide, rfl⟩⟩
  have enteredToo := entered.step (.add ⟨0, 1⟩ ⟨0, 1⟩)
    ⟨⟨.nodeConst, by decide, rfl⟩, ⟨.nodeConst, by decide, rfl⟩⟩
  have tagged := enteredToo.step (.plain (.createEdge .commonArcConst ⟨0, 3⟩ ⟨0, 1⟩))
    (by decide : ElementType.commonArcConst.carries .membershipArc = false)
  have takenOut := tagged.step (.remove ⟨0, 1⟩ ⟨0, 2⟩)
    ⟨⟨.nodeConst, by decide, rfl⟩, ⟨.linkConst, by decide, rfl⟩⟩
  exact takenOut

theorem members_agree_at_selfMember :
    SetRun selfMember [(⟨0, 1⟩, ⟨0, 1⟩)] ∧ selfMember.IsLeaf ⟨0, 1⟩ ∧
      ((Membership.add ⟨0, 1⟩ ⟨0, 1⟩).run selfMember).result = .ok false ∧
      ((Membership.remove ⟨0, 1⟩ ⟨0, 1⟩).run selfMember).result = .ok true ∧
      (∃! arc, selfMember.IsMemberArc arc ⟨0, 1⟩ ⟨0, 1⟩) ∧
      (∀ arc, ¬selfMember.IsMemberArc arc ⟨0, 1⟩ ⟨0, 2⟩) ∧
      (selfMember.matching (Membership.members ⟨0, 1⟩)).map (List.map Triple.target) =
        .ok [⟨0, 1⟩] := by
  have isMember : ((⟨0, 1⟩, ⟨0, 1⟩) : Address × Address) ∈ [(⟨0, 1⟩, ⟨0, 1⟩)] :=
    List.mem_singleton.mpr rfl
  obtain ⟨leaf, _⟩ := setRun_selfMember.mirrors.isLeaf_of_mem isMember
  obtain ⟨_, answers, arcs, members⟩ := setRun_selfMember.members_agree
  exact ⟨setRun_selfMember, leaf, (answers _ _ leaf leaf).1.mpr isMember,
    (answers _ _ leaf leaf).2.2, (arcs _ _).1 isMember, (arcs _ _).2 (by decide),
    members ⟨0, 1⟩⟩

end SemanticMemory
