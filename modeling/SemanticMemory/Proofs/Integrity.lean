import SemanticMemory.Memory.History
import SemanticMemory.Proofs.Cascade
import SemanticMemory.Proofs.Growth
import SemanticMemory.Proofs.Renaming

/-!
# Integrity of reachable memories

Every call keeps a memory sound, whether it succeeds or fails, so every memory that calls lead to is
sound.
-/

namespace SemanticMemory

theorem ElementType.hasSingleKind_iff {type : ElementType} :
    type.hasSingleKind = true ↔ ∃! kind, kind ∈ Flag.kinds ∧ type.has kind = true := by
  rw [hasSingleKind, beq_iff_eq, List.countP_eq_length_filter, List.length_eq_one_iff]
  simp only [← List.mem_filter]
  constructor
  · rintro ⟨kind, only⟩
    exact ⟨kind, by simp [only], fun other member => by simpa [only] using member⟩
  · rintro ⟨kind, member, unique⟩
    have distinct : (Flag.kinds.filter type.has).Nodup :=
      List.Nodup.filter _ (by decide)
    exact ⟨kind, (List.perm_singleton.mp
      ((List.perm_ext_iff_of_nodup distinct (List.nodup_singleton kind)).mpr fun other =>
        ⟨fun listed => List.mem_singleton.mpr (unique other listed),
          fun same => List.mem_singleton.mp same ▸ member⟩))⟩

namespace Memory

variable {memory : Memory}

theorem Sound.apply (sound : memory.Sound) (call : Call) : (call.apply memory).Sound := by
  cases call with
  | createNode type => exact sound.createNode type
  | createLink => exact sound.createLink
  | createEdge type source target => exact sound.createEdge type source target
  | erase address => exact sound.erase address
  | assignIdentifier address identifier => exact sound.assignIdentifier address identifier
  | clear => exact Sound.empty memory.limits

theorem Reachable.sound (reachable : Reachable memory) : memory.Sound := by
  induction reachable with
  | empty valid => exact Sound.empty _
  | step _ call ih => exact ih.apply call

theorem Typed.exists_endpoints_iff (typed : memory.Typed) {address : Address} :
    (∃ ends, memory.endpoints address = .ok ends) ↔
      ∃ type, memory.elementType address = .ok type ∧ type.isEdge = true := by
  simp only [Prod.exists, endpoints_eq_ok_iff, elementType_eq_ok_iff]
  constructor
  · rintro ⟨source, target, joins⟩
    obtain ⟨element, found, joined⟩ := joins
    exact ⟨_, ⟨element, found, rfl⟩, (typed.isEdge_iff_joins found).mpr ⟨_, _, _, found, joined⟩⟩
  · rintro ⟨_, ⟨element, found, rfl⟩, isEdge⟩
    exact (typed.isEdge_iff_joins found).mp isEdge

/-- In a memory that calls lead to, the three places in which an edge is known agree, and the type
of an element tells whether it is an edge. -/
theorem Reachable.graph_agrees (reachable : Reachable memory) :
    (∀ edge source target, memory.Joins edge source target →
      memory.isElement source = true ∧ memory.isElement target = true) ∧
    (∀ address element, memory.elements[address]? = some element →
      (element.outgoing.Pairwise (· < ·) ∧
        ∀ edge, edge ∈ element.outgoing ↔ ∃ target, memory.Joins edge address target) ∧
      (element.incoming.Pairwise (· < ·) ∧
        ∀ edge, edge ∈ element.incoming ↔ ∃ source, memory.Joins edge source address) ∧
      (∃! kind, kind ∈ Flag.kinds ∧ element.type.has kind = true) ∧
      (element.ends.isSome = true ↔ element.type.isEdge = true)) ∧
    ∀ address, (∃ ends, memory.endpoints address = .ok ends) ↔
      ∃ type, memory.elementType address = .ok type ∧ type.isEdge = true := by
  have sound := reachable.sound
  refine ⟨fun _ _ _ joins => sound.linked.ends_isElement joins, ?_,
    fun _ => sound.typed.exists_endpoints_iff⟩
  intro address element found
  have typed := sound.typed found
  exact
    ⟨⟨sound.linked.outgoing.sorted found, fun _ => sound.linked.mem_outgoing_iff found⟩,
      ⟨sound.linked.incoming.sorted found, fun _ => sound.linked.mem_incoming_iff found⟩,
      ElementType.hasSingleKind_iff.mp typed.single_kind,
      by rw [typed.ends_isSome]⟩

/-- A node, a link, an edge between them, a loop on that edge, and an edge from it to the node. -/
def loopOnEdge : Memory :=
  (Memory.empty ⟨4, 3⟩).after
    [.createNode .nodeConst, .createLink, .createEdge .membershipArc ⟨0, 1⟩ ⟨0, 2⟩,
      .createEdge .commonArcConst ⟨0, 3⟩ ⟨0, 3⟩, .createEdge .commonArcConst ⟨0, 3⟩ ⟨0, 9⟩,
      .createEdge .commonArcConst ⟨0, 3⟩ ⟨0, 1⟩]

theorem reachable_loopOnEdge : Reachable loopOnEdge :=
  Reachable.after (.empty rfl) _

theorem graph_agrees_at_loopOnEdge :
    Reachable loopOnEdge ∧
      loopOnEdge.elements[(⟨0, 3⟩ : Address)]? =
        some ⟨.membershipArc, some (⟨0, 1⟩, ⟨0, 2⟩), [⟨0, 4⟩], [⟨0, 4⟩, ⟨1, 1⟩], none⟩ ∧
      ∀ edge, edge ∈ [⟨0, 4⟩, ⟨1, 1⟩] ↔ ∃ target, loopOnEdge.Joins edge ⟨0, 3⟩ target := by
  have found : loopOnEdge.elements[(⟨0, 3⟩ : Address)]? =
      some ⟨.membershipArc, some (⟨0, 1⟩, ⟨0, 2⟩), [⟨0, 4⟩], [⟨0, 4⟩, ⟨1, 1⟩], none⟩ := by
    decide
  exact ⟨reachable_loopOnEdge, found,
    (reachable_loopOnEdge.graph_agrees.2.1 _ _ found).1.2⟩

end Memory

end SemanticMemory
