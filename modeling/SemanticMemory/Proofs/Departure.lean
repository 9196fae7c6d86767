import SemanticMemory.Proofs.Erasure
import SemanticMemory.Proofs.Members

/-!
# Members that leave a set

Taking a member out of a set erases the arcs from the set to the member one after the other.  An
edge is younger than its ends, so neither the set, nor the member, nor any other of the arcs hangs
on an arc: every arc is there when its turn comes, and the set and the member stay, even if they are
edges themselves.
-/

namespace SemanticMemory

namespace Memory

variable {memory : Memory} {gone : Finset Address} {set element address arc : Address}

/-- Of two edges between the same ends, neither goes with the other. -/
theorem Linked.eq_of_cascade (linked : memory.Linked) {edge other source target : Address}
    (joins : memory.Joins edge source target) (joinsToo : memory.Joins other source target)
    (cascade : memory.Cascade edge other) : other = edge := by
  obtain ⟨notFromSource, notFromTarget⟩ := linked.not_cone_of_joins joins
  rcases (cascade_iff_of_joins joinsToo).mp cascade with same | fromSource | fromTarget
  · exact same
  · exact absurd (cascade_iff_cone.mp fromSource) notFromSource
  · exact absurd (cascade_iff_cone.mp fromTarget) notFromTarget

theorem Linked.mem_edges_scan_arcs_iff (linked : memory.Linked) :
    arc ∈ (memory.scan (Membership.arcs set element)).map Triple.edge ↔
      memory.IsMemberArc arc set element := by
  rw [isMemberArc_iff linked, List.mem_map]
  constructor
  · rintro ⟨⟨source, _, target⟩, listed, rfl⟩
    have between := listed
    rw [scan_arcs_eq, List.mem_filter, decide_eq_true_iff, Prod.mk.injEq] at between
    obtain ⟨_, rfl, rfl⟩ := between
    exact listed
  · exact fun listed => ⟨_, listed, rfl⟩

theorem nodup_edges_scan (memory : Memory) (pattern : Pattern) :
    ((memory.scan pattern).map Triple.edge).Nodup :=
  List.pairwise_map.mpr ((memory.sorted_scan pattern).imp fun older =>
    fun same => Nat.ne_of_lt older (congrArg Address.rank same))

section Arcs

variable {arcs : List Address} (linked : memory.Linked)
  (isArc : ∀ arc ∈ arcs, memory.IsMemberArc arc set element)

include linked isArc

/-- An arc goes with no other arc of the same set and member. -/
theorem falls_arcs_iff (isArcToo : memory.IsMemberArc arc set element) :
    memory.Falls arcs arc ↔ arc ∈ arcs := by
  constructor
  · rintro ⟨other, listed, _, cascade⟩
    rwa [linked.eq_of_cascade (isArc other listed).1 isArcToo.1 cascade]
  · exact fun listed => ⟨arc, listed, isArcToo.1.isElement, .root⟩

theorem not_falls_arcs : ¬memory.Falls arcs set ∧ ¬memory.Falls arcs element := by
  constructor
  · rintro ⟨other, listed, _, cascade⟩
    exact (linked.not_cone_of_joins (isArc other listed).1).1 (cascade_iff_cone.mp cascade)
  · rintro ⟨other, listed, _, cascade⟩
    exact (linked.not_cone_of_joins (isArc other listed).1).2 (cascade_iff_cone.mp cascade)

/-- Every arc is there when its turn comes. -/
theorem erasureAnswers_arcs (sound : memory.Sound) (distinct : arcs.Nodup) :
    memory.erasureAnswers arcs = arcs.map fun _ => true := by
  induction arcs using List.reverseRecOn with
  | nil => rfl
  | append_singleton earlier arc ih =>
      rw [List.forall_mem_append, List.forall_mem_singleton] at isArc
      obtain ⟨areArcs, isArc⟩ := isArc
      obtain ⟨distinctEarlier, _, apart⟩ := List.nodup_append.mp distinct
      have new : arc ∉ earlier := fun listed =>
        apart arc listed arc (List.mem_singleton.mpr rfl) rfl
      have lives : (memory.after (earlier.map .erase)).isElement arc = true :=
        sound.isElement_after_erase.mpr
          ⟨isArc.1.isElement, mt (falls_arcs_iff linked areArcs isArc).mp new⟩
      rw [erasureAnswers_append, ih areArcs distinctEarlier, List.map_append, erasureAnswers, lives]
      rfl

end Arcs

/-- What goes when a member leaves a set goes with one of the arcs between the two. -/
theorem Linked.falls_edges_scan_arcs_iff (linked : memory.Linked) :
    memory.Falls ((memory.scan (Membership.arcs set element)).map Triple.edge) address ↔
      ∃ arc, memory.IsMemberArc arc set element ∧ memory.Cascade arc address := by
  constructor
  · rintro ⟨arc, listed, _, cascade⟩
    exact ⟨arc, linked.mem_edges_scan_arcs_iff.mp listed, cascade⟩
  · rintro ⟨arc, isArc, cascade⟩
    exact ⟨arc, linked.mem_edges_scan_arcs_iff.mpr isArc, isArc.1.isElement, cascade⟩

theorem Linked.isEmpty_scan_arcs_iff (linked : memory.Linked) :
    (memory.scan (Membership.arcs set element)).isEmpty = false ↔
      ∃ arc, memory.IsMemberArc arc set element := by
  simp only [List.isEmpty_eq_false_iff_exists_mem, ← linked.mem_edges_scan_arcs_iff, List.mem_map]
  exact ⟨fun ⟨triple, listed⟩ => ⟨_, triple, listed, rfl⟩,
    fun ⟨_, triple, listed, _⟩ => ⟨triple, listed⟩⟩

/-- Where nobody is a member there is nothing to take out. -/
theorem Linked.run_remove_of_scan_eq_nil (linked : memory.Linked)
    (noArcs : memory.scan (Membership.arcs set element) = []) :
    (Membership.remove set element).run memory = ⟨.ok false, memory, []⟩ := by
  have answered : TripleStore.matching memory (Membership.arcs set element) = .ok [] :=
    noArcs ▸ linked.matching_eq_scan _
  rw [Membership.run_remove answered]
  rfl

/-- In a memory that calls lead to, taking a member out of a set never fails, and it says whether
there was an arc from the set to the member.  Exactly the arcs and what hangs on them is gone: every
arc is there when it is erased, the set and the member stay, and the rest is as it was.  A second
time there is nothing to take out. -/
theorem Reachable.member_leaves (reachable : Reachable memory) (set element : Address) :
    ∃ (triples : List Triple) (gone : Finset Address) (removed : Bool) (left : Memory),
      memory.matching (Membership.arcs set element) = .ok triples ∧
      (∀ arc, arc ∈ triples.map Triple.edge ↔ memory.IsMemberArc arc set element) ∧
      (Membership.remove set element).Succeeds memory removed left ∧
      (removed = true ↔ ∃ arc, memory.IsMemberArc arc set element) ∧
      ((triples.map Triple.edge).mapM erase).Succeeds memory (triples.map fun _ => true) left ∧
      (∀ address, address ∈ gone ↔
        ∃ arc, memory.IsMemberArc arc set element ∧ memory.Cascade arc address) ∧
      (∀ address, address ∈ gone ↔
        memory.isElement address = true ∧ left.isElement address = false) ∧
      (memory.isElement set = true → left.isElement set = true) ∧
      (memory.isElement element = true → left.isElement element = true) ∧
      (∀ address, left.isElement address = true →
        memory.isElement address = true ∧
        left.elementType address = memory.elementType address ∧
        left.endpoints address = memory.endpoints address ∧
        left.identifier address = memory.identifier address) ∧
      (Membership.remove set element).run left = ⟨.ok false, left, []⟩ := by
  have sound := reachable.sound
  have linked := sound.linked
  let triples := memory.scan (Membership.arcs set element)
  let arcs := triples.map Triple.edge
  have isArc : ∀ arc ∈ arcs, memory.IsMemberArc arc set element :=
    fun _ => linked.mem_edges_scan_arcs_iff.mp
  obtain ⟨gone, members, left_eq⟩ := sound.after_erase arcs
  have closed := closedUpwards_of_falls members
  have removed := linked.succeeds_remove set element
  rw [erasures_eq, left_eq] at removed
  have erased := memory.succeeds_mapM_erase arcs
  rw [erasureAnswers_arcs linked isArc sound (memory.nodup_edges_scan _), left_eq,
    List.map_map] at erased
  obtain ⟨setStays, elementStays⟩ := not_falls_arcs linked isArc
  refine ⟨triples, gone, _, memory.without gone, linked.matching_eq_scan _,
    fun _ => linked.mem_edges_scan_arcs_iff, removed, ?_, erased,
    fun address => (members address).trans linked.falls_edges_scan_arcs_iff, ?_, ?_, ?_, ?_, ?_⟩
  · rw [Bool.not_eq_true', linked.isEmpty_scan_arcs_iff]
  · intro address
    rw [← Bool.not_eq_true, isElement_without, not_and_not_right]
    exact ⟨fun isGone => ⟨((members address).mp isGone).isElement, fun _ => isGone⟩,
      fun ⟨lives, goes⟩ => goes lives⟩
  · exact fun lives => isElement_without.mpr ⟨lives, mt (members set).mp setStays⟩
  · exact fun lives => isElement_without.mpr ⟨lives, mt (members element).mp elementStays⟩
  · intro address livesAfter
    obtain ⟨livesBefore, kept⟩ := isElement_without.mp livesAfter
    exact ⟨livesBefore, elementType_without kept, endpoints_without kept,
      identifier_without kept⟩
  · refine (linked.without closed).run_remove_of_scan_eq_nil ?_
    rw [scan_without closed, List.filter_eq_nil_iff]
    intro triple listed
    have isGone : triple.edge ∈ gone :=
      (members triple.edge).mpr ⟨_, List.mem_map_of_mem listed, isElement_of_mem_scan listed, .root⟩
    simpa using isGone

/-- An edge that is a set, with two membership arcs of different types to its own source, an edge
between these arcs, and an arc beside them that makes no member. -/
def edgeWithMember : Memory :=
  (Memory.empty ⟨4, 3⟩).after
    [.createNode .nodeConst, .createNode .nodeConst, .createEdge .commonArcConst ⟨0, 1⟩ ⟨0, 2⟩,
      .createEdge .membershipArc ⟨0, 3⟩ ⟨0, 1⟩,
      .createEdge (.membershipArc ||| .ofFlag .fuzzy) ⟨0, 3⟩ ⟨0, 1⟩,
      .createEdge .commonArcConst ⟨0, 4⟩ ⟨1, 1⟩, .createEdge .commonArcConst ⟨0, 3⟩ ⟨0, 1⟩]

theorem reachable_edgeWithMember : Reachable edgeWithMember :=
  Reachable.after (.empty rfl) _

/-- The arc that makes no member runs from the set to the member, too, and stays. -/
theorem member_leaves_at_edgeWithMember :
    Reachable edgeWithMember ∧ edgeWithMember.Joins ⟨1, 3⟩ ⟨0, 3⟩ ⟨0, 1⟩ ∧
      ∃ left : Memory,
        (Membership.remove ⟨0, 3⟩ ⟨0, 1⟩).Succeeds edgeWithMember true left ∧
        ([⟨0, 4⟩, ⟨1, 1⟩].mapM erase).Succeeds edgeWithMember [true, true] left ∧
        left.isElement ⟨1, 2⟩ = false ∧ left.isElement ⟨0, 3⟩ = true ∧
        left.isElement ⟨1, 3⟩ = true ∧
        (Membership.remove ⟨0, 3⟩ ⟨0, 1⟩).run left = ⟨.ok false, left, []⟩ := by
  have answered : edgeWithMember.matching (Membership.arcs ⟨0, 3⟩ ⟨0, 1⟩) =
      .ok [⟨⟨0, 3⟩, ⟨0, 4⟩, ⟨0, 1⟩⟩, ⟨⟨0, 3⟩, ⟨1, 1⟩, ⟨0, 1⟩⟩] := by decide
  obtain ⟨triples, gone, removed, left, matched, isArc, succeeded, removed_iff, erased, members,
    gone_iff, setStays, elementStays, _, again⟩ :=
      reachable_edgeWithMember.member_leaves ⟨0, 3⟩ ⟨0, 1⟩
  rw [answered, Except.ok.injEq] at matched
  subst matched
  have isFirst : edgeWithMember.IsMemberArc ⟨0, 4⟩ ⟨0, 3⟩ ⟨0, 1⟩ := (isArc _).mp (by decide)
  have tag : edgeWithMember.Joins ⟨1, 2⟩ ⟨0, 4⟩ ⟨1, 1⟩ := ⟨_, rfl, rfl⟩
  have tagGone := (members ⟨1, 2⟩).mpr ⟨_, isFirst, .fromSource tag .root⟩
  have removed_eq : removed = true := removed_iff.mpr ⟨_, isFirst⟩
  subst removed_eq
  have beside : edgeWithMember.Joins ⟨1, 3⟩ ⟨0, 3⟩ ⟨0, 1⟩ := ⟨_, rfl, rfl⟩
  have notGone {address : Address} (lives : left.isElement address = true) : address ∉ gone := by
    intro isGone
    rw [((gone_iff address).mp isGone).2] at lives
    cases lives
  -- It is none of the arcs, and its ends stay, so nothing takes it along.
  have besideStays : ⟨1, 3⟩ ∉ gone := by
    intro isGone
    obtain ⟨arc, isArcHere, cascade⟩ := (members _).mp isGone
    rcases (cascade_iff_of_joins beside).mp cascade with rfl | fromSource | fromTarget
    · exact absurd ((isArc _).mpr isArcHere) (by decide)
    · exact notGone (setStays (by decide)) ((members _).mpr ⟨arc, isArcHere, fromSource⟩)
    · exact notGone (elementStays (by decide)) ((members _).mpr ⟨arc, isArcHere, fromTarget⟩)
  have besideLives : left.isElement ⟨1, 3⟩ = true := by
    by_contra dead
    exact besideStays ((gone_iff _).mpr ⟨by decide, Bool.eq_false_iff.mpr dead⟩)
  exact ⟨reachable_edgeWithMember, beside, left, succeeded, erased, ((gone_iff _).mp tagGone).2,
    setStays (by decide), besideLives, again⟩

end Memory

end SemanticMemory
