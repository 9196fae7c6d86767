import Mathlib.Data.List.Sort
import SemanticMemory.Proofs.Integrity

/-!
# Indexed answers are those of a plain scan

A pattern is answered from the edges at a fixed end when it fixes one.  In a sound memory these
lists hold every edge that can answer, once and in the order of addresses, so that the answer does
not depend on the list that serves.
-/

namespace SemanticMemory

instance : Std.Irrefl (α := Address) (· < ·) :=
  ⟨fun address => Nat.lt_irrefl address.rank⟩

instance : Std.Antisymm (α := Address) (· < ·) :=
  ⟨fun _ _ lower upper => absurd lower (Nat.lt_asymm upper)⟩

namespace Memory

variable {memory : Memory}

theorem sorted_keys (memory : Memory) :
    memory.elements.toList.Pairwise fun first second => first.1 < second.1 := by
  refine Std.ExtTreeMap.ordered_keys_toList.imp fun {first second} ordered => ?_
  rwa [Address.compare_eq, Nat.compare_eq_lt] at ordered

theorem sorted_edges (memory : Memory) : memory.edges.Pairwise (· < ·) :=
  List.pairwise_map.mpr (memory.sorted_keys.filter _)

/-- The triple of the edge at an address, if the pattern asks for it. -/
def answer (memory : Memory) (pattern : Pattern) (edge : Address) : Option Triple :=
  memory.elements[edge]?.bind fun element => memory.tripleFor pattern (edge, element)

theorem scan_eq_filterMap_edges (memory : Memory) (pattern : Pattern) :
    memory.scan pattern = memory.edges.filterMap (memory.answer pattern) := by
  unfold scan edges
  rw [List.filterMap_map, List.filterMap_filter]
  refine List.filterMap_congr fun entry member => ?_
  have found := Std.ExtTreeMap.mem_toList_iff_getElem?_eq_some.mp member
  rw [Function.comp_apply, answer, found, Option.bind_some]
  cases joined : entry.2.ends with
  | none => simp [tripleFor, joined]
  | some ends => rfl

theorem edge_of_answer {pattern : Pattern} {edge : Address} {triple : Triple}
    (answered : memory.answer pattern edge = some triple) : triple.edge = edge := by
  obtain ⟨element, _, asked⟩ := Option.bind_eq_some_iff.mp answered
  exact edge_of_tripleFor asked

theorem mem_scan_of_answer {pattern : Pattern} {edge : Address} {triple : Triple}
    (answered : memory.answer pattern edge = some triple) : triple ∈ memory.scan pattern := by
  obtain ⟨element, found, asked⟩ := Option.bind_eq_some_iff.mp answered
  exact List.mem_filterMap.mpr
    ⟨(edge, element), Std.ExtTreeMap.mem_toList_iff_getElem?_eq_some.mpr found, asked⟩

theorem sorted_scan (memory : Memory) (pattern : Pattern) :
    (memory.scan pattern).Pairwise fun first second => first.edge < second.edge := by
  rw [scan_eq_filterMap_edges, List.pairwise_filterMap]
  refine memory.sorted_edges.imp fun lower first firstAnswer second secondAnswer => ?_
  rwa [edge_of_answer firstAnswer, edge_of_answer secondAnswer]

theorem eq_of_fits {slot : Slot} {wanted address : Address}
    (isFixed : slot.address? = some wanted) (fitting : memory.fits slot address = true) :
    address = wanted := by
  cases slot with
  | typed filter => contradiction
  | fixed other =>
      rw [Slot.address?, Option.some.injEq] at isFixed
      subst isFixed
      unfold fits at fitting
      cases found : memory.typeAt? address with
      | none => simp [found] at fitting
      | some type =>
          rw [found, Option.any_some, Slot.accepts_fixed] at fitting
          exact fitting.symm

/-- An edge that answers has the ends that the pattern fixes. -/
theorem endOn_of_answer {pattern : Pattern} {edge : Address} {triple : Triple}
    (answered : memory.answer pattern edge = some triple) :
    (∀ source, pattern.source.address? = some source →
        memory.endOn Prod.fst edge = some source) ∧
      ∀ target, pattern.target.address? = some target →
        memory.endOn Prod.snd edge = some target := by
  have edge_eq := edge_of_answer answered
  obtain ⟨element, found, ends, _, sourceFits, targetFits⟩ :=
    mem_scan_iff.mp (mem_scan_of_answer answered)
  have joins : memory.Joins edge triple.source triple.target := edge_eq ▸ ⟨element, found, ends⟩
  constructor
  · intro source isFixed
    exact endOn_eq_some_iff.mpr ⟨_, _, joins, eq_of_fits isFixed sourceFits⟩
  · intro target isFixed
    exact endOn_eq_some_iff.mpr ⟨_, _, joins, eq_of_fits isFixed targetFits⟩

/-- Looking at an edge never fails in a sound memory, since its ends live. -/
theorem Linked.examine_eq (linked : memory.Linked) (pattern : Pattern) {edge : Address}
    (lives : memory.isElement edge = true) :
    memory.examine pattern edge = .ok (memory.answer pattern edge) := by
  obtain ⟨element, found⟩ := isElement_iff_exists_element.mp lives
  rw [examine, element_eq_ok_iff.mpr found, answer, found, Option.bind_some, tripleFor]
  cases joined : element.ends with
  | none => simp [joined, bind, Except.bind, pure, Except.pure]
  | some ends =>
      obtain ⟨sourceLives, targetLives⟩ := linked.ends_isElement (joins_of_ends found joined)
      obtain ⟨source, sourceFound⟩ := isElement_iff_exists_element.mp sourceLives
      obtain ⟨target, targetFound⟩ := isElement_iff_exists_element.mp targetLives
      have sourceType := elementType_eq_ok_iff.mpr ⟨source, sourceFound, rfl⟩
      have targetType := elementType_eq_ok_iff.mpr ⟨target, targetFound, rfl⟩
      have sourceFits : memory.fits pattern.source ends.1 =
          pattern.source.accepts ends.1 source.type := by
        simp only [fits, typeAt?, sourceFound, Option.map_some, Option.any_some]
      have targetFits : memory.fits pattern.target ends.2 =
          pattern.target.accepts ends.2 target.type := by
        simp only [fits, typeAt?, targetFound, Option.map_some, Option.any_some]
      simp only [bind, Except.bind, pure, Except.pure, joined, sourceType, targetType, sourceFits,
        targetFits]
      cases element.type.carries pattern.edgeType <;>
        cases pattern.source.accepts ends.1 source.type <;>
          cases pattern.target.accepts ends.2 target.type <;> rfl

theorem gather_eq {question : Address → Except StoreError (Option Triple)}
    {answer : Address → Option Triple} {edges : List Address}
    (answered : ∀ edge ∈ edges, question edge = .ok (answer edge)) :
    gather question edges = .ok (edges.filterMap answer) := by
  induction edges with
  | nil => rfl
  | cons edge edges ih =>
      have first := answered edge List.mem_cons_self
      have rest := ih fun other member => answered other (List.mem_cons_of_mem _ member)
      rw [gather, first, rest]
      cases found : answer edge with
      | none => simp [found, bind, Except.bind, pure, Except.pure]
      | some triple => simp [found, bind, Except.bind, pure, Except.pure]

/-- The list of an end serves as well as the list of all edges, for questions that only edges with
that end can answer. -/
theorem Listed.filterMap_eq {side : Address × Address → Address} {list : Element → List Address}
    (listed : memory.Listed side list) {address : Address} {element : Element}
    (found : memory.elements[address]? = some element) {answer : Address → Option Triple}
    (atEnd : ∀ edge triple, answer edge = some triple →
      memory.endOn side edge = some address) :
    (list element).filterMap answer = memory.edges.filterMap answer := by
  -- Both lists are sorted, so it is enough that they have the same members.
  have listed_eq : list element =
      memory.edges.filter fun edge => memory.endOn side edge = some address := by
    refine (listed.sorted found).eq_of_mem_iff (memory.sorted_edges.filter _) fun edge => ?_
    rw [List.mem_filter, decide_eq_true_iff, listed.mem_iff found, mem_edges_iff_joins]
    constructor
    · intro ends
      obtain ⟨source, target, joins, _⟩ := endOn_eq_some_iff.mp ends
      exact ⟨⟨source, target, joins⟩, ends⟩
    · exact And.right
  rw [listed_eq, List.filterMap_filter]
  refine List.filterMap_congr fun edge _ => ?_
  split
  · rfl
  · next notEnd =>
      cases answered : answer edge with
      | none => rfl
      | some triple =>
          rw [atEnd edge triple answered] at notEnd
          simp at notEnd

theorem isElement_of_mem_edges {edge : Address} (member : edge ∈ memory.edges) :
    memory.isElement edge = true := by
  obtain ⟨_, _, joins⟩ := mem_edges_iff_joins.mp member
  exact joins.isElement

/-- No edge can answer a pattern that fixes an end to an address without an element. -/
theorem Listed.scan_eq_nil {side : Address × Address → Address} {list : Element → List Address}
    (listed : memory.Listed side list) {address : Address}
    (missing : memory.elements[address]? = none) {pattern : Pattern}
    (atEnd : ∀ edge triple, memory.answer pattern edge = some triple →
      memory.endOn side edge = some address) :
    memory.scan pattern = [] := by
  rw [scan_eq_filterMap_edges, List.filterMap_eq_nil_iff]
  intro edge _
  cases answered : memory.answer pattern edge with
  | none => rfl
  | some triple =>
      have lives := listed.isElement (atEnd edge triple answered)
      rw [isElement_eq_isSome, missing] at lives
      contradiction

theorem Linked.gather_edges (linked : memory.Linked) (pattern : Pattern) :
    gather (memory.examine pattern) memory.edges = .ok (memory.scan pattern) := by
  rw [scan_eq_filterMap_edges]
  exact gather_eq fun edge member => linked.examine_eq pattern (isElement_of_mem_edges member)

theorem Linked.gather_listed (linked : memory.Linked) {side : Address × Address → Address}
    {list : Element → List Address} (listed : memory.Listed side list) {address : Address}
    {element : Element} (found : memory.elements[address]? = some element) {pattern : Pattern}
    (atEnd : ∀ edge triple, memory.answer pattern edge = some triple →
      memory.endOn side edge = some address) :
    gather (memory.examine pattern) (list element) = .ok (memory.scan pattern) := by
  rw [scan_eq_filterMap_edges, ← listed.filterMap_eq found atEnd]
  refine gather_eq fun edge member => linked.examine_eq pattern ?_
  exact isElement_of_endOn ((listed.mem_iff found).mp member)

theorem Linked.gather_outgoing (linked : memory.Linked) {pattern : Pattern} {source : Address}
    (isFixed : pattern.source.address? = some source) {element : Element}
    (found : memory.elements[source]? = some element) :
    gather (memory.examine pattern) element.outgoing = .ok (memory.scan pattern) :=
  linked.gather_listed linked.outgoing found fun _ _ answered =>
    (endOn_of_answer answered).1 source isFixed

theorem Linked.gather_incoming (linked : memory.Linked) {pattern : Pattern} {target : Address}
    (isFixed : pattern.target.address? = some target) {element : Element}
    (found : memory.elements[target]? = some element) :
    gather (memory.examine pattern) element.incoming = .ok (memory.scan pattern) :=
  linked.gather_listed linked.incoming found fun _ _ answered =>
    (endOn_of_answer answered).2 target isFixed

/-- The list that serves a pattern: that of a fixed end, or all edges, or none where nothing can be
found. -/
theorem Linked.candidates_cases (linked : memory.Linked) (pattern : Pattern) :
    (∃ (source : Address) (element : Element), pattern.source.address? = some source ∧
        memory.elements[source]? = some element ∧
        memory.candidates pattern = element.outgoing) ∨
      (∃ (target : Address) (element : Element), pattern.target.address? = some target ∧
        memory.elements[target]? = some element ∧
        memory.candidates pattern = element.incoming) ∨
      memory.candidates pattern = memory.edges ∨
      memory.candidates pattern = [] ∧ memory.scan pattern = [] := by
  unfold candidates
  cases isFixedSource : pattern.source.address? with
  | some source =>
      cases found : memory.elements[source]? with
      | some element => exact .inl ⟨source, element, rfl, found, by simp only [found]⟩
      | none =>
          have noAnswer := linked.outgoing.scan_eq_nil found
            fun _ _ answered => (endOn_of_answer answered).1 source isFixedSource
          exact .inr (.inr (.inr ⟨by simp only [found], noAnswer⟩))
  | none =>
      cases isFixedTarget : pattern.target.address? with
      | some target =>
          cases found : memory.elements[target]? with
          | some element => exact .inr (.inl ⟨target, element, rfl, found, by simp only [found]⟩)
          | none =>
              have noAnswer := linked.incoming.scan_eq_nil found
                fun _ _ answered => (endOn_of_answer answered).2 target isFixedTarget
              exact .inr (.inr (.inr ⟨by simp only [found], noAnswer⟩))
      | none => exact .inr (.inr (.inl rfl))

theorem Linked.isElement_of_mem_candidates (linked : memory.Linked) {pattern : Pattern}
    {edge : Address} (member : edge ∈ memory.candidates pattern) :
    memory.isElement edge = true := by
  rcases linked.candidates_cases pattern with
    ⟨source, element, _, found, served⟩ | ⟨target, element, _, found, served⟩ | served |
      ⟨served, _⟩
  · rw [served, linked.outgoing.mem_iff found] at member
    exact isElement_of_endOn member
  · rw [served, linked.incoming.mem_iff found] at member
    exact isElement_of_endOn member
  · rw [served] at member
    exact isElement_of_mem_edges member
  · simp [served] at member

/-- The answer to a pattern is that of a plain scan. -/
theorem Linked.matching_eq_scan (linked : memory.Linked) (pattern : Pattern) :
    memory.matching pattern = .ok (memory.scan pattern) := by
  unfold matching
  rcases linked.candidates_cases pattern with
    ⟨source, element, isFixed, found, served⟩ | ⟨target, element, isFixed, found, served⟩ |
      served | ⟨served, noAnswer⟩
  · rw [served]
    exact linked.gather_outgoing isFixed found
  · rw [served]
    exact linked.gather_incoming isFixed found
  · rw [served]
    exact linked.gather_edges pattern
  · rw [served, noAnswer, gather]

theorem fits_fixed_iff {wanted address : Address} :
    memory.fits (.fixed wanted) address = true ↔
      wanted = address ∧ memory.isElement address = true := by
  unfold fits typeAt?
  rw [isElement_eq_isSome]
  cases memory.elements[address]? <;> simp

theorem Linked.hasEdge_eq (linked : memory.Linked) (source target : Address)
    (type : ElementType) :
    TripleStore.hasEdge memory source target type =
      .ok !(memory.scan ⟨source, type, target⟩).isEmpty := by
  have matched := linked.matching_eq_scan ⟨source, type, target⟩
  change (memory.matching ⟨source, type, target⟩).map _ = _
  rw [matched]
  rfl

theorem Linked.hasEdge_iff (linked : memory.Linked) {source target : Address}
    {type : ElementType} :
    TripleStore.hasEdge memory source target type = .ok true ↔
      ∃ (edge : Address) (element : Element), memory.elements[edge]? = some element ∧
        element.ends = some (source, target) ∧ element.type.carries type = true := by
  rw [linked.hasEdge_eq, Except.ok.injEq, Bool.not_eq_true', List.isEmpty_eq_false_iff_exists_mem]
  constructor
  · rintro ⟨triple, member⟩
    obtain ⟨element, found, ends, carried, sourceFits, targetFits⟩ := mem_scan_iff.mp member
    obtain ⟨rfl, _⟩ := fits_fixed_iff.mp sourceFits
    obtain ⟨rfl, _⟩ := fits_fixed_iff.mp targetFits
    exact ⟨triple.edge, element, found, ends, carried⟩
  · rintro ⟨edge, element, found, ends, carried⟩
    obtain ⟨sourceLives, targetLives⟩ := linked.ends_isElement ⟨element, found, ends⟩
    exact ⟨⟨source, edge, target⟩, mem_scan_iff.mpr
      ⟨element, found, ends, carried, fits_fixed_iff.mpr ⟨rfl, sourceLives⟩,
        fits_fixed_iff.mpr ⟨rfl, targetLives⟩⟩⟩

/-- In a memory that calls lead to, a pattern has the answer of a plain scan, whichever list of
edges serves, and no edge that is looked at causes an error. -/
theorem Reachable.matching_agrees (reachable : Reachable memory) (pattern : Pattern) :
    memory.matching pattern = .ok (memory.scan pattern) ∧
    (memory.scan pattern).Pairwise (fun first second => first.edge < second.edge) ∧
    (∀ edge ∈ memory.candidates pattern,
      ∃ answer, memory.examine pattern edge = .ok answer) ∧
    gather (memory.examine pattern) memory.edges = .ok (memory.scan pattern) ∧
    (∀ (source : Address) (element : Element), pattern.source.address? = some source →
      memory.elements[source]? = some element →
        gather (memory.examine pattern) element.outgoing = .ok (memory.scan pattern)) ∧
    (∀ (target : Address) (element : Element), pattern.target.address? = some target →
      memory.elements[target]? = some element →
        gather (memory.examine pattern) element.incoming = .ok (memory.scan pattern)) ∧
    ∀ source target type, TripleStore.hasEdge memory source target type = .ok true ↔
      ∃ (edge : Address) (element : Element), memory.elements[edge]? = some element ∧
        element.ends = some (source, target) ∧ element.type.carries type = true := by
  have linked := reachable.sound.linked
  exact
    ⟨linked.matching_eq_scan pattern, memory.sorted_scan pattern,
      fun edge member =>
        ⟨_, linked.examine_eq pattern (linked.isElement_of_mem_candidates member)⟩,
      linked.gather_edges pattern,
      fun _ _ isFixed found => linked.gather_outgoing isFixed found,
      fun _ _ isFixed found => linked.gather_incoming isFixed found,
      fun _ _ _ => linked.hasEdge_iff⟩

/-- The loop and the edge beside it share a flag with membership arcs, and lack the others. -/
theorem matching_agrees_at_loopOnEdge :
    Reachable loopOnEdge ∧
      loopOnEdge.matching ⟨.fixed ⟨0, 3⟩, .commonArcConst, .any⟩ =
        .ok [⟨⟨0, 3⟩, ⟨0, 4⟩, ⟨0, 3⟩⟩, ⟨⟨0, 3⟩, ⟨1, 1⟩, ⟨0, 1⟩⟩] ∧
      loopOnEdge.matching ⟨.fixed ⟨0, 3⟩, .membershipArc, .any⟩ = .ok [] ∧
      loopOnEdge.matching ⟨.any, .membershipArc, .any⟩ = .ok [⟨⟨0, 1⟩, ⟨0, 3⟩, ⟨0, 2⟩⟩] := by
  have matched (pattern : Pattern) : loopOnEdge.matching pattern = .ok (loopOnEdge.scan pattern) :=
    (reachable_loopOnEdge.matching_agrees pattern).1
  have fromEdge : loopOnEdge.scan ⟨.fixed ⟨0, 3⟩, .commonArcConst, .any⟩ =
      [⟨⟨0, 3⟩, ⟨0, 4⟩, ⟨0, 3⟩⟩, ⟨⟨0, 3⟩, ⟨1, 1⟩, ⟨0, 1⟩⟩] := by decide
  have noneFromEdge : loopOnEdge.scan ⟨.fixed ⟨0, 3⟩, .membershipArc, .any⟩ = [] := by decide
  have fromAnywhere : loopOnEdge.scan ⟨.any, .membershipArc, .any⟩ =
      [⟨⟨0, 1⟩, ⟨0, 3⟩, ⟨0, 2⟩⟩] := by decide
  rw [matched, matched, matched, fromEdge, noneFromEdge, fromAnywhere]
  exact ⟨reachable_loopOnEdge, rfl, rfl, rfl⟩

end Memory

end SemanticMemory
