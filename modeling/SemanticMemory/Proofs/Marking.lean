import SemanticMemory.Proofs.Members
import SemanticMemory.Proofs.Reversal

/-!
# Which marked source is found

A resolver goes through the candidates of an element and takes the first that is marked.  A memory
lists the oldest candidate first, and a layer that reverses answers the youngest, so there may be a
choice.  The order does not matter where all marked candidates are one element.
-/

namespace SemanticMemory

open TripleStore

namespace Marker

variable {σ : Type} [TripleStore σ] {store : σ} {marker element : Address} {triples : List Triple}

theorem firstMarked_cons {triple : Triple} {answer : Bool}
    (asked : hasEdge store marker triple.source .membershipArc = .ok answer) :
    firstMarked store marker (triple :: triples) =
      if answer = true then .ok (some triple.source) else firstMarked store marker triples := by
  rw [firstMarked, asked]
  rfl

theorem markedSource_of_matching (answered : matching store (candidates element) = .ok triples) :
    markedSource store marker element = firstMarked store marker triples := by
  rw [markedSource, answered]
  rfl

/-- A resolver reports what it finds and changes nothing. -/
theorem run_resolve {found : Option Address}
    (answered : markedSource store marker element = .ok found) (report : Address → Event) :
    (resolve marker element report).run store = ⟨.ok found, store, found.toList.map report⟩ := by
  have asked := run_ask (fun store => markedSource store marker element) store
  rw [answered] at asked
  rw [resolve, Action.run_bind_of_ok asked]
  cases found <;> rfl

/-- A resolver answers with what it finds, or with the error of the store. -/
theorem result_resolve (store : σ) (marker element : Address) (report : Address → Event) :
    ((resolve marker element report).run store).result =
      (markedSource store marker element).mapError .store := by
  cases answered : markedSource store marker element with
  | error error =>
      have asked := run_ask (fun store => markedSource store marker element) store
      rw [answered] at asked
      rw [resolve, Action.run_bind_of_error asked]
      rfl
  | ok found =>
      rw [run_resolve answered]
      rfl

end Marker

namespace Memory

variable {memory : Memory} {marker element source edge : Address}

/-- Whether the edge is an access arc to the element and comes from a constant node that is marked
by a membership arc. -/
structure IsMarkedEdge (memory : Memory) (marker element edge source : Address) : Prop where
  joins : memory.Joins edge source element
  access : ∃ type, memory.typeAt? edge = some type ∧ type.carries .accessArc = true
  constant : ∃ type, memory.typeAt? source = some type ∧ type.carries .nodeConst = true
  marked : ∃ arc, memory.IsMemberArc arc marker source

/-- Whether a constant node has an access arc to the element and is marked by a membership arc. -/
structure IsMarkedSource (memory : Memory) (marker element source : Address) : Prop where
  constant : ∃ type, memory.typeAt? source = some type ∧ type.carries .nodeConst = true
  candidate : ∃ edge type, memory.Joins edge source element ∧
    memory.typeAt? edge = some type ∧ type.carries .accessArc = true
  marked : ∃ arc, memory.IsMemberArc arc marker source

/-- All marked sources of the element are one. -/
def OneMarked (memory : Memory) (marker element : Address) : Prop :=
  ∀ ⦃first second : Address⦄, memory.IsMarkedSource marker element first →
    memory.IsMarkedSource marker element second → first = second

theorem isMarkedSource_iff_isMarkedEdge :
    memory.IsMarkedSource marker element source ↔
      ∃ edge, memory.IsMarkedEdge marker element edge source := by
  constructor
  · rintro ⟨constant, ⟨edge, type, joins, typed, carried⟩, marked⟩
    exact ⟨edge, joins, ⟨type, typed, carried⟩, constant, marked⟩
  · rintro ⟨edge, joins, ⟨type, typed, carried⟩, constant, marked⟩
    exact ⟨constant, ⟨edge, type, joins, typed, carried⟩, marked⟩

theorem Linked.isMarkedEdge_iff (linked : memory.Linked) :
    memory.IsMarkedEdge marker element edge source ↔
      ⟨source, edge, element⟩ ∈ memory.scan (Marker.candidates element) ∧
        (marker, source) ∈ memory.memberPairs := by
  simp only [mem_memberPairs_iff, linked.mem_scan_memberArcs_iff, mem_scan_iff_joins]
  constructor
  · rintro ⟨joins, access, constant, marked⟩
    exact ⟨⟨joins, access, fits_typed_iff.mpr constant,
      fits_fixed_iff.mpr ⟨rfl, (linked.ends_isElement joins).2⟩⟩, marked⟩
  · rintro ⟨⟨joins, access, sourceFits, _⟩, marked⟩
    exact ⟨joins, access, fits_typed_iff.mp sourceFits, marked⟩

theorem target_of_mem_candidates {triple : Triple}
    (listed : triple ∈ memory.scan (Marker.candidates element)) : triple.target = element :=
  (fits_fixed_iff.mp (mem_scan_iff_joins.mp listed).2.2.2).1.symm

/-- A memory takes the first of the listed triples whose source is marked. -/
theorem Linked.firstMarked_eq (linked : memory.Linked) (marker : Address)
    (triples : List Triple) :
    Marker.firstMarked memory marker triples =
      .ok ((triples.find? fun triple => (marker, triple.source) ∈ memory.memberPairs).map
        Triple.source) := by
  induction triples with
  | nil => rfl
  | cons triple triples ih =>
      rw [Marker.firstMarked_cons (linked.hasEdge_membershipArc marker triple.source), ih,
        List.find?_cons]
      by_cases marked : (marker, triple.source) ∈ memory.memberPairs
      · simp [marked]
      · simp [marked]

theorem Linked.matching_reversed (linked : memory.Linked) (pattern : Pattern) :
    TripleStore.matching (Reversed.mk memory) pattern = .ok (memory.scan pattern).reverse := by
  rw [Reversed.matching_eq]
  exact congrArg (Except.map List.reverse) (linked.matching_eq_scan pattern)

/-- The source of the marked edge that comes before all others, or nothing where no edge is
marked. -/
structure Chooses (memory : Memory) (marker element : Address)
    (before : Address → Address → Prop) (found : Option Address) : Prop where
  none_iff : found = none ↔ ∀ edge source, ¬memory.IsMarkedEdge marker element edge source
  some_iff (source : Address) : found = some source ↔
    ∃ edge, memory.IsMarkedEdge marker element edge source ∧
      ∀ other otherSource, memory.IsMarkedEdge marker element other otherSource →
        before edge other

/-- In a sorted list, what is found first comes before whatever else could have been found. -/
theorem before_of_find? {triples : List Triple} {before : Address → Address → Prop}
    (refl : ∀ address, before address address)
    (sorted : triples.Pairwise fun first second => before first.edge second.edge)
    {wanted : Triple → Bool} {first other : Triple} (found : triples.find? wanted = some first)
    (listed : other ∈ triples) (isWanted : wanted other = true) :
    before first.edge other.edge := by
  obtain ⟨_, passed, rest, rfl, unwanted⟩ := List.find?_eq_some_iff_append.mp found
  rw [List.pairwise_append, List.pairwise_cons] at sorted
  rcases List.mem_append.mp listed with isPassed | isLater
  · exact absurd isWanted (by simpa using unwanted other isPassed)
  · rcases List.mem_cons.mp isLater with rfl | isLater
    · exact refl _
    · exact sorted.2.1.1 other isLater

/-- The first marked candidate of a sorted list is the source of the marked edge that comes before
all others. -/
theorem Linked.firstMarked_chooses (linked : memory.Linked) {triples : List Triple}
    (listed : ∀ triple, triple ∈ triples ↔ triple ∈ memory.scan (Marker.candidates element))
    {before : Address → Address → Prop} (refl : ∀ address, before address address)
    (antisymm : ∀ first second, before first second → before second first → first = second)
    (sorted : triples.Pairwise fun first second => before first.edge second.edge) :
    ∃ found, Marker.firstMarked memory marker triples = .ok found ∧
      memory.Chooses marker element before found := by
  refine ⟨_, linked.firstMarked_eq marker triples, ?_⟩
  have isMarkedEdge_iff {edge source : Address} :
      memory.IsMarkedEdge marker element edge source ↔
        ⟨source, edge, element⟩ ∈ triples ∧ (marker, source) ∈ memory.memberPairs := by
    rw [linked.isMarkedEdge_iff, listed]
  cases found : triples.find? fun triple => (marker, triple.source) ∈ memory.memberPairs with
  | none =>
      have noEdge (edge source : Address) : ¬memory.IsMarkedEdge marker element edge source := by
        intro marked
        obtain ⟨candidate, isMember⟩ := isMarkedEdge_iff.mp marked
        exact List.find?_eq_none.mp found _ candidate (decide_eq_true isMember)
      exact ⟨⟨fun _ => noEdge, fun _ => rfl⟩,
        fun source => ⟨nofun, fun ⟨edge, marked, _⟩ => absurd marked (noEdge edge source)⟩⟩
  | some first =>
      have candidate := List.mem_of_find?_eq_some found
      have isMember : (marker, first.source) ∈ memory.memberPairs := by
        simpa using List.find?_some found
      have target_eq := target_of_mem_candidates ((listed first).mp candidate)
      have firstMarked : memory.IsMarkedEdge marker element first.edge first.source :=
        isMarkedEdge_iff.mpr ⟨target_eq ▸ candidate, isMember⟩
      have firstBefore {other otherSource : Address}
          (marked : memory.IsMarkedEdge marker element other otherSource) :
          before first.edge other := by
        obtain ⟨otherListed, otherMember⟩ := isMarkedEdge_iff.mp marked
        exact before_of_find? refl sorted found otherListed (decide_eq_true otherMember)
      refine ⟨⟨nofun, fun noEdge => absurd firstMarked (noEdge _ _)⟩, fun source => ?_⟩
      rw [Option.map_some, Option.some.injEq]
      constructor
      · rintro rfl
        exact ⟨first.edge, firstMarked, fun _ _ => firstBefore⟩
      · rintro ⟨edge, marked, isBefore⟩
        have same := antisymm _ _ (firstBefore marked) (isBefore _ _ firstMarked)
        exact (firstMarked.joins.ends_inj (same ▸ marked.joins)).1

theorem Linked.markedSource_chooses (linked : memory.Linked) (marker element : Address) :
    (∃ found, Marker.markedSource memory marker element = .ok found ∧
      memory.Chooses marker element (· ≤ ·) found) ∧
    ∃ found, Marker.markedSource (Reversed.mk memory) marker element = .ok found ∧
      memory.Chooses marker element (· ≥ ·) found := by
  have sorted := memory.sorted_scan (Marker.candidates element)
  constructor
  · rw [Marker.markedSource_of_matching (linked.matching_eq_scan _)]
    exact linked.firstMarked_chooses (fun _ => Iff.rfl) (fun _ => Nat.le_refl _)
      (fun _ _ lower upper => Address.rank_injective (Nat.le_antisymm lower upper))
      (sorted.imp Nat.le_of_lt)
  · rw [Marker.markedSource_of_matching (linked.matching_reversed _), Marker.firstMarked_reversed]
    exact linked.firstMarked_chooses (fun _ => List.mem_reverse) (fun _ => Nat.le_refl _)
      (fun _ _ lower upper => Address.rank_injective (Nat.le_antisymm upper lower))
      (List.pairwise_reverse.mpr (sorted.imp Nat.le_of_lt))

section OneMarked

variable {before : Address → Address → Prop} {found : Option Address}

/-- A source that is marked is found where no other is, in whatever order the candidates come. -/
theorem Chooses.eq_some (chooses : memory.Chooses marker element before found)
    (one : memory.OneMarked marker element)
    (marked : memory.IsMarkedSource marker element source) : found = some source := by
  cases found with
  | none =>
      obtain ⟨edge, isMarked⟩ := isMarkedSource_iff_isMarkedEdge.mp marked
      exact absurd isMarked (chooses.none_iff.mp rfl edge source)
  | some other =>
      obtain ⟨edge, isMarked, _⟩ := (chooses.some_iff other).mp rfl
      rw [one (isMarkedSource_iff_isMarkedEdge.mpr ⟨edge, isMarked⟩) marked]

theorem Chooses.eq_none (chooses : memory.Chooses marker element before found)
    (noneMarked : ∀ source, ¬memory.IsMarkedSource marker element source) : found = none :=
  chooses.none_iff.mpr fun edge source isMarked =>
    noneMarked source (isMarkedSource_iff_isMarkedEdge.mpr ⟨edge, isMarked⟩)

/-- A source that is marked where no other is, is found over both orders of answers. -/
theorem Linked.markedSource_eq_some (linked : memory.Linked)
    (one : memory.OneMarked marker element)
    (marked : memory.IsMarkedSource marker element source) :
    Marker.markedSource memory marker element = .ok (some source) ∧
      Marker.markedSource (Reversed.mk memory) marker element = .ok (some source) := by
  obtain ⟨⟨oldest, oldestFound, chooses⟩, youngest, youngestFound, choosesLast⟩ :=
    linked.markedSource_chooses marker element
  rw [oldestFound, youngestFound, chooses.eq_some one marked, choosesLast.eq_some one marked]
  exact ⟨rfl, rfl⟩

/-- Where all marked sources are one, the order of answers does not matter to the resolvers. -/
theorem Linked.markedSource_reversed (linked : memory.Linked)
    (one : memory.OneMarked marker element) :
    Marker.markedSource (Reversed.mk memory) marker element =
      Marker.markedSource memory marker element := by
  obtain ⟨⟨oldest, oldestFound, chooses⟩, youngest, youngestFound, choosesLast⟩ :=
    linked.markedSource_chooses marker element
  rw [oldestFound, youngestFound]
  by_cases someMarked : ∃ source, memory.IsMarkedSource marker element source
  · obtain ⟨source, marked⟩ := someMarked
    rw [chooses.eq_some one marked, choosesLast.eq_some one marked]
  · rw [not_exists] at someMarked
    rw [chooses.eq_none someMarked, choosesLast.eq_none someMarked]

end OneMarked

/-- In a memory that calls lead to, the resolvers never fail and change nothing, whatever the
catalog.  They find the source of the oldest marked edge, over a layer that reverses answers that
of the youngest, and nothing only where no edge is marked. -/
theorem Reachable.resolvers_choose (reachable : Reachable memory) (catalog : Catalog)
    (element : Address) :
    (∃ found,
      (Marker.resolveOrderRole catalog element).run memory =
        ⟨.ok found, memory, found.toList.map (.orderRoleResolved element)⟩ ∧
      memory.Chooses catalog.orderRoleRelation element (· ≤ ·) found) ∧
    (∃ found,
      (Marker.resolveOperatorType catalog element).run memory =
        ⟨.ok found, memory, found.toList.map (.operatorTypeResolved element)⟩ ∧
      memory.Chooses catalog.operatorAtomicType element (· ≤ ·) found) ∧
    (∃ found,
      (Marker.resolveOrderRole catalog element).run (Reversed.mk memory) =
        ⟨.ok found, ⟨memory⟩, found.toList.map (.orderRoleResolved element)⟩ ∧
      memory.Chooses catalog.orderRoleRelation element (· ≥ ·) found) ∧
    ∃ found,
      (Marker.resolveOperatorType catalog element).run (Reversed.mk memory) =
        ⟨.ok found, ⟨memory⟩, found.toList.map (.operatorTypeResolved element)⟩ ∧
      memory.Chooses catalog.operatorAtomicType element (· ≥ ·) found := by
  have linked := reachable.sound.linked
  obtain ⟨⟨role, roleFound, roleChosen⟩, lastRole, lastRoleFound, lastRoleChosen⟩ :=
    linked.markedSource_chooses catalog.orderRoleRelation element
  obtain ⟨⟨type, typeFound, typeChosen⟩, lastType, lastTypeFound, lastTypeChosen⟩ :=
    linked.markedSource_chooses catalog.operatorAtomicType element
  exact ⟨⟨role, Marker.run_resolve roleFound _, roleChosen⟩,
    ⟨type, Marker.run_resolve typeFound _, typeChosen⟩,
    ⟨lastRole, Marker.run_resolve lastRoleFound _, lastRoleChosen⟩,
    ⟨lastType, Marker.run_resolve lastTypeFound _, lastTypeChosen⟩⟩

/-- A node with access arcs from an unmarked node, from a marked variable and from two marked
constant nodes. -/
def twiceMarked : Memory :=
  (Memory.empty ⟨16, 1⟩).after
    [.createNode .nodeConst, .createNode .nodeConst, .createNode .nodeConst, .createNode .nodeVar,
      .createNode .nodeConst, .createNode .nodeConst, .createEdge .membershipArc ⟨0, 2⟩ ⟨0, 4⟩,
      .createEdge .membershipArc ⟨0, 2⟩ ⟨0, 6⟩, .createEdge .membershipArc ⟨0, 2⟩ ⟨0, 5⟩,
      .createEdge .accessArc ⟨0, 3⟩ ⟨0, 1⟩, .createEdge .accessArc ⟨0, 4⟩ ⟨0, 1⟩,
      .createEdge .accessArc ⟨0, 6⟩ ⟨0, 1⟩, .createEdge .accessArc ⟨0, 5⟩ ⟨0, 1⟩]

theorem reachable_twiceMarked : Reachable twiceMarked :=
  Reachable.after (.empty rfl) _

/-- The order of the access arcs decides, not that of the nodes or of their marks; a marker that is
not there marks nothing. -/
theorem resolvers_choose_at_twiceMarked :
    let catalog : Catalog := ⟨List.replicate 10 ⟨9, 9⟩, rfl, ⟨0, 2⟩, ⟨9, 9⟩⟩
    Reachable twiceMarked ∧
      ((Marker.resolveOrderRole catalog ⟨0, 1⟩).run twiceMarked).result = .ok (some ⟨0, 6⟩) ∧
      twiceMarked.Chooses ⟨0, 2⟩ ⟨0, 1⟩ (· ≤ ·) (some ⟨0, 6⟩) ∧
      ((Marker.resolveOrderRole catalog ⟨0, 1⟩).run (Reversed.mk twiceMarked)).result =
        .ok (some ⟨0, 5⟩) ∧
      twiceMarked.Chooses ⟨0, 2⟩ ⟨0, 1⟩ (· ≥ ·) (some ⟨0, 5⟩) ∧
      ((Marker.resolveOperatorType catalog ⟨0, 1⟩).run twiceMarked).result = .ok none ∧
      twiceMarked.Chooses ⟨9, 9⟩ ⟨0, 1⟩ (· ≤ ·) none := by
  intro catalog
  have oldest : Marker.markedSource twiceMarked ⟨0, 2⟩ ⟨0, 1⟩ = .ok (some ⟨0, 6⟩) := by decide
  have youngest : Marker.markedSource (Reversed.mk twiceMarked) ⟨0, 2⟩ ⟨0, 1⟩ =
      .ok (some ⟨0, 5⟩) := by decide
  have noMarker : Marker.markedSource twiceMarked ⟨9, 9⟩ ⟨0, 1⟩ = .ok none := by decide
  have role_eq : ((Marker.resolveOrderRole catalog ⟨0, 1⟩).run twiceMarked).result =
      .ok (some ⟨0, 6⟩) := congrArg Reply.result (Marker.run_resolve oldest _)
  have lastRole_eq : ((Marker.resolveOrderRole catalog ⟨0, 1⟩).run
      (Reversed.mk twiceMarked)).result = .ok (some ⟨0, 5⟩) :=
    congrArg Reply.result (Marker.run_resolve youngest _)
  have type_eq : ((Marker.resolveOperatorType catalog ⟨0, 1⟩).run twiceMarked).result =
      .ok none := congrArg Reply.result (Marker.run_resolve noMarker _)
  obtain ⟨⟨role, roleFound, roleChosen⟩, ⟨type, typeFound, typeChosen⟩,
    ⟨lastRole, lastRoleFound, lastRoleChosen⟩, _⟩ :=
    reachable_twiceMarked.resolvers_choose catalog ⟨0, 1⟩
  obtain rfl : role = some ⟨0, 6⟩ := by simpa [roleFound] using role_eq
  obtain rfl : lastRole = some ⟨0, 5⟩ := by simpa [lastRoleFound] using lastRole_eq
  obtain rfl : type = none := by simpa [typeFound] using type_eq
  exact ⟨reachable_twiceMarked, role_eq, roleChosen, lastRole_eq, lastRoleChosen, type_eq,
    typeChosen⟩

end Memory

end SemanticMemory
