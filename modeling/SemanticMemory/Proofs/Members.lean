import SemanticMemory.Membership
import SemanticMemory.Proofs.Answers
import SemanticMemory.Proofs.Clearing

/-!
# Sets are a relation between elements

The members of sets are recorded by arcs alone.  As long as membership arcs run between nodes and
links only, and are made and erased only as members come and go, the arcs are in step with a
relation between sets and elements.
-/

namespace SemanticMemory

namespace Memory

variable {memory : Memory}

/-- Whether a membership arc lives at an address and runs from the set to the element. -/
def IsMemberArc (memory : Memory) (arc set element : Address) : Prop :=
  memory.Joins arc set element ∧
    ∃ type, memory.typeAt? arc = some type ∧ type.carries .membershipArc = true

/-- Whether a node or a link lives at an address. -/
def IsLeaf (memory : Memory) (address : Address) : Prop :=
  ∃ type, memory.typeAt? address = some type ∧ (type.isNode || type.isLink) = true

/-- Asks for the membership arcs of all sets. -/
def memberArcs : Pattern :=
  ⟨.any, .membershipArc, .any⟩

/-- Every set paired with every member, in the order in which the members came to it. -/
def memberPairs (memory : Memory) : List (Address × Address) :=
  (memory.scan memberArcs).map fun triple => (triple.source, triple.target)

theorem IsLeaf.isElement {address : Address} (leaf : memory.IsLeaf address) :
    memory.isElement address = true := by
  obtain ⟨type, typed, _⟩ := leaf
  rw [isElement_eq_isSome_typeAt?, typed]
  rfl

theorem Typed.not_joins_of_isLeaf (typed : memory.Typed) {address : Address}
    (leaf : memory.IsLeaf address) (source target : Address) :
    ¬memory.Joins address source target := by
  intro joins
  obtain ⟨type, typedHere, isLeaf⟩ := leaf
  obtain ⟨element, found, rfl⟩ := typeAt?_eq_some_iff.mp typedHere
  have isEdge := (typed.isEdge_iff_joins found).mpr ⟨source, target, joins⟩
  exact (typed.isEdge_iff_not_leaf found).mp isEdge isLeaf

theorem Linked.mem_scan_memberArcs_iff (linked : memory.Linked) {triple : Triple} :
    triple ∈ memory.scan memberArcs ↔
      memory.IsMemberArc triple.edge triple.source triple.target := by
  rw [mem_scan_iff_joins, IsMemberArc]
  refine and_congr_right fun joins => ?_
  obtain ⟨sourceLives, targetLives⟩ := linked.ends_isElement joins
  simp only [memberArcs, fits_any_iff, sourceLives, targetLives, and_self, and_true]

theorem scan_arcs_eq (memory : Memory) (set element : Address) :
    memory.scan (Membership.arcs set element) =
      (memory.scan memberArcs).filter fun triple =>
        (triple.source, triple.target) = (set, element) := by
  rw [Membership.arcs, scan_fixed_source, scan_fixed_target, List.filter_filter]
  refine List.filter_congr fun triple _ => ?_
  rw [← Bool.decide_and, decide_eq_decide, Prod.mk.injEq, and_comm]

theorem targets_members_eq (memory : Memory) (set : Address) :
    (memory.scan (Membership.members set)).map Triple.target =
      (memory.memberPairs.filter fun pair => pair.1 = set).map Prod.snd := by
  rw [Membership.members, scan_fixed_source, memberPairs, List.filter_map, List.map_map]
  rfl

theorem mem_memberPairs_iff {set element : Address} :
    (set, element) ∈ memory.memberPairs ↔
      ∃ arc, ⟨set, arc, element⟩ ∈ memory.scan memberArcs := by
  rw [memberPairs, List.mem_map]
  constructor
  · rintro ⟨⟨_, arc, _⟩, member, pair⟩
    cases pair
    exact ⟨arc, member⟩
  · rintro ⟨arc, member⟩
    exact ⟨_, member, rfl⟩

theorem mem_memberPairs_iff_scan_arcs {set element : Address} :
    (set, element) ∈ memory.memberPairs ↔ memory.scan (Membership.arcs set element) ≠ [] := by
  rw [scan_arcs_eq, ne_eq, List.filter_eq_nil_iff, memberPairs, List.mem_map]
  simp

theorem Linked.hasEdge_membershipArc (linked : memory.Linked) (set element : Address) :
    TripleStore.hasEdge memory set element .membershipArc =
      .ok (decide ((set, element) ∈ memory.memberPairs)) := by
  rw [linked.hasEdge_eq, Except.ok.injEq, Bool.eq_iff_iff, decide_eq_true_iff,
    mem_memberPairs_iff_scan_arcs, Membership.arcs]
  cases memory.scan ⟨.fixed set, .membershipArc, .fixed element⟩ <;> simp

/-- What adding a member comes to: nothing, or a membership arc, or the refusal of one. -/
theorem Linked.run_add (linked : memory.Linked) (set element : Address) :
    (Membership.add set element).run memory =
      if (set, element) ∈ memory.memberPairs then ⟨.ok false, memory, []⟩
      else
        match (createEdge .membershipArc set element).run memory with
        | ⟨.ok arc, next, events⟩ => ⟨.ok true, next, events ++ [.memberAdded set element arc]⟩
        | ⟨.error cause, next, events⟩ => ⟨.error (.store cause), next, events⟩ := by
  rw [Membership.run_add (linked.hasEdge_membershipArc set element)]
  by_cases isMember : (set, element) ∈ memory.memberPairs
  · rw [if_pos (decide_eq_true isMember), if_pos isMember]
  · rw [if_neg (mt of_decide_eq_true isMember), if_neg isMember]
    have created : (TripleStore.createEdge .membershipArc set element).run memory =
        (createEdge .membershipArc set element).run memory := rfl
    rw [created]
    cases (createEdge .membershipArc set element).run memory with
    | mk result next events => cases result <;> rfl

/-- Adding a member leaves the memory as it was, or it does what making an arc does. -/
theorem Linked.state_add_cases (linked : memory.Linked) (set element : Address) :
    ((Membership.add set element).run memory).state = memory ∨
      ((Membership.add set element).run memory).state =
        (Call.createEdge .membershipArc set element).apply memory := by
  rw [linked.run_add, Call.apply]
  split
  · exact .inl rfl
  · right
    split
    · next created => rw [created]
    · next refused => rw [refused]

/-- The calls that erase the edges of the triples. -/
def erasures (triples : List Triple) : List Call :=
  triples.map fun triple => .erase triple.edge

theorem erasures_eq (triples : List Triple) :
    erasures triples = (triples.map Triple.edge).map .erase := by
  rw [erasures, List.map_map]
  rfl

theorem succeeds_eraseEdges (memory : Memory) (triples : List Triple) :
    (Membership.eraseEdges triples).Succeeds memory
      ((memory.erasureAnswers (triples.map Triple.edge)).any id)
      (memory.after (erasures triples)) := by
  rw [Membership.eraseEdges_eq, Action.succeeds_bind_iff, erasures_eq]
  exact ⟨_, _, Action.succeeds_mapError_iff.mpr (memory.succeeds_mapM_erase _),
    Action.succeeds_pure_iff.mpr ⟨rfl, rfl⟩⟩

/-- Where edges live, the first of them is there to be erased. -/
theorem any_erasureAnswers {triples : List Triple}
    (live : ∀ triple ∈ triples, memory.isElement triple.edge = true) :
    (memory.erasureAnswers (triples.map Triple.edge)).any id = !triples.isEmpty := by
  cases triples with
  | nil => rfl
  | cons triple triples => simp [erasureAnswers, live triple List.mem_cons_self]

theorem isElement_of_mem_scan {pattern : Pattern} {triple : Triple}
    (member : triple ∈ memory.scan pattern) : memory.isElement triple.edge = true :=
  (mem_scan_iff_joins.mp member).1.isElement

/-- Removing a member erases its arcs, and it says whether there were any. -/
theorem Linked.succeeds_remove (linked : memory.Linked) (set element : Address) :
    (Membership.remove set element).Succeeds memory
      (!(memory.scan (Membership.arcs set element)).isEmpty)
      (memory.after (erasures (memory.scan (Membership.arcs set element)))) := by
  have erased := memory.succeeds_eraseEdges (memory.scan (Membership.arcs set element))
  rw [any_erasureAnswers fun _ => isElement_of_mem_scan] at erased
  exact Membership.succeeds_remove (linked.matching_eq_scan _) erased

theorem IsLeaf.of_typeAt?_eq {other : Memory} {address : Address} (leaf : memory.IsLeaf address)
    (same : other.typeAt? address = memory.typeAt? address) : other.IsLeaf address := by
  obtain ⟨type, typed, isLeaf⟩ := leaf
  exact ⟨type, same.trans typed, isLeaf⟩

/-- The membership arcs are in step with a relation, and they run between nodes and links. -/
structure Mirrors (memory : Memory) (relation : List (Address × Address)) : Prop where
  sound : memory.Sound
  pairs_eq : memory.memberPairs = relation
  nodup : relation.Nodup
  leaves {triple : Triple} : triple ∈ memory.scan memberArcs →
    memory.IsLeaf triple.source ∧ memory.IsLeaf triple.target

section Mirrors

variable {relation : List (Address × Address)}

theorem Mirrors.mem_iff (mirrors : memory.Mirrors relation) {set element : Address} :
    (set, element) ∈ relation ↔
      ∃ arc, ⟨set, arc, element⟩ ∈ memory.scan memberArcs := by
  rw [← mirrors.pairs_eq, mem_memberPairs_iff]

theorem Mirrors.isLeaf_of_mem (mirrors : memory.Mirrors relation) {set element : Address}
    (member : (set, element) ∈ relation) : memory.IsLeaf set ∧ memory.IsLeaf element := by
  obtain ⟨arc, listed⟩ := mirrors.mem_iff.mp member
  exact mirrors.leaves listed

/-- Nothing changes between sets and members when no membership arc comes or goes. -/
theorem Mirrors.of_scan_eq (mirrors : memory.Mirrors relation) {other : Memory}
    (sound : other.Sound) (sameScan : other.scan memberArcs = memory.scan memberArcs)
    (sameTypes : ∀ address, memory.isElement address = true →
      other.typeAt? address = memory.typeAt? address) : other.Mirrors relation where
  sound := sound
  pairs_eq := by rw [memberPairs, sameScan, ← mirrors.pairs_eq, memberPairs]
  nodup := mirrors.nodup
  leaves member := by
    rw [sameScan] at member
    obtain ⟨source, target⟩ := mirrors.leaves member
    exact ⟨source.of_typeAt?_eq (sameTypes _ source.isElement),
      target.of_typeAt?_eq (sameTypes _ target.isElement)⟩

/-- A creation that is no membership arc changes nothing between sets and members. -/
theorem Mirrors.insert (mirrors : memory.Mirrors relation) {type : ElementType}
    {ends : Option (Address × Address)}
    (fits : ∀ place, memory.limits.settle memory.cursor = some place →
      memory.Fits place type ends)
    (noMember : ends = none ∨ type.carries .membershipArc = false) :
    ((Memory.insert type ends).run memory).state.Mirrors relation := by
  have sound := mirrors.sound.insert fits
  rcases run_insert_cases memory type ends with ⟨place, settled, created⟩ | ⟨cursor, refused, _⟩
  · rw [created] at sound ⊢
    refine mirrors.of_scan_eq sound ?_ fun _ =>
      typeAt?_extended_of_isElement mirrors.sound.ahead settled
    have silent : memory.tripleFor memberArcs (place, .fresh type ends) = none := by
      refine Option.eq_none_iff_forall_ne_some.mpr fun triple answers => ?_
      obtain ⟨_, joined, carried, _⟩ := tripleFor_eq_some_iff.mp answers
      rcases noMember with rfl | notCarried
      · cases joined
      · exact absurd (notCarried.symm.trans carried) Bool.false_ne_true
    rw [mirrors.sound.scan_extended (fits place settled), silent]
    exact List.append_nil _
  · rw [refused] at sound ⊢
    exact mirrors.of_scan_eq sound rfl fun _ _ => rfl

/-- A membership arc between two nodes or links adds a pair. -/
theorem Mirrors.extended (mirrors : memory.Mirrors relation) {place set element : Address}
    (settled : memory.limits.settle memory.cursor = some place) (setLeaf : memory.IsLeaf set)
    (elementLeaf : memory.IsLeaf element) (new : (set, element) ∉ relation) :
    (memory.extended place .membershipArc (some (set, element))).Mirrors
      (relation ++ [(set, element)]) := by
  have fits : memory.Fits place .membershipArc (some (set, element)) :=
    fits_edge (by decide) setLeaf.isElement elementLeaf.isElement settled
  have answers : memory.tripleFor memberArcs (place, .fresh .membershipArc (some (set, element))) =
      some ⟨set, place, element⟩ :=
    tripleFor_eq_some_iff.mpr ⟨rfl, rfl, ElementType.carries_self _,
      fits_any_iff.mpr setLeaf.isElement, fits_any_iff.mpr elementLeaf.isElement⟩
  have scan_eq := mirrors.sound.scan_extended fits memberArcs
  rw [answers, Option.toList_some] at scan_eq
  have kept {address : Address} (leaf : memory.IsLeaf address) :
      (memory.extended place .membershipArc (some (set, element))).IsLeaf address :=
    leaf.of_typeAt?_eq
      (typeAt?_extended_of_isElement mirrors.sound.ahead settled leaf.isElement)
  constructor
  case sound => exact mirrors.sound.extended fits
  case pairs_eq => rw [memberPairs, scan_eq, List.map_append, ← mirrors.pairs_eq, memberPairs]; rfl
  case nodup => exact List.nodup_append_comm.mp (List.nodup_cons.mpr ⟨new, mirrors.nodup⟩)
  case leaves =>
    intro triple member
    rw [scan_eq, List.mem_append, List.mem_singleton] at member
    rcases member with before | rfl
    · exact ⟨kept (mirrors.leaves before).1, kept (mirrors.leaves before).2⟩
    · exact ⟨kept setLeaf, kept elementLeaf⟩

/-- A membership arc goes only by itself or together with its set or its member. -/
theorem Mirrors.cascade_iff (mirrors : memory.Mirrors relation) {root : Address}
    {triple : Triple} (member : triple ∈ memory.scan memberArcs) :
    memory.Cascade root triple.edge ↔
      triple.edge = root ∨ triple.source = root ∨ triple.target = root := by
  obtain ⟨sourceLeaf, targetLeaf⟩ := mirrors.leaves member
  have typed := mirrors.sound.typed
  rw [cascade_iff_of_joins (mem_scan_iff_joins.mp member).1,
    cascade_iff_of_not_joins (typed.not_joins_of_isLeaf sourceLeaf),
    cascade_iff_of_not_joins (typed.not_joins_of_isLeaf targetLeaf)]

/-- An erasure takes the pairs away whose arcs go with it. -/
theorem Mirrors.without (mirrors : memory.Mirrors relation) {root : Address}
    {gone : Finset Address} (members : ∀ address, address ∈ gone ↔ memory.Cascade root address)
    {keeps : Address × Address → Bool}
    (agrees : ∀ triple ∈ memory.scan memberArcs,
      memory.Cascade root triple.edge ↔ keeps (triple.source, triple.target) = false) :
    (memory.without gone).Mirrors (relation.filter keeps) := by
  have closed := closedUpwards_of_cascade members
  have scan_eq := scan_without closed memberArcs
  have kept {address : Address} (leaf : memory.IsLeaf address) (notGone : address ∉ gone) :
      (memory.without gone).IsLeaf address := by
    refine leaf.of_typeAt?_eq ?_
    rw [typeAt?, typeAt?, getElem?_without, if_neg notGone, Option.map_map]
    rfl
  constructor
  case sound => exact mirrors.sound.without closed
  case pairs_eq =>
    rw [memberPairs, scan_eq, ← mirrors.pairs_eq, memberPairs, List.filter_map]
    congr 1
    refine List.filter_congr fun triple member => ?_
    have goes := (members triple.edge).trans (agrees triple member)
    cases keep : keeps (triple.source, triple.target) <;> simp_all
  case nodup => exact mirrors.nodup.filter _
  case leaves =>
    intro triple member
    rw [scan_eq, List.mem_filter, decide_eq_true_iff] at member
    obtain ⟨before, notGone⟩ := member
    obtain ⟨sourceLeaf, targetLeaf⟩ := mirrors.leaves before
    have joins := (mem_scan_iff_joins.mp before).1
    exact ⟨kept sourceLeaf fun isGone => notGone (closed joins (.inl isGone)),
      kept targetLeaf fun isGone => notGone (closed joins (.inr isGone))⟩

theorem Mirrors.createNode (mirrors : memory.Mirrors relation) (type : ElementType) :
    ((createNode type).run memory).state.Mirrors relation := by
  rw [run_createNode]
  split
  · next fits =>
      obtain ⟨single, notEdge⟩ := isEdge_of_fitsNode fits
      exact mirrors.insert (fun _ => fits_leaf single notEdge) (.inl rfl)
  · exact mirrors

theorem Mirrors.createEdge (mirrors : memory.Mirrors relation) {type : ElementType}
    (noMember : type.carries .membershipArc = false) (source target : Address) :
    ((createEdge type source target).run memory).state.Mirrors relation := by
  rcases run_createEdge_cases memory type source target with
    ⟨error, refused⟩ | ⟨fits, sourceLives, targetLives, created⟩
  · rw [refused]
    exact mirrors
  · rw [created]
    exact mirrors.insert (fun _ => fits_edge fits sourceLives targetLives) (.inr noMember)

theorem Mirrors.assignIdentifier (mirrors : memory.Mirrors relation) (address : Address)
    (text : String) : ((assignIdentifier address text).run memory).state.Mirrors relation := by
  have sound := mirrors.sound.assignIdentifier address text
  rcases run_assignIdentifier_cases memory address text with
    ⟨result, unchanged⟩ | ⟨element, _, _, assigned⟩
  · rw [unchanged]
    exact mirrors
  · have same := memory.sameGraph_renamed address element.identifier text
    rw [assigned] at sound ⊢
    exact mirrors.of_scan_eq sound (same.scan_eq memberArcs) fun address _ =>
      same.typeAt?_eq address

theorem Mirrors.erase (mirrors : memory.Mirrors relation) {root : Address}
    (noArc : ¬∃ set element, memory.IsMemberArc root set element) :
    ((erase root).run memory).state.Mirrors
      (relation.filter fun pair => pair.1 ≠ root ∧ pair.2 ≠ root) := by
  cases lives : memory.isElement root with
  | false =>
      rw [run_erase_of_not_isElement lives, List.filter_eq_self.mpr]
      · exact mirrors
      · intro pair member
        obtain ⟨setLeaf, elementLeaf⟩ := mirrors.isLeaf_of_mem member
        have notRoot {address : Address} (leaf : memory.IsLeaf address) : address ≠ root := by
          rintro rfl
          rw [leaf.isElement] at lives
          contradiction
        exact decide_eq_true ⟨notRoot setLeaf, notRoot elementLeaf⟩
  | true =>
      obtain ⟨gone, members, _, erased⟩ :=
        run_erase_of_isElement mirrors.sound.linked mirrors.sound.named lives
      rw [erased]
      refine mirrors.without members fun triple member => ?_
      have notRoot : triple.edge ≠ root := by
        rintro rfl
        exact noArc ⟨_, _, mirrors.sound.linked.mem_scan_memberArcs_iff.mp member⟩
      rw [mirrors.cascade_iff member, decide_eq_false_iff_not]
      simp only [notRoot, false_or]
      tauto

theorem Mirrors.eq_of_same_pair (mirrors : memory.Mirrors relation) {first second : Triple}
    (firstListed : first ∈ memory.scan memberArcs)
    (secondListed : second ∈ memory.scan memberArcs)
    (samePair : (first.source, first.target) = (second.source, second.target)) :
    first = second := by
  have distinct := mirrors.nodup
  rw [← mirrors.pairs_eq, memberPairs] at distinct
  exact List.inj_on_of_nodup_map distinct firstListed secondListed samePair

/-- A member has one arc and no other. -/
theorem Mirrors.exists_scan_arcs_eq (mirrors : memory.Mirrors relation) {set element : Address}
    (member : (set, element) ∈ relation) :
    ∃ arc, memory.scan (Membership.arcs set element) = [⟨set, arc, element⟩] := by
  obtain ⟨arc, listed⟩ := mirrors.mem_iff.mp member
  refine ⟨arc, scan_eq_of_mem_iff (List.pairwise_singleton _ _) fun triple => ?_⟩
  rw [scan_arcs_eq, List.mem_filter, decide_eq_true_iff, List.mem_singleton]
  constructor
  · rintro ⟨other, samePair⟩
    exact mirrors.eq_of_same_pair other listed samePair
  · rintro rfl
    exact ⟨listed, rfl⟩

theorem Mirrors.scan_arcs_eq_nil (mirrors : memory.Mirrors relation) {set element : Address}
    (noMember : (set, element) ∉ relation) : memory.scan (Membership.arcs set element) = [] := by
  rw [← mirrors.pairs_eq, mem_memberPairs_iff_scan_arcs] at noMember
  exact not_not.mp noMember

theorem isMemberArc_iff (linked : memory.Linked) {arc set element : Address} :
    memory.IsMemberArc arc set element ↔
      ⟨set, arc, element⟩ ∈ memory.scan (Membership.arcs set element) := by
  rw [scan_arcs_eq, List.mem_filter, linked.mem_scan_memberArcs_iff]
  simp

/-- What is a member already is not added. -/
theorem Mirrors.run_add_of_mem (mirrors : memory.Mirrors relation) {set element : Address}
    (member : (set, element) ∈ relation) :
    (Membership.add set element).run memory = ⟨.ok false, memory, []⟩ := by
  rw [mirrors.sound.linked.run_add, if_pos (mirrors.pairs_eq ▸ member)]

theorem result_insert (memory : Memory) (type : ElementType)
    (ends : Option (Address × Address)) :
    ((Memory.insert type ends).run memory).result =
      (memory.limits.allocate memory.cursor).1 := by
  rcases taken : memory.limits.allocate memory.cursor with ⟨_ | place, cursor⟩
  · simp only [Memory.insert, Action.run, taken]
  · simp only [Memory.insert, Action.run, taken]

/-- A new member is added, unless there is no room for one more element. -/
theorem Mirrors.run_add_of_not_mem (mirrors : memory.Mirrors relation) {set element : Address}
    (setLeaf : memory.IsLeaf set) (elementLeaf : memory.IsLeaf element)
    (new : (set, element) ∉ relation) :
    (∃ next events, (Membership.add set element).run memory = ⟨.ok true, next, events⟩ ∧
        next.Mirrors (relation ++ [(set, element)])) ∨
      ((createLink.run memory).result = .error .capacityExceeded ∧
        ∃ next, (Membership.add set element).run memory =
            ⟨.error (.store .capacityExceeded), next, []⟩ ∧
          next.Mirrors relation) := by
  have fits : ElementType.membershipArc.fitsEdge = true := by decide
  have added := mirrors.sound.linked.run_add set element
  rw [if_neg (mirrors.pairs_eq ▸ new), run_createEdge, if_pos fits, if_pos setLeaf.isElement,
    if_pos elementLeaf.isElement] at added
  rcases run_insert_cases memory .membershipArc (some (set, element)) with
    ⟨place, settled, created⟩ | ⟨cursor, refused, kept⟩
  · rw [created] at added
    exact .inl ⟨_, _, added, mirrors.extended settled setLeaf elementLeaf new⟩
  · have sameResult : (createLink.run memory).result =
        ((Memory.insert .membershipArc (some (set, element))).run memory).result :=
      (result_insert memory _ _).trans (result_insert memory _ _).symm
    rw [refused] at added sameResult
    exact .inr ⟨sameResult, _, added,
      mirrors.of_scan_eq (mirrors.sound.moved (kept mirrors.sound.ahead)) rfl fun _ _ => rfl⟩

/-- The arc of one pair takes the arc of no other pair along. -/
theorem Mirrors.cascade_arc_iff (mirrors : memory.Mirrors relation) {arc set element : Address}
    (isArc : (⟨set, arc, element⟩ : Triple) ∈ memory.scan memberArcs) {triple : Triple}
    (listed : triple ∈ memory.scan memberArcs) :
    memory.Cascade arc triple.edge ↔ (triple.source, triple.target) = (set, element) := by
  have joins := (mem_scan_iff_joins.mp isArc).1
  have notArc {address : Address} (leaf : memory.IsLeaf address) : address ≠ arc := by
    rintro rfl
    exact mirrors.sound.typed.not_joins_of_isLeaf leaf _ _ joins
  obtain ⟨sourceLeaf, targetLeaf⟩ := mirrors.leaves listed
  rw [mirrors.cascade_iff listed]
  simp only [notArc sourceLeaf, notArc targetLeaf, or_false]
  constructor
  · intro sameEdge
    have joinsToo := (mem_scan_iff_joins.mp listed).1
    rw [sameEdge] at joinsToo
    exact Prod.ext_iff.mpr (joinsToo.ends_inj joins)
  · intro samePair
    exact congrArg Triple.edge (mirrors.eq_of_same_pair listed isArc samePair)

/-- A member is taken out of a set, and what is no member stays none. -/
theorem Mirrors.run_remove (mirrors : memory.Mirrors relation) (set element : Address) :
    ∃ next events, (Membership.remove set element).run memory =
        ⟨.ok (decide ((set, element) ∈ relation)), next, events⟩ ∧
      next.Mirrors (relation.filter fun pair => pair ≠ (set, element)) := by
  have linked := mirrors.sound.linked
  obtain ⟨events, removed⟩ := linked.succeeds_remove set element
  by_cases isMember : (set, element) ∈ relation
  · obtain ⟨arc, arcs_eq⟩ := mirrors.exists_scan_arcs_eq isMember
    have isArc : (⟨set, arc, element⟩ : Triple) ∈ memory.scan memberArcs :=
      linked.mem_scan_memberArcs_iff.mpr ((isMemberArc_iff linked).mpr (by simp [arcs_eq]))
    have joins := (mem_scan_iff_joins.mp isArc).1
    obtain ⟨gone, members, _, erased⟩ :=
      run_erase_of_isElement linked mirrors.sound.named joins.isElement
    have left_eq : Call.apply memory (.erase arc) = memory.without gone :=
      congrArg Reply.state erased
    rw [arcs_eq] at removed
    refine ⟨_, events, by rw [removed, decide_eq_true isMember]; rfl, ?_⟩
    rw [erasures, List.map_singleton, after_cons, after_nil, left_eq]
    refine mirrors.without members fun triple listed => ?_
    rw [mirrors.cascade_arc_iff isArc listed, decide_eq_false_iff_not, not_not]
  · have arcs_eq := mirrors.scan_arcs_eq_nil isMember
    rw [arcs_eq] at removed
    refine ⟨memory, events, by rw [removed, decide_eq_false isMember]; rfl, ?_⟩
    have unchanged : (relation.filter fun pair => pair ≠ (set, element)) = relation :=
      List.filter_eq_self.mpr fun pair member => decide_eq_true fun same => isMember (same ▸ member)
    rwa [unchanged]

end Mirrors

end Memory

end SemanticMemory
