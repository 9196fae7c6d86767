import SemanticMemory.Proofs.Answers
import SemanticMemory.Proofs.Permanence

/-!
# What a creation adds

A creation is refused for its type, for an end that does not live, or for want of room, in this
order, and for nothing else.  A creation that is not refused adds one element.  The element is
attached to nothing yet, and an answer that it belongs to has it at the end.
-/

namespace SemanticMemory

namespace ElementType

/-- The kinds that a type states. -/
def kinds (type : ElementType) : List Flag :=
  Flag.kinds.filter type.has

variable {type : ElementType}

theorem mem_kinds_iff {kind : Flag} :
    kind ∈ type.kinds ↔ kind ∈ Flag.kinds ∧ type.has kind = true :=
  List.mem_filter

theorem hasSingleKind_iff_kinds : type.hasSingleKind = true ↔ ∃ kind, type.kinds = [kind] := by
  rw [hasSingleKind, beq_iff_eq, List.countP_eq_length_filter, List.length_eq_one_iff]
  rfl

theorem fitsNode_iff : type.fitsNode = true ↔ type.kinds = [.node] := by
  rw [fitsNode, Bool.and_eq_true, hasSingleKind_iff_kinds]
  constructor
  · rintro ⟨isNode, kind, only⟩
    have member : Flag.node ∈ type.kinds := mem_kinds_iff.mpr ⟨by decide, isNode⟩
    rw [only, List.mem_singleton] at member
    rw [only, member]
  · intro only
    exact ⟨(mem_kinds_iff.mp (only ▸ List.mem_singleton_self Flag.node)).2, .node, only⟩

theorem fitsEdge_iff : type.fitsEdge = true ↔ ∃ kind ∈ Flag.edgeKinds, type.kinds = [kind] := by
  rw [fitsEdge, Bool.and_eq_true, hasSingleKind_iff_kinds, isEdge, List.any_eq_true]
  constructor
  · rintro ⟨⟨edgeKind, isEdgeKind, stated⟩, kind, only⟩
    have isKind : edgeKind ∈ Flag.kinds :=
      List.mem_cons_of_mem _ (List.mem_cons_of_mem _ isEdgeKind)
    have member : edgeKind ∈ type.kinds := mem_kinds_iff.mpr ⟨isKind, stated⟩
    rw [only, List.mem_singleton] at member
    exact ⟨kind, member ▸ isEdgeKind, only⟩
  · rintro ⟨kind, isEdgeKind, only⟩
    have stated := (mem_kinds_iff.mp (only ▸ List.mem_singleton_self kind)).2
    exact ⟨⟨kind, isEdgeKind, stated⟩, kind, only⟩

end ElementType

/-- The call is for an element of the type and with the ends, and only want of room can stop it. -/
inductive Call.Makes (memory : Memory) :
    Call → ElementType → Option (Address × Address) → Prop where
  | node {type : ElementType} (only : type.kinds = [.node]) :
      Makes memory (.createNode type) type none
  | link : Makes memory .createLink .linkConst none
  | edge {type : ElementType} {kind : Flag} {source target : Address}
      (isEdgeKind : kind ∈ Flag.edgeKinds) (only : type.kinds = [kind])
      (sourceLives : memory.isElement source = true)
      (targetLives : memory.isElement target = true) :
      Makes memory (.createEdge type source target) type (some (source, target))

namespace Call

variable {memory : Memory} {call : Call} {type : ElementType} {ends : Option (Address × Address)}

theorem Makes.isFit (makes : call.Makes memory type ends) : call.IsFit memory := by
  cases makes with
  | node only => exact ElementType.fitsNode_iff.mpr only
  | link => trivial
  | edge isEdgeKind only sourceLives targetLives =>
      exact ⟨ElementType.fitsEdge_iff.mpr ⟨_, isEdgeKind, only⟩, sourceLives, targetLives⟩

theorem Makes.fits (makes : call.Makes memory type ends) {place : Address}
    (settled : memory.limits.settle memory.cursor = some place) :
    memory.Fits place type ends := by
  cases makes with
  | node only =>
      obtain ⟨single, notEdge⟩ := Memory.isEdge_of_fitsNode (ElementType.fitsNode_iff.mpr only)
      exact Memory.fits_leaf single notEdge settled
  | link => exact Memory.fits_leaf (by decide) (by decide) settled
  | edge isEdgeKind only sourceLives targetLives =>
      exact Memory.fits_edge (ElementType.fitsEdge_iff.mpr ⟨_, isEdgeKind, only⟩) sourceLives
        targetLives settled

/-- What a call is for is made at the next address, unless there is no room for it. -/
theorem Makes.creation_cases (makes : call.Makes memory type ends) :
    (∃ place, memory.Fits place type ends ∧ call.creation? memory = some (.ok place) ∧
        call.apply memory = memory.extended place type ends) ∨
      call.creation? memory = some (.error .capacityExceeded) := by
  have inserted : call.creation? memory = some ((Memory.insert type ends).run memory).result ∧
      call.apply memory = ((Memory.insert type ends).run memory).state := by
    cases makes with
    | node only =>
        exact createNode_of_fits (ElementType.fitsNode_iff.mpr only)
    | link => exact ⟨rfl, rfl⟩
    | edge isEdgeKind only sourceLives targetLives =>
        exact createEdge_of_fits (ElementType.fitsEdge_iff.mpr ⟨_, isEdgeKind, only⟩)
          sourceLives targetLives
  rcases memory.run_insert_cases type ends with ⟨place, settled, made⟩ | ⟨cursor, refused, _⟩
  · rw [made] at inserted
    exact .inl ⟨place, makes.fits settled, inserted⟩
  · rw [refused] at inserted
    exact .inr inserted.1

/-- A node is refused exactly when another kind is stated than that of a node, or none. -/
theorem createNode_refused_iff (memory : Memory) (type : ElementType) :
    (createNode type).creation? memory = some (.error (.notANodeType type)) ↔
      type.kinds ≠ [.node] := by
  by_cases only : type.kinds = [.node]
  · have makes : (createNode type).Makes memory type none := .node only
    rcases makes.creation_cases with ⟨_, _, made, _⟩ | full
    · simp [made, only]
    · simp [full, only]
  · have unfits := mt ElementType.fitsNode_iff.mp only
    simp [creation?, Memory.run_createNode, unfits, only]

/-- An edge is refused for its type, then for its source, then for its target. -/
theorem createEdge_refused_iff (memory : Memory) (type : ElementType) (source target : Address) :
    ((createEdge type source target).creation? memory = some (.error (.notAnEdgeType type)) ↔
        ∀ kind ∈ Flag.edgeKinds, type.kinds ≠ [kind]) ∧
      ((∃ kind ∈ Flag.edgeKinds, type.kinds = [kind]) →
        ((createEdge type source target).creation? memory =
            some (.error (.elementNotFound source)) ↔ memory.isElement source = false) ∧
          (memory.isElement source = true →
            ((createEdge type source target).creation? memory =
              some (.error (.elementNotFound target)) ↔ memory.isElement target = false))) := by
  by_cases fit : ∃ kind ∈ Flag.edgeKinds, type.kinds = [kind]
  · have fits := ElementType.fitsEdge_iff.mpr fit
    obtain ⟨kind, isEdgeKind, only⟩ := fit
    have stated : ¬∀ kind ∈ Flag.edgeKinds, type.kinds ≠ [kind] :=
      fun none => none kind isEdgeKind only
    cases sourceLives : memory.isElement source with
    | false => simp [creation?, Memory.run_createEdge, fits, sourceLives, stated]
    | true =>
        cases targetLives : memory.isElement target with
        | false =>
            have distinct : target ≠ source :=
              fun same => by simp [same, sourceLives] at targetLives
            simp [creation?, Memory.run_createEdge, fits, sourceLives, targetLives, stated,
              distinct]
        | true =>
            have makes : (createEdge type source target).Makes memory type _ :=
              .edge isEdgeKind only sourceLives targetLives
            rcases makes.creation_cases with ⟨_, _, made, _⟩ | full
            · simp [made, stated]
            · simp [full, stated]
  · have unfits := mt ElementType.fitsEdge_iff.mp fit
    refine ⟨iff_of_true ?_ fun kind isEdgeKind only => fit ⟨kind, isEdgeKind, only⟩,
      fun stated => absurd stated fit⟩
    simp [creation?, Memory.run_createEdge, unfits]

/-- A call that creates an element was for that element. -/
theorem exists_makes_of_created {place : Address}
    (created : call.creation? memory = some (.ok place)) :
    ∃ type ends, call.Makes memory type ends := by
  cases call with
  | createNode type =>
      rw [creation?, Memory.run_createNode] at created
      split at created
      · next fits => exact ⟨type, none, .node (ElementType.fitsNode_iff.mp fits)⟩
      · simp at created
  | createLink => exact ⟨.linkConst, none, .link⟩
  | createEdge type source target =>
      rcases Memory.run_createEdge_cases memory type source target with
        ⟨error, refused⟩ | ⟨fits, sourceLives, targetLives, _⟩
      · simp [creation?, refused] at created
      · obtain ⟨kind, isEdgeKind, only⟩ := ElementType.fitsEdge_iff.mp fits
        exact ⟨type, _, .edge isEdgeKind only sourceLives targetLives⟩
  | erase | assignIdentifier | clear => contradiction

end Call

namespace Memory

/-- What a call leaves when it creates an element with the type and the ends. -/
structure Adds (memory left : Memory) (place : Address) (type : ElementType)
    (ends : Option (Address × Address)) : Prop where
  vacant : memory.isElement place = false
  found : left.elements[place]? = some ⟨type, ends, [], [], none⟩
  not_source (edge target : Address) : ¬left.Joins edge place target
  not_target (edge source : Address) : ¬left.Joins edge source place
  isElement_eq {other : Address} (distinct : other ≠ place) :
    left.isElement other = memory.isElement other
  elementType_eq {other : Address} (distinct : other ≠ place) :
    left.elementType other = memory.elementType other
  endpoints_eq {other : Address} (distinct : other ≠ place) :
    left.endpoints other = memory.endpoints other
  identifier_eq {other : Address} (distinct : other ≠ place) :
    left.identifier other = memory.identifier other
  /-- A pattern has the answer that it had, and after it the new triple if it asks for that. -/
  matching_eq (pattern : Pattern) : ∃ (before : List Triple) (added : Option Triple),
    memory.matching pattern = .ok before ∧
      left.matching pattern = .ok (before ++ added.toList) ∧
      ∀ triple, added = some triple ↔
        triple.edge = place ∧ ends = some (triple.source, triple.target) ∧
          type.carries pattern.edgeType = true ∧
          left.fits pattern.source triple.source = true ∧
          left.fits pattern.target triple.target = true

variable {memory : Memory} {place : Address} {type : ElementType}
  {ends : Option (Address × Address)}

theorem Sound.adds_extended (sound : memory.Sound) (fits : memory.Fits place type ends) :
    memory.Adds (memory.extended place type ends) place type ends := by
  have linked := sound.linked
  have older {address : Address} (lives : memory.isElement address = true) : address ≠ place :=
    (sound.spent lives).ne_place fits.settled
  have source_ne : ends.map Prod.fst ≠ some place :=
    fun same => older (fits.source_isElement same) rfl
  have target_ne : ends.map Prod.snd ≠ some place :=
    fun same => older (fits.target_isElement same) rfl
  have outline_eq {other : Address} (distinct : other ≠ place) :
      (memory.extended place type ends).outline? other = memory.outline? other :=
    outline?_extended distinct
  constructor
  case vacant => exact sound.ahead.isElement_place fits.settled
  case found =>
    rw [getElem?_extended, if_pos rfl, Option.map_some, Element.attached_eq, if_neg source_ne,
      if_neg target_ne]
    rfl
  case not_source =>
    intro edge target joins
    rw [joins_extended] at joins
    split at joins
    · exact source_ne (by rw [joins]; rfl)
    · exact older (linked.ends_isElement joins).1 rfl
  case not_target =>
    intro edge source joins
    rw [joins_extended] at joins
    split at joins
    · exact target_ne (by rw [joins]; rfl)
    · exact older (linked.ends_isElement joins).2 rfl
  case isElement_eq =>
    intro other distinct
    rw [isElement_eq_isSome_outline?, isElement_eq_isSome_outline?, outline_eq distinct]
  case elementType_eq => exact fun distinct => elementType_eq_of_outline?_eq (outline_eq distinct)
  case endpoints_eq => exact fun distinct => endpoints_eq_of_outline?_eq (outline_eq distinct)
  case identifier_eq =>
    intro other distinct
    rw [identifier, identifier, element, element, getElem?_extended, if_neg (Ne.symm distinct)]
    cases memory.elements[other]? <;> simp [Except.map]
  case matching_eq =>
    intro pattern
    refine ⟨memory.scan pattern, memory.tripleFor pattern (place, .fresh type ends),
      linked.matching_eq_scan pattern, ?_, fun triple => ?_⟩
    · rw [(sound.extended fits).linked.matching_eq_scan, sound.scan_extended fits]
    · rw [tripleFor_eq_some_iff]
      refine and_congr_right fun _ => and_congr_right fun joined => and_congr_right fun _ => ?_
      have joined : ends = some (triple.source, triple.target) := joined
      have sourceOld := older (fits.source_isElement (by rw [joined]; rfl))
      have targetOld := older (fits.target_isElement (by rw [joined]; rfl))
      rw [fits_extended sourceOld, fits_extended targetOld]

namespace Adds

variable {left : Memory} {pattern : Pattern} {listed : List Triple} {source target : Address}

/-- The new triple stands at the end of an answer to a pattern that asks for it. -/
theorem matching_of_carries (adds : memory.Adds left place type (some (source, target)))
    (matched : memory.matching pattern = .ok listed)
    (carried : type.carries pattern.edgeType = true)
    (sourceFits : left.fits pattern.source source = true)
    (targetFits : left.fits pattern.target target = true) :
    left.matching pattern = .ok (listed ++ [⟨source, place, target⟩]) := by
  obtain ⟨before, added, matchedBefore, matchedLeft, added_iff⟩ := adds.matching_eq pattern
  obtain rfl : before = listed := Except.ok.inj (matchedBefore.symm.trans matched)
  have isAdded : added = some ⟨source, place, target⟩ :=
    (added_iff _).mpr ⟨rfl, rfl, carried, sourceFits, targetFits⟩
  rw [matchedLeft, isAdded, Option.toList_some]

/-- An answer stays as it was when the new type lacks something that the pattern asks for. -/
theorem matching_of_not_carries (adds : memory.Adds left place type ends)
    (lacks : type.carries pattern.edgeType = false) :
    left.matching pattern = memory.matching pattern := by
  obtain ⟨before, added, matchedBefore, matchedLeft, added_iff⟩ := adds.matching_eq pattern
  have noneAdded : added = none := by
    refine Option.eq_none_iff_forall_ne_some.mpr fun triple isAdded => ?_
    obtain ⟨_, _, carried, _⟩ := (added_iff triple).mp isAdded
    rw [lacks] at carried
    cases carried
  rw [matchedLeft, noneAdded, Option.toList_none, List.append_nil, matchedBefore]

end Adds

end Memory

namespace Ledger

open Call

variable {limits : Limits}

/-- A creation is refused for its type, for an end that does not live, or because as many elements
were created as there are places, and otherwise it adds one element. -/
theorem creation_adds (valid : limits.validate = .ok ()) (calls : List Call) :
    let ledger := ofCalls limits calls
    let memory := ledger.memory
    memory = (Memory.empty limits).after calls ∧
    (∀ type, (createNode type).creation? memory = some (.error (.notANodeType type)) ↔
      type.kinds ≠ [.node]) ∧
    (∀ type source target,
      ((createEdge type source target).creation? memory = some (.error (.notAnEdgeType type)) ↔
        ∀ kind ∈ Flag.edgeKinds, type.kinds ≠ [kind]) ∧
      ((∃ kind ∈ Flag.edgeKinds, type.kinds = [kind]) →
        ((createEdge type source target).creation? memory =
            some (.error (.elementNotFound source)) ↔ memory.isElement source = false) ∧
          (memory.isElement source = true →
            ((createEdge type source target).creation? memory =
              some (.error (.elementNotFound target)) ↔ memory.isElement target = false)))) ∧
    (∀ (call : Call) type ends, call.Makes memory type ends →
      (call.creation? memory = some (.error .capacityExceeded) ↔
        ledger.handedOut.length = limits.capacity) ∧
      ((∃ place, call.creation? memory = some (.ok place)) ↔
        ledger.handedOut.length ≠ limits.capacity)) ∧
    ∀ (call : Call) place, call.creation? memory = some (.ok place) →
      ∃ type ends, call.Makes memory type ends ∧
        memory.Adds (call.apply memory) place type ends := by
  intro ledger memory
  have numbered : Numbered limits ledger := numbered_ofCalls valid calls
  refine ⟨memory_ofCalls limits calls, createNode_refused_iff memory, createEdge_refused_iff memory,
    ?_, ?_⟩
  · intro call type ends makes
    rcases numbered.creation_cases valid makes.isFit with ⟨room, made, _⟩ | ⟨full, refused, _⟩
    · have notFull := Nat.ne_of_lt room
      exact ⟨iff_of_false (by simp [memory, made]) notFull, iff_of_true ⟨_, made⟩ notFull⟩
    · exact ⟨iff_of_true refused full,
        iff_of_false (by simp [memory, refused]) (not_not_intro full)⟩
  · intro call place created
    obtain ⟨type, ends, makes⟩ := exists_makes_of_created created
    rcases makes.creation_cases with ⟨settled, fits, made, applied⟩ | full
    · obtain rfl : settled = place := by
        rw [created] at made
        simpa using made.symm
      exact ⟨type, ends, makes, applied ▸ numbered.sound.adds_extended fits⟩
    · simp [created] at full

/-- The new loop is an access arc and no more, as the older one is, so a pattern for membership arcs
asks for neither. -/
theorem creation_adds_loop :
    (⟨2, 3⟩ : Limits).validate = .ok () ∧
      (createEdge .accessArc ⟨0, 2⟩ ⟨0, 2⟩).creation? (ofCalls ⟨2, 3⟩ refilled).memory =
        some (.ok ⟨2, 2⟩) ∧
      ∃ left : Memory,
        left = (createEdge .accessArc ⟨0, 2⟩ ⟨0, 2⟩).apply (ofCalls ⟨2, 3⟩ refilled).memory ∧
        (∃ type ends, (createEdge .accessArc ⟨0, 2⟩ ⟨0, 2⟩).Makes (ofCalls ⟨2, 3⟩ refilled).memory
            type ends ∧
          (ofCalls ⟨2, 3⟩ refilled).memory.Adds left ⟨2, 2⟩ type ends) ∧
        left.matching ⟨.fixed ⟨0, 2⟩, .accessArc, .any⟩ =
          .ok [⟨⟨0, 2⟩, ⟨1, 1⟩, ⟨0, 2⟩⟩, ⟨⟨0, 2⟩, ⟨2, 2⟩, ⟨0, 2⟩⟩] ∧
        left.matching ⟨.fixed ⟨0, 2⟩, .membershipArc, .any⟩ = .ok [] := by
  have valid : (⟨2, 3⟩ : Limits).validate = .ok () := rfl
  have created : (createEdge .accessArc ⟨0, 2⟩ ⟨0, 2⟩).creation?
      (ofCalls ⟨2, 3⟩ refilled).memory = some (.ok ⟨2, 2⟩) := by
    cbv
  have access : (ofCalls ⟨2, 3⟩ refilled).memory.matching ⟨.fixed ⟨0, 2⟩, .accessArc, .any⟩ =
      .ok [⟨⟨0, 2⟩, ⟨1, 1⟩, ⟨0, 2⟩⟩] := by
    cbv
  have membership : (ofCalls ⟨2, 3⟩ refilled).memory.matching
      ⟨.fixed ⟨0, 2⟩, .membershipArc, .any⟩ = .ok [] := by
    cbv
  obtain ⟨type, ends, makes, adds⟩ := (creation_adds valid refilled).2.2.2.2 _ _ created
  -- From here on it does not matter how the memory came about.
  generalize (ofCalls ⟨2, 3⟩ refilled).memory = memory at *
  refine ⟨valid, created, _, rfl, ⟨type, ends, makes, adds⟩, ?_⟩
  cases makes with
  | edge _ _ lives _ =>
      have nodeLives := (adds.isElement_eq (show (⟨0, 2⟩ : Address) ≠ ⟨2, 2⟩ by decide)).trans lives
      exact
        ⟨adds.matching_of_carries access (by decide)
            (Memory.fits_fixed_iff.mpr ⟨rfl, nodeLives⟩) (Memory.fits_any_iff.mpr nodeLives),
          (adds.matching_of_not_carries (by decide)).trans membership⟩

end Ledger

end SemanticMemory
