import SemanticMemory.Memory.Creation
import SemanticMemory.Proofs.Soundness

/-!
# Creation keeps a memory sound

An address is handed out after all addresses in use, so a new edge belongs at the end of the lists
of its ends, and nothing lists a new element yet.
-/

namespace SemanticMemory

private theorem toNat_succ {word : UInt16} (notLast : word ≠ 65535) :
    (word + 1).toNat = word.toNat + 1 := by
  have wordBound := word.toNat_lt
  have valueNe : word.toNat ≠ 65535 := fun last => notLast (UInt16.toNat_inj.mp last)
  rw [UInt16.toNat_add, UInt16.toNat_one, Nat.mod_eq_of_lt]
  omega

theorem Address.lt_of_nextSegment {address next : Address}
    (step : address.nextSegment = some next) : address < next := by
  have segmentBound := address.segment.toNat_lt
  have offsetBound := address.offset.toNat_lt
  unfold nextSegment at step
  split at step
  · contradiction
  · next notLast =>
      simp only [Option.some.injEq] at step
      subst step
      have moved := toNat_succ notLast
      simp only [lt_iff, rank, moved]
      omega

namespace Limits

variable {limits : Limits}

theorem le_of_settle {cursor place : Address} (settled : limits.settle cursor = some place) :
    cursor ≤ place := by
  unfold settle at settled
  split at settled
  · exact Nat.le_of_lt (Address.lt_of_nextSegment settled)
  · simp only [Option.some.injEq] at settled
    subst settled
    exact Nat.le_refl _

/-- The next address comes after the one that was handed out, also when the offset after it is
zero. -/
theorem lt_of_settle_nextOffset {place next : Address}
    (settled : limits.settle place.nextOffset = some next) : place < next := by
  have offsetBound := place.offset.toNat_lt
  by_cases wrapped : place.offset + 1 = 0
  -- The offset zero is past the end of every segment, so the cursor goes to the next one.
  · have step : place.nextOffset.nextSegment = some next := by
      simpa [settle, Address.nextOffset, wrapped] using settled
    have passed : (⟨place.segment, place.offset + 1⟩ : Address).nextSegment =
        place.nextSegment := rfl
    exact Address.lt_of_nextSegment (passed ▸ step)
  · have later := le_of_settle settled
    have notLast : place.offset ≠ 65535 := fun last => wrapped (by rw [last]; rfl)
    have moved := toNat_succ notLast
    simp only [Address.lt_iff, Address.le_iff, Address.rank, Address.nextOffset, moved] at later ⊢
    omega

/-- Either the settled place is handed out, or the cursor moves to a place before which nothing is
handed out that was not handed out before. -/
theorem allocate_cases (limits : Limits) (cursor : Address) :
    (∃ place, limits.settle cursor = some place ∧
        limits.allocate cursor = (.ok place, place.nextOffset)) ∨
      ∃ moved, limits.allocate cursor = (.error .capacityExceeded, moved) ∧
        ∀ next, limits.settle moved = some next →
          ∃ place, limits.settle cursor = some place ∧ place ≤ next := by
  unfold allocate
  cases settled : limits.settle cursor with
  | none => exact .inr ⟨cursor, rfl, fun next again => by simp [settled] at again⟩
  | some place =>
      by_cases room : place.segment < limits.maxSegments
      · exact .inl ⟨place, rfl, by simp [room]⟩
      · exact .inr ⟨place, by simp [room], fun next again => ⟨place, rfl, le_of_settle again⟩⟩

end Limits

namespace Element

/-- What becomes of the element at an address when an element with the given ends is created. -/
def attached (created : Address) (ends : Option (Address × Address)) (address : Address)
    (element : Element) : Element :=
  match ends with
  | none => element
  | some (source, target) => element.linked created source target address

variable {created address : Address} {ends : Option (Address × Address)} {element : Element}

theorem attached_eq (created : Address) (ends : Option (Address × Address)) (address : Address)
    (element : Element) :
    element.attached created ends address =
      { element with
        incoming :=
          element.incoming ++ if ends.map Prod.snd = some address then [created] else []
        outgoing :=
          element.outgoing ++ if ends.map Prod.fst = some address then [created] else [] } := by
  unfold attached linked
  split
  · simp
  · next source target =>
      by_cases starts : source = address <;> by_cases stops : target = address <;>
        simp [starts, stops, addOutgoing, addIncoming]

@[simp]
theorem type_attached : (element.attached created ends address).type = element.type := by
  rw [attached_eq]

@[simp]
theorem ends_attached : (element.attached created ends address).ends = element.ends := by
  rw [attached_eq]

@[simp]
theorem identifier_attached :
    (element.attached created ends address).identifier = element.identifier := by
  rw [attached_eq]

theorem outgoing_attached :
    (element.attached created ends address).outgoing =
      element.outgoing ++ if ends.map Prod.fst = some address then [created] else [] := by
  rw [attached_eq]

theorem incoming_attached :
    (element.attached created ends address).incoming =
      element.incoming ++ if ends.map Prod.snd = some address then [created] else [] := by
  rw [attached_eq]

end Element

namespace Memory

variable {memory : Memory}

def extended (memory : Memory) (address : Address) (type : ElementType)
    (ends : Option (Address × Address)) : Memory :=
  { memory with
    cursor := address.nextOffset
    elements := enter memory.elements address type ends }

theorem getElem?_extended (memory : Memory) (created other : Address) (type : ElementType)
    (ends : Option (Address × Address)) :
    (memory.extended created type ends).elements[other]? =
      (if created = other then some (.fresh type ends) else memory.elements[other]?).map
        (Element.attached created ends other) := by
  cases ends with
  | none =>
      simp only [extended, getElem?_enter_none]
      exact Option.map_id'.symm
  | some ends => exact getElem?_enter_some memory.elements created ends.1 ends.2 other type

/-- An element after a creation is the new one or one from before, with the new edge listed. -/
theorem getElem?_extended_cases {created other : Address} {type : ElementType}
    {ends : Option (Address × Address)} {element : Element}
    (found : (memory.extended created type ends).elements[other]? = some element) :
    (created = other ∧ element = (Element.fresh type ends).attached created ends other) ∨
      ∃ before, memory.elements[other]? = some before ∧
        element = before.attached created ends other := by
  rw [getElem?_extended, Option.map_eq_some_iff] at found
  obtain ⟨before, foundBefore, rfl⟩ := found
  split at foundBefore
  · next same =>
      simp only [Option.some.injEq] at foundBefore
      subst foundBefore
      exact .inl ⟨same, rfl⟩
  · exact .inr ⟨before, foundBefore, rfl⟩

/-- A creation takes the settled place, or it fails and only the cursor moves. -/
theorem run_insert_cases (memory : Memory) (type : ElementType)
    (ends : Option (Address × Address)) :
    (∃ place, memory.limits.settle memory.cursor = some place ∧
        (insert type ends).run memory = ⟨.ok place, memory.extended place type ends, []⟩) ∨
      ∃ cursor, (insert type ends).run memory =
          ⟨.error .capacityExceeded, { memory with cursor }, []⟩ ∧
        (memory.Ahead → Ahead { memory with cursor }) := by
  rcases memory.limits.allocate_cases memory.cursor with
    ⟨place, settled, taken⟩ | ⟨cursor, refused, later⟩
  · exact .inl ⟨place, settled, by simp only [insert, Action.run, taken, extended]⟩
  · refine .inr ⟨cursor, by simp only [insert, Action.run, refused], ?_⟩
    intro ahead next settled address lives
    obtain ⟨place, settledBefore, place_le⟩ := later next settled
    exact Nat.lt_of_lt_of_le (ahead place settledBefore address lives) place_le

/-- What has to be known before an element may be created. -/
structure Fits (memory : Memory) (place : Address) (type : ElementType)
    (ends : Option (Address × Address)) : Prop where
  settled : memory.limits.settle memory.cursor = some place
  typed : (Element.fresh type ends).Typed
  source_isElement {source : Address} :
    ends.map Prod.fst = some source → memory.isElement source = true
  target_isElement {target : Address} :
    ends.map Prod.snd = some target → memory.isElement target = true

section Extended

variable {place : Address} {type : ElementType} {ends : Option (Address × Address)}

theorem Ahead.getElem?_place (ahead : memory.Ahead)
    (settled : memory.limits.settle memory.cursor = some place) :
    memory.elements[place]? = none := by
  cases found : memory.elements[place]? with
  | none => rfl
  | some element =>
      have lives := isElement_iff_exists_element.mpr ⟨element, found⟩
      exact absurd (ahead place settled place lives) (Nat.lt_irrefl _)

theorem Ahead.isElement_place (ahead : memory.Ahead)
    (settled : memory.limits.settle memory.cursor = some place) :
    memory.isElement place = false := by
  rw [isElement_eq_isSome, ahead.getElem?_place settled, Option.isSome_none]

theorem isElement_extended {address : Address} :
    (memory.extended place type ends).isElement address = true ↔
      address = place ∨ memory.isElement address = true := by
  simp only [isElement_eq_isSome, getElem?_extended, Option.isSome_map]
  by_cases same : place = address
  · simp [same]
  · simp [same, Ne.symm same]

theorem Ahead.extended (ahead : memory.Ahead)
    (settled : memory.limits.settle memory.cursor = some place) :
    (memory.extended place type ends).Ahead := by
  intro next settledNext address lives
  have place_lt : place < next := Limits.lt_of_settle_nextOffset settledNext
  rcases isElement_extended.mp lives with rfl | before
  · exact place_lt
  · exact Nat.lt_trans (ahead place settled address before) place_lt

theorem Typed.extended (typed : memory.Typed) (fits : memory.Fits place type ends) :
    (memory.extended place type ends).Typed := by
  intro address element found
  rcases getElem?_extended_cases found with ⟨_, rfl⟩ | ⟨before, foundBefore, rfl⟩
  · exact ⟨by simpa using fits.typed.single_kind, by simpa using fits.typed.ends_isSome⟩
  · have typedBefore := typed foundBefore
    exact ⟨by simpa using typedBefore.single_kind, by simpa using typedBefore.ends_isSome⟩

theorem endOn_extended (side : Address × Address → Address) (edge : Address) :
    (memory.extended place type ends).endOn side edge =
      if edge = place then ends.map side else memory.endOn side edge := by
  unfold endOn
  rw [getElem?_extended]
  by_cases same : place = edge
  · subst same
    simp [Element.fresh]
  · cases found : memory.elements[edge]? <;> simp [same, Ne.symm same]

theorem Listed.extended {side : Address × Address → Address} {list : Element → List Address}
    (listed : memory.Listed side list) (ahead : memory.Ahead)
    (settled : memory.limits.settle memory.cursor = some place)
    (list_fresh : list (.fresh type ends) = [])
    (list_attached : ∀ address element, list (element.attached place ends address) =
      list element ++ if ends.map side = some address then [place] else [])
    (side_isElement : ∀ {address}, ends.map side = some address →
      memory.isElement address = true) :
    (memory.extended place type ends).Listed side list := by
  have vacant := ahead.getElem?_place settled
  -- The new address is younger than all in use, so it is neither an end of an edge nor listed yet.
  have place_not_end : ends.map side ≠ some place := fun atEnd =>
    Nat.lt_irrefl _ (ahead place settled place (side_isElement atEnd))
  have place_not_listed (edge : Address) : memory.endOn side edge ≠ some place := fun atEnd =>
    Nat.lt_irrefl _ (ahead place settled place (listed.isElement atEnd))
  constructor
  case isElement =>
    intro edge address atEnd
    rw [endOn_extended] at atEnd
    rw [isElement_extended]
    right
    split at atEnd
    · exact side_isElement atEnd
    · exact listed.isElement atEnd
  case lt =>
    intro edge address atEnd
    rw [endOn_extended] at atEnd
    split at atEnd
    · next same => exact same ▸ ahead place settled address (side_isElement atEnd)
    · exact listed.lt atEnd
  case sorted =>
    intro address element found
    rcases getElem?_extended_cases found with ⟨rfl, rfl⟩ | ⟨before, foundBefore, rfl⟩
    · simp [list_attached, list_fresh, place_not_end]
    · rw [list_attached]
      refine List.pairwise_append.mpr ⟨listed.sorted foundBefore, by split <;> simp, ?_⟩
      intro edge member created isCreated
      have edge_lt : edge < place := ahead place settled edge
        (isElement_of_endOn ((listed.mem_iff foundBefore).mp member))
      split at isCreated
      · exact List.mem_singleton.mp isCreated ▸ edge_lt
      · contradiction
  case mem_iff =>
    intro address edge element found
    rw [endOn_extended]
    rcases getElem?_extended_cases found with ⟨rfl, rfl⟩ | ⟨before, foundBefore, rfl⟩
    · have not_listed := place_not_listed edge
      simp only [list_attached, list_fresh, place_not_end, List.append_nil, List.not_mem_nil,
        if_false, false_iff]
      split <;> assumption
    · rw [list_attached, List.mem_append, listed.mem_iff foundBefore]
      have vacantEnd : memory.endOn side place = none := by simp [endOn, vacant]
      by_cases isCreated : edge = place
      · subst isCreated
        simp [vacantEnd]
      · split <;> simp [isCreated]

theorem Linked.extended (linked : memory.Linked) (ahead : memory.Ahead)
    (fits : memory.Fits place type ends) : (memory.extended place type ends).Linked where
  outgoing := linked.outgoing.extended ahead fits.settled rfl
    (fun _ _ => Element.outgoing_attached) fits.source_isElement
  incoming := linked.incoming.extended ahead fits.settled rfl
    (fun _ _ => Element.incoming_attached) fits.target_isElement

theorem Named.extended (named : memory.Named) (vacant : memory.elements[place]? = none) :
    (memory.extended place type ends).Named where
  owner_empty := named.owner_empty
  owner_iff {identifier address} := by
    change memory.owner? identifier = some address ↔ _
    rw [named.owner_iff]
    simp only [getElem?_extended, Option.map_eq_some_iff]
    by_cases same : place = address
    · subst same
      simp [vacant, Element.fresh]
    · cases memory.elements[address]? <;> simp [same]

theorem Sound.extended (sound : memory.Sound) (fits : memory.Fits place type ends) :
    (memory.extended place type ends).Sound where
  linked := sound.linked.extended sound.ahead fits
  typed := sound.typed.extended fits
  named := sound.named.extended (sound.ahead.getElem?_place fits.settled)
  ahead := sound.ahead.extended fits.settled

end Extended

/-- A creation that fails may move the cursor, but over no address that could be handed out. -/
theorem Sound.moved (sound : memory.Sound) {cursor : Address}
    (ahead : Ahead { memory with cursor }) : Sound { memory with cursor } where
  linked := sound.linked.of_sameGraph fun _ => rfl
  typed := sound.typed.of_sameGraph fun _ => rfl
  named := ⟨sound.named.owner_iff, sound.named.owner_empty⟩
  ahead := ahead

theorem Sound.insert (sound : memory.Sound) {type : ElementType}
    {ends : Option (Address × Address)}
    (fits : ∀ place, memory.limits.settle memory.cursor = some place →
      memory.Fits place type ends) :
    ((insert type ends).run memory).state.Sound := by
  rcases run_insert_cases memory type ends with ⟨place, settled, created⟩ | ⟨cursor, refused, kept⟩
  · rw [created]
    exact sound.extended (fits place settled)
  · rw [refused]
    exact sound.moved (kept sound.ahead)

/-- An element without ends fits when its type is that of a node or of a link. -/
theorem fits_leaf {place : Address} {type : ElementType} (single : type.hasSingleKind = true)
    (notEdge : type.isEdge = false)
    (settled : memory.limits.settle memory.cursor = some place) : memory.Fits place type none where
  settled := settled
  typed := ⟨single, notEdge.symm⟩
  source_isElement := nofun
  target_isElement := nofun

theorem fits_edge {place source target : Address} {type : ElementType}
    (fits : type.fitsEdge = true) (sourceLives : memory.isElement source = true)
    (targetLives : memory.isElement target = true)
    (settled : memory.limits.settle memory.cursor = some place) :
    memory.Fits place type (some (source, target)) := by
  rw [ElementType.fitsEdge, Bool.and_eq_true] at fits
  exact
    { settled
      typed := ⟨fits.2, fits.1.symm⟩
      source_isElement := fun same => Option.some.inj same ▸ sourceLives
      target_isElement := fun same => Option.some.inj same ▸ targetLives }

theorem isEdge_of_fitsNode {type : ElementType} (fits : type.fitsNode = true) :
    type.hasSingleKind = true ∧ type.isEdge = false := by
  rw [ElementType.fitsNode, Bool.and_eq_true] at fits
  rcases ElementType.single_kind_cases fits.2 with node | link | edge
  · exact ⟨fits.2, node.2.2⟩
  · exact ⟨fits.2, link.2.2⟩
  · simp [edge.1] at fits

theorem run_createNode (memory : Memory) (type : ElementType) :
    (createNode type).run memory =
      if type.fitsNode = true then (insert type none).run memory
      else ⟨.error (.notANodeType type), memory, []⟩ := by
  unfold createNode
  split
  · rfl
  · rfl

theorem Sound.createNode (sound : memory.Sound) (type : ElementType) :
    ((createNode type).run memory).state.Sound := by
  rw [run_createNode]
  split
  · next fits =>
      obtain ⟨single, notEdge⟩ := isEdge_of_fitsNode fits
      exact sound.insert fun _ => fits_leaf single notEdge
  · exact sound

theorem Sound.createLink (sound : memory.Sound) : (createLink.run memory).state.Sound :=
  sound.insert fun _ => fits_leaf (by decide) (by decide)

/-- The checks before an edge is created: its type, then its source, then its target. -/
theorem run_createEdge (memory : Memory) (type : ElementType) (source target : Address) :
    (createEdge type source target).run memory =
      if type.fitsEdge = true then
        if memory.isElement source = true then
          if memory.isElement target = true then (insert type (some (source, target))).run memory
          else ⟨.error (.elementNotFound target), memory, []⟩
        else ⟨.error (.elementNotFound source), memory, []⟩
      else ⟨.error (.notAnEdgeType type), memory, []⟩ := by
  have asked (address : Address) :
      (Action.query fun memory => memory.element address).run memory =
        ⟨memory.element address, memory, []⟩ := rfl
  unfold createEdge
  split
  · cases atSource : memory.elements[source]? with
    | none =>
        have missing := element_eq_error_iff.mpr ⟨atSource, rfl⟩
        rw [Action.run_bind_of_error ((asked source).trans (by rw [missing]))]
        simp [isElement_eq_isSome, atSource]
    | some sourceElement =>
        have found := element_eq_ok_iff.mpr atSource
        rw [Action.run_bind_of_ok ((asked source).trans (by rw [found]))]
        cases atTarget : memory.elements[target]? with
        | none =>
            have missing := element_eq_error_iff.mpr ⟨atTarget, rfl⟩
            rw [Action.run_bind_of_error ((asked target).trans (by rw [missing]))]
            simp [isElement_eq_isSome, atSource, atTarget]
        | some targetElement =>
            have found := element_eq_ok_iff.mpr atTarget
            rw [Action.run_bind_of_ok ((asked target).trans (by rw [found]))]
            simp [isElement_eq_isSome, atSource, atTarget]
  · rfl

/-- An edge is created only when its type is fit for one and both ends live. -/
theorem run_createEdge_cases (memory : Memory) (type : ElementType) (source target : Address) :
    (∃ error, (createEdge type source target).run memory = ⟨.error error, memory, []⟩) ∨
      (type.fitsEdge = true ∧ memory.isElement source = true ∧ memory.isElement target = true ∧
        (createEdge type source target).run memory =
          (insert type (some (source, target))).run memory) := by
  rw [run_createEdge]
  split
  · next fits =>
      split
      · next sourceLives =>
          split
          · next targetLives => exact .inr ⟨fits, sourceLives, targetLives, rfl⟩
          · exact .inl ⟨_, rfl⟩
      · exact .inl ⟨_, rfl⟩
  · exact .inl ⟨_, rfl⟩

theorem Sound.createEdge (sound : memory.Sound) (type : ElementType) (source target : Address) :
    ((createEdge type source target).run memory).state.Sound := by
  rcases run_createEdge_cases memory type source target with
    ⟨error, refused⟩ | ⟨fits, sourceLives, targetLives, created⟩
  · rw [refused]
    exact sound
  · rw [created]
    exact sound.insert fun _ => fits_edge fits sourceLives targetLives

end Memory

end SemanticMemory
