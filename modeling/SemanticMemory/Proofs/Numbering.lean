import Mathlib.Data.List.Permutation
import SemanticMemory.Proofs.Integrity

/-!
# The order in which addresses are handed out

The address of a new element depends on nothing but the number of elements created before it.
Segments are filled one after the other, from offset one on, until every segment that the limits
allow is full.
-/

namespace SemanticMemory

namespace Limits

/-- The address of the element that is created after `index` others. -/
def place (limits : Limits) (index : Nat) : Address :=
  ⟨.ofNat (index / limits.segmentSize.toNat), .ofNat (index % limits.segmentSize.toNat + 1)⟩

variable {limits : Limits} {index : Nat}

theorem segmentSize_pos (valid : limits.validate = .ok ()) : 0 < limits.segmentSize.toNat :=
  UInt16.le_iff_toNat_le.mp (validate_eq_ok_iff.mp valid).1

theorem segment_place (inside : index ≤ limits.capacity) :
    (limits.place index).segment.toNat = index / limits.segmentSize.toNat := by
  have segmentBound : index / limits.segmentSize.toNat ≤ limits.maxSegments.toNat :=
    Nat.div_le_of_le_mul inside
  have wordBound := limits.maxSegments.toNat_lt
  rw [place, UInt16.toNat_ofNat', Nat.mod_eq_of_lt (by omega)]

theorem offset_place (valid : limits.validate = .ok ()) (index : Nat) :
    (limits.place index).offset.toNat = index % limits.segmentSize.toNat + 1 := by
  have offsetBound := Nat.mod_lt index (segmentSize_pos valid)
  have wordBound := limits.segmentSize.toNat_lt
  rw [place, UInt16.toNat_ofNat', Nat.mod_eq_of_lt (by omega)]

theorem eq_place (valid : limits.validate = .ok ()) (inside : index ≤ limits.capacity)
    {address : Address} (segment : address.segment.toNat = index / limits.segmentSize.toNat)
    (offset : address.offset.toNat = index % limits.segmentSize.toNat + 1) :
    address = limits.place index := by
  obtain ⟨addressSegment, addressOffset⟩ := address
  rw [← segment_place inside, UInt16.toNat_inj] at segment
  rw [← offset_place valid index, UInt16.toNat_inj] at offset
  exact Address.mk.injEq .. ▸ ⟨segment, offset⟩

theorem segment_place_lt_iff (valid : limits.validate = .ok ())
    (inside : index ≤ limits.capacity) :
    (limits.place index).segment < limits.maxSegments ↔ index < limits.capacity := by
  rw [UInt16.lt_iff_toNat_lt, segment_place inside, Nat.div_lt_iff_lt_mul (segmentSize_pos valid),
    capacity, Nat.mul_comm]

theorem settle_within {cursor : Address} (positive : 1 ≤ cursor.offset.toNat)
    (within : cursor.offset.toNat ≤ limits.segmentSize.toNat) :
    limits.settle cursor = some cursor := by
  refine if_neg ?_
  rw [UInt16.lt_iff_toNat_lt, ← UInt16.toNat_inj, UInt16.toNat_zero]
  omega

theorem settle_past {cursor : Address}
    (past : limits.segmentSize.toNat < cursor.offset.toNat ∨ cursor.offset.toNat = 0)
    (more : cursor.segment.toNat < 65535) :
    ∃ next, limits.settle cursor = some next ∧
      next.segment.toNat = cursor.segment.toNat + 1 ∧ next.offset.toNat = 1 := by
  rw [← UInt16.lt_iff_toNat_lt, ← UInt16.toNat_zero, UInt16.toNat_inj] at past
  have notLast : cursor.segment ≠ 65535 := by
    rw [ne_eq, ← UInt16.toNat_inj]
    exact Nat.ne_of_lt more
  have moved : (cursor.segment + 1).toNat = (cursor.segment.toNat + 1) % 65536 :=
    UInt16.toNat_add _ _
  refine ⟨⟨cursor.segment + 1, 1⟩, ?_, ?_, rfl⟩
  · rw [settle, if_pos past, Address.nextSegment, if_neg notLast]
  · rw [moved, Nat.mod_eq_of_lt (by omega)]

theorem settle_place (valid : limits.validate = .ok ()) (index : Nat) :
    limits.settle (limits.place index) = some (limits.place index) := by
  have offset_eq := offset_place valid index
  have offsetBound := Nat.mod_lt index (segmentSize_pos valid)
  exact settle_within (by omega) (by omega)

/-- Past one place the cursor settles at the following place, also when the offset after the place
is zero. -/
theorem settle_nextOffset_place (valid : limits.validate = .ok ())
    (room : index < limits.capacity) :
    limits.settle (limits.place index).nextOffset = some (limits.place (index + 1)) := by
  have segment_eq := segment_place (Nat.le_of_lt room)
  have offset_eq := offset_place valid index
  have segmentBound := UInt16.lt_iff_toNat_lt.mp
    ((segment_place_lt_iff valid (Nat.le_of_lt room)).mpr room)
  have positive := segmentSize_pos valid
  have offsetBound := Nat.mod_lt index positive
  have whole := Nat.mod_add_div index limits.segmentSize.toNat
  have sizeBound := limits.segmentSize.toNat_lt
  have countBound := limits.maxSegments.toNat_lt
  have inside : index + 1 ≤ limits.capacity := room
  have sameSegment : (limits.place index).nextOffset.segment.toNat =
      (limits.place index).segment.toNat := rfl
  have moved : (limits.place index).nextOffset.offset.toNat =
      ((limits.place index).offset.toNat + 1) % 65536 := UInt16.toNat_add _ _
  by_cases last : index % limits.segmentSize.toNat + 1 = limits.segmentSize.toNat
  -- The segment is full, and the offset has gone past it or wrapped to zero.
  · obtain ⟨quotient, remainder⟩ : (index + 1) / limits.segmentSize.toNat =
          index / limits.segmentSize.toNat + 1 ∧ (index + 1) % limits.segmentSize.toNat = 0 := by
      rw [Nat.div_mod_unique positive, Nat.mul_succ]
      omega
    have past : limits.segmentSize.toNat < (limits.place index).nextOffset.offset.toNat ∨
        (limits.place index).nextOffset.offset.toNat = 0 := by omega
    obtain ⟨next, settled, segment, offset⟩ := settle_past past (by omega)
    have arrived : next = limits.place (index + 1) :=
      eq_place valid inside (by omega) (by omega)
    rw [settled, arrived]
  · obtain ⟨quotient, remainder⟩ : (index + 1) / limits.segmentSize.toNat =
          index / limits.segmentSize.toNat ∧
        (index + 1) % limits.segmentSize.toNat = index % limits.segmentSize.toNat + 1 := by
      rw [Nat.div_mod_unique positive]
      omega
    have arrived : (limits.place index).nextOffset = limits.place (index + 1) :=
      eq_place valid inside (by omega) (by omega)
    rw [arrived, settle_place valid (index + 1)]

/-- Under a settled cursor the next place is handed out, as long as there is one. -/
theorem allocate_eq (valid : limits.validate = .ok ()) (inside : index ≤ limits.capacity)
    {cursor : Address} (settled : limits.settle cursor = some (limits.place index)) :
    limits.allocate cursor =
      if index < limits.capacity then (.ok (limits.place index), (limits.place index).nextOffset)
      else (.error .capacityExceeded, limits.place index) := by
  simp only [allocate, settled, segment_place_lt_iff valid inside]

/-- The offset after a place is zero only where segments have their full width. -/
theorem segmentSize_of_nextOffset_place (valid : limits.validate = .ok ())
    (wrapped : (limits.place index).nextOffset.offset = 0) : limits.segmentSize = 65535 := by
  have offset_eq := offset_place valid index
  have offsetBound := Nat.mod_lt index (segmentSize_pos valid)
  have sizeBound := limits.segmentSize.toNat_lt
  have moved : (limits.place index).nextOffset.offset.toNat =
      ((limits.place index).offset.toNat + 1) % 65536 := UInt16.toNat_add _ _
  rw [wrapped, UInt16.toNat_zero] at moved
  rw [← UInt16.toNat_inj]
  change limits.segmentSize.toNat = 65535
  omega

end Limits

namespace Call

/-- The result of a call that creates an element.  Other calls create none. -/
def creation? (memory : Memory) : Call → Option (Except StoreError Address)
  | createNode type => some ((Memory.createNode type).run memory).result
  | createLink => some (Memory.createLink.run memory).result
  | createEdge type source target =>
      some ((Memory.createEdge type source target).run memory).result
  | erase _ | assignIdentifier _ _ | clear => none

/-- Whether the call creates an element and passes every check but the one for room. -/
def IsFit (memory : Memory) : Call → Prop
  | createNode type => type.fitsNode = true
  | createLink => True
  | createEdge type source target =>
      type.fitsEdge = true ∧ memory.isElement source = true ∧ memory.isElement target = true
  | erase _ | assignIdentifier _ _ | clear => False

variable {memory : Memory} {call : Call}

/-- A node that passes the check of its type is for the memory to insert. -/
theorem createNode_of_fits {type : ElementType} (fits : type.fitsNode = true) :
    (createNode type).creation? memory = some ((Memory.insert type none).run memory).result ∧
      (createNode type).apply memory = ((Memory.insert type none).run memory).state := by
  simp only [creation?, apply, Memory.createNode, if_pos fits, and_self]

/-- An edge that passes the checks of its type and of its ends is for the memory to insert. -/
theorem createEdge_of_fits {type : ElementType} {source target : Address}
    (fits : type.fitsEdge = true) (sourceLives : memory.isElement source = true)
    (targetLives : memory.isElement target = true) :
    (createEdge type source target).creation? memory =
        some ((Memory.insert type (some (source, target))).run memory).result ∧
      (createEdge type source target).apply memory =
        ((Memory.insert type (some (source, target))).run memory).state := by
  simp only [creation?, apply, Memory.run_createEdge, if_pos fits, if_pos sourceLives,
    if_pos targetLives, and_self]

theorem insert_of_isFit (fit : call.IsFit memory) :
    ∃ type ends, call.creation? memory = some ((Memory.insert type ends).run memory).result ∧
      call.apply memory = ((Memory.insert type ends).run memory).state := by
  cases call with
  | createNode type => exact ⟨type, none, createNode_of_fits fit⟩
  | createLink => exact ⟨.linkConst, none, rfl, rfl⟩
  | createEdge type source target =>
      obtain ⟨fits, sourceLives, targetLives⟩ := fit
      exact ⟨type, some (source, target), createEdge_of_fits fits sourceLives targetLives⟩
  | erase | assignIdentifier | clear => exact fit.elim

/-- A call that creates nothing takes no address and revives none. -/
theorem keeps_of_not_isFit (sound : memory.Sound) (unfit : ¬call.IsFit memory)
    (notClear : call ≠ .clear) :
    (∀ address, call.creation? memory ≠ some (.ok address)) ∧
      (call.apply memory).limits = memory.limits ∧
      (call.apply memory).cursor = memory.cursor ∧
      ∀ address, (call.apply memory).isElement address = true →
        memory.isElement address = true := by
  cases call with
  | createNode type =>
      have unfits : ¬type.fitsNode = true := unfit
      simp [creation?, apply, Memory.createNode, unfits]
  | createLink => exact absurd trivial unfit
  | createEdge type source target =>
      rcases Memory.run_createEdge_cases memory type source target with
        ⟨error, refused⟩ | ⟨fits, sourceLives, targetLives, _⟩
      · simp [creation?, apply, refused]
      · exact absurd ⟨fits, sourceLives, targetLives⟩ unfit
  | erase root =>
      cases lives : memory.isElement root with
      | false => simp [creation?, apply, Memory.run_erase_of_not_isElement lives]
      | true =>
          obtain ⟨gone, _, _, erased⟩ :=
            Memory.run_erase_of_isElement sound.linked sound.named lives
          refine ⟨fun _ => (Option.some_ne_none _).symm, ?_⟩
          rw [apply, erased]
          exact ⟨rfl, rfl, fun address left => (Memory.isElement_without.mp left).1⟩
  | assignIdentifier address text =>
      refine ⟨fun _ => (Option.some_ne_none _).symm, ?_⟩
      rcases Memory.run_assignIdentifier_cases memory address text with
        ⟨result, unchanged⟩ | ⟨element, _, _, assigned⟩
      · rw [apply, unchanged]
        exact ⟨rfl, rfl, fun _ lives => lives⟩
      · have same := memory.sameGraph_renamed address element.identifier text
        rw [apply, assigned]
        exact ⟨rfl, rfl, fun other lives => same.isElement_eq other ▸ lives⟩
  | clear => exact absurd rfl notClear

end Call

theorem Memory.run_insert_eq {memory : Memory} {index : Nat}
    (valid : memory.limits.validate = .ok ()) (inside : index ≤ memory.limits.capacity)
    (settled : memory.limits.settle memory.cursor = some (memory.limits.place index))
    (type : ElementType) (ends : Option (Address × Address)) :
    (insert type ends).run memory =
      if index < memory.limits.capacity then
        ⟨.ok (memory.limits.place index), memory.extended (memory.limits.place index) type ends, []⟩
      else
        ⟨.error .capacityExceeded, { memory with cursor := memory.limits.place index }, []⟩ := by
  have taken := Limits.allocate_eq valid inside settled
  by_cases room : index < memory.limits.capacity
  · rw [if_pos room] at taken ⊢
    simp only [insert, Action.run, taken, extended]
  · rw [if_neg room] at taken ⊢
    simp only [insert, Action.run, taken]

/-- A memory in the middle of a run, with a record of the addresses that it handed out. -/
structure Ledger where
  memory : Memory
  /-- The addresses handed out since the memory was last without elements, the oldest first. -/
  handedOut : List Address

namespace Ledger

def record (ledger : Ledger) (call : Call) : Ledger where
  memory := call.apply ledger.memory
  handedOut :=
    match call, call.creation? ledger.memory with
    | .clear, _ => []
    | _, some (.ok address) => ledger.handedOut ++ [address]
    | _, _ => ledger.handedOut

/-- The record of a run from an empty memory. -/
def ofCalls (limits : Limits) (calls : List Call) : Ledger :=
  calls.foldl record ⟨.empty limits, []⟩

variable {limits : Limits} {ledger : Ledger} {call : Call}

theorem record_of_created {address : Address}
    (created : call.creation? ledger.memory = some (.ok address)) :
    ledger.record call = ⟨call.apply ledger.memory, ledger.handedOut ++ [address]⟩ := by
  unfold record
  split
  · contradiction
  · next other => simp_all
  · next noneCreated => exact absurd created (noneCreated address)

theorem record_of_not_created (notClear : call ≠ .clear)
    (noneCreated : ∀ address, call.creation? ledger.memory ≠ some (.ok address)) :
    ledger.record call = ⟨call.apply ledger.memory, ledger.handedOut⟩ := by
  unfold record
  split
  · contradiction
  · next created => exact absurd created (noneCreated _)
  · rfl

/-- The addresses handed out are the first places, and the cursor settles at the next place. -/
structure Numbered (limits : Limits) (ledger : Ledger) : Prop where
  sound : ledger.memory.Sound
  limits_eq : ledger.memory.limits = limits
  length_le : ledger.handedOut.length ≤ limits.capacity
  handedOut_eq : ledger.handedOut = (List.range ledger.handedOut.length).map limits.place
  settled : limits.settle ledger.memory.cursor = some (limits.place ledger.handedOut.length)
  wrapped : ledger.memory.cursor.offset = 0 → limits.segmentSize = 65535
  mem_handedOut {address : Address} :
    ledger.memory.isElement address = true → address ∈ ledger.handedOut

theorem numbered_empty (valid : limits.validate = .ok ()) :
    Numbered limits ⟨.empty limits, []⟩ where
  sound := .empty limits
  limits_eq := rfl
  length_le := Nat.zero_le _
  handedOut_eq := rfl
  settled := by
    have first_eq : limits.place 0 = .first := by simp [Limits.place, Address.first]
    have settled := Limits.settle_place valid 0
    rw [first_eq] at settled
    exact settled.trans (congrArg some first_eq.symm)
  wrapped := nofun
  mem_handedOut := by simp

/-- A creation that is fit takes the next place, or it is refused because every place is taken. -/
theorem Numbered.creation_cases (numbered : Numbered limits ledger)
    (valid : limits.validate = .ok ()) (fit : call.IsFit ledger.memory) :
    (ledger.handedOut.length < limits.capacity ∧
        call.creation? ledger.memory = some (.ok (limits.place ledger.handedOut.length)) ∧
        ∃ type ends, call.apply ledger.memory =
          ledger.memory.extended (limits.place ledger.handedOut.length) type ends) ∨
      (ledger.handedOut.length = limits.capacity ∧
        call.creation? ledger.memory = some (.error .capacityExceeded) ∧
        call.apply ledger.memory =
          { ledger.memory with cursor := limits.place ledger.handedOut.length }) := by
  obtain ⟨sound, rfl, length_le, _, settled, _, _⟩ := numbered
  obtain ⟨type, ends, created, applied⟩ := Call.insert_of_isFit fit
  have inserted := Memory.run_insert_eq valid length_le settled type ends
  by_cases room : ledger.handedOut.length < ledger.memory.limits.capacity
  · rw [if_pos room] at inserted
    rw [inserted] at created applied
    exact .inl ⟨room, created, type, ends, applied⟩
  · rw [if_neg room] at inserted
    rw [inserted] at created applied
    exact .inr ⟨by omega, created, applied⟩

theorem Numbered.extended (numbered : Numbered limits ledger)
    (valid : limits.validate = .ok ()) (room : ledger.handedOut.length < limits.capacity)
    {type : ElementType} {ends : Option (Address × Address)}
    (sound : (ledger.memory.extended (limits.place ledger.handedOut.length) type ends).Sound) :
    Numbered limits
      ⟨ledger.memory.extended (limits.place ledger.handedOut.length) type ends,
        ledger.handedOut ++ [limits.place ledger.handedOut.length]⟩ := by
  constructor
  case sound => exact sound
  case limits_eq => exact numbered.limits_eq
  case length_le =>
    rw [List.length_append]
    exact room
  case handedOut_eq => simpa [List.range_succ] using numbered.handedOut_eq
  case settled =>
    rw [List.length_append]
    exact Limits.settle_nextOffset_place valid room
  case wrapped => exact Limits.segmentSize_of_nextOffset_place valid
  case mem_handedOut =>
    intro address lives
    rcases Memory.isElement_extended.mp lives with rfl | before
    · simp
    · exact List.mem_append_left _ (numbered.mem_handedOut before)

/-- A refused creation leaves the cursor at the place that is not there to be taken. -/
theorem Numbered.refused (numbered : Numbered limits ledger) (valid : limits.validate = .ok ())
    (sound : Memory.Sound
      { ledger.memory with cursor := limits.place ledger.handedOut.length }) :
    Numbered limits
      ⟨{ ledger.memory with cursor := limits.place ledger.handedOut.length },
        ledger.handedOut⟩ where
  sound := sound
  limits_eq := numbered.limits_eq
  length_le := numbered.length_le
  handedOut_eq := numbered.handedOut_eq
  settled := Limits.settle_place valid _
  wrapped isZero := by
    have offset_eq := Limits.offset_place valid ledger.handedOut.length
    rw [isZero, UInt16.toNat_zero] at offset_eq
    omega
  mem_handedOut := numbered.mem_handedOut

theorem Numbered.record (numbered : Numbered limits ledger) (valid : limits.validate = .ok ())
    (call : Call) : Numbered limits (ledger.record call) := by
  have sound := numbered.sound.apply call
  by_cases isClear : call = .clear
  · subst isClear
    rw [← numbered.limits_eq] at valid ⊢
    exact numbered_empty valid
  · by_cases fit : call.IsFit ledger.memory
    · rcases numbered.creation_cases valid fit with
        ⟨room, created, type, ends, applied⟩ | ⟨full, created, applied⟩
      · rw [record_of_created created, applied]
        exact numbered.extended valid room (applied ▸ sound)
      · rw [record_of_not_created isClear (by simp [created]), applied]
        exact numbered.refused valid (applied ▸ sound)
    · obtain ⟨noneCreated, sameLimits, sameCursor, livesBefore⟩ :=
        Call.keeps_of_not_isFit numbered.sound fit isClear
      rw [record_of_not_created isClear noneCreated]
      exact
        { sound
          limits_eq := sameLimits.trans numbered.limits_eq
          length_le := numbered.length_le
          handedOut_eq := numbered.handedOut_eq
          settled := sameCursor ▸ numbered.settled
          wrapped := sameCursor ▸ numbered.wrapped
          mem_handedOut := fun lives => numbered.mem_handedOut (livesBefore _ lives) }

theorem numbered_ofCalls (valid : limits.validate = .ok ()) (calls : List Call) :
    Numbered limits (ofCalls limits calls) := by
  have kept (calls : List Call) : ∀ ledger, Numbered limits ledger →
      Numbered limits (calls.foldl record ledger) := by
    induction calls with
    | nil => exact fun _ numbered => numbered
    | cons call calls ih => exact fun _ numbered => ih _ (numbered.record valid call)
  exact kept calls _ (numbered_empty valid)

theorem memory_ofCalls (limits : Limits) (calls : List Call) :
    (ofCalls limits calls).memory = (Memory.empty limits).after calls :=
  (List.foldl_hom Ledger.memory fun _ _ => rfl).symm

theorem ofCalls_append (limits : Limits) (calls more : List Call) :
    ofCalls limits (calls ++ more) = more.foldl record (ofCalls limits calls) :=
  List.foldl_append

/-- Elements can be created until every place is taken. -/
theorem Numbered.length_fill (numbered : Numbered limits ledger)
    (valid : limits.validate = .ok ()) {count : Nat}
    (room : ledger.handedOut.length + count ≤ limits.capacity) :
    ((List.replicate count Call.createLink).foldl Ledger.record ledger).handedOut.length =
      ledger.handedOut.length + count := by
  induction count generalizing ledger with
  | zero => rfl
  | succ count ih =>
      have fit : Call.createLink.IsFit ledger.memory := trivial
      rcases numbered.creation_cases valid fit with ⟨_, created, _⟩ | ⟨full, _⟩
      · have recorded := record_of_created created
        have length_eq : (ledger.record .createLink).handedOut.length =
            ledger.handedOut.length + 1 := by rw [recorded, List.length_append]; rfl
        rw [List.replicate_succ, List.foldl_cons, ih (numbered.record valid .createLink) (by omega)]
        omega
      · omega

theorem Numbered.mem_iff (numbered : Numbered limits ledger) {address : Address} :
    address ∈ ledger.handedOut ↔
      ∃ index, index < ledger.handedOut.length ∧ limits.place index = address := by
  rw [numbered.handedOut_eq]
  simp

/-- The address of an element depends only on how many elements were created before it, and as many
can be created as the limits have places. -/
theorem handedOut_places (valid : limits.validate = .ok ()) (calls : List Call) :
    let ledger := ofCalls limits calls
    ledger.memory = (Memory.empty limits).after calls ∧
    (∀ index address, ledger.handedOut[index]? = some address →
      address.segment.toNat = index / limits.segmentSize.toNat ∧
        address.offset.toNat = index % limits.segmentSize.toNat + 1) ∧
    (ledger.handedOut.length ≤ limits.capacity ∧
      ∃ more, (ofCalls limits (calls ++ more)).handedOut.length = limits.capacity) ∧
    (∀ call : Call, call.IsFit ledger.memory →
      (ledger.handedOut.length < limits.capacity →
        ∃ address, call.creation? ledger.memory = some (.ok address) ∧
          (ledger.record call).handedOut = ledger.handedOut ++ [address]) ∧
      (ledger.handedOut.length = limits.capacity →
        call.creation? ledger.memory = some (.error .capacityExceeded))) ∧
    (∀ address, ledger.memory.isElement address = true →
      address ∈ ledger.handedOut ∧ address.offset ≠ 0 ∧ address.offset ≤ limits.segmentSize ∧
        address.segment < limits.maxSegments) ∧
    limits.settle ledger.memory.cursor ≠ none ∧
    (ledger.memory.cursor.offset = 0 → limits.segmentSize = 65535) ∧
    ∀ address ∈ ledger.handedOut, address.offset ≠ 0 := by
  intro ledger
  have numbered : Numbered limits ledger := numbered_ofCalls valid calls
  have inSegment {address : Address} (member : address ∈ ledger.handedOut) :
      1 ≤ address.offset.toNat ∧ address.offset.toNat ≤ limits.segmentSize.toNat ∧
        address.segment < limits.maxSegments := by
    obtain ⟨index, inside, rfl⟩ := numbered.mem_iff.mp member
    have room : index < limits.capacity := Nat.lt_of_lt_of_le inside numbered.length_le
    have offset_eq := Limits.offset_place valid index
    have offsetBound := Nat.mod_lt index (Limits.segmentSize_pos valid)
    exact ⟨by omega, by omega, (Limits.segment_place_lt_iff valid (Nat.le_of_lt room)).mpr room⟩
  have nonzero {address : Address} (member : address ∈ ledger.handedOut) :
      address.offset ≠ 0 := by
    rw [ne_eq, ← UInt16.toNat_inj, UInt16.toNat_zero]
    exact Nat.ne_of_gt (inSegment member).1
  refine ⟨memory_ofCalls limits calls, ?_, ⟨numbered.length_le, ?_⟩, ?_, ?_, ?_,
    numbered.wrapped, fun _ => nonzero⟩
  · intro index address found
    rw [numbered.handedOut_eq, List.getElem?_map, Option.map_eq_some_iff] at found
    obtain ⟨_, inRange, rfl⟩ := found
    obtain ⟨inside, rfl⟩ := List.getElem?_eq_some_iff.mp inRange
    rw [List.length_range] at inside
    rw [List.getElem_range]
    exact ⟨Limits.segment_place (Nat.le_of_lt (Nat.lt_of_lt_of_le inside numbered.length_le)),
      Limits.offset_place valid index⟩
  · refine ⟨List.replicate (limits.capacity - ledger.handedOut.length) .createLink, ?_⟩
    have length_le := numbered.length_le
    rw [ofCalls_append, numbered.length_fill valid (by omega)]
    omega
  · intro call fit
    rcases numbered.creation_cases valid fit with ⟨room, created, _⟩ | ⟨full, created, _⟩
    · exact ⟨fun _ => ⟨_, created, by rw [record_of_created created]⟩,
        fun full => absurd full (Nat.ne_of_lt room)⟩
    · exact ⟨fun room => absurd full (Nat.ne_of_lt room), fun _ => created⟩
  · intro address lives
    have member := numbered.mem_handedOut lives
    obtain ⟨_, within, segmentBound⟩ := inSegment member
    exact ⟨member, nonzero member, UInt16.le_iff_toNat_le.mpr within, segmentBound⟩
  · rw [numbered.settled]
    exact nofun

/-- A run that starts over, erases an element, and meets two refusals. -/
def refilled : List Call :=
  [.createLink, .clear, .createLink, .createNode .nodeConst, .createNode .linkConst, .erase ⟨0, 1⟩,
    .createEdge .accessArc ⟨0, 2⟩ ⟨0, 2⟩, .assignIdentifier ⟨0, 2⟩ "node", .createLink, .createLink]

theorem handedOut_places_refilled :
    (⟨2, 2⟩ : Limits).validate = .ok () ∧
      (ofCalls ⟨2, 2⟩ refilled).handedOut = [⟨0, 1⟩, ⟨0, 2⟩, ⟨1, 1⟩, ⟨1, 2⟩] ∧
      Call.createLink.creation? (ofCalls ⟨2, 2⟩ refilled).memory =
        some (.error .capacityExceeded) := by
  have valid : (⟨2, 2⟩ : Limits).validate = .ok () := rfl
  have handedOut : (ofCalls ⟨2, 2⟩ refilled).handedOut =
      [⟨0, 1⟩, ⟨0, 2⟩, ⟨1, 1⟩, ⟨1, 2⟩] := by
    cbv
  obtain ⟨_, _, _, next, _⟩ := handedOut_places valid refilled
  exact ⟨valid, handedOut, (next .createLink trivial).2 (by rw [handedOut]; rfl)⟩

end Ledger

end SemanticMemory
