import SemanticMemory.Proofs.Matching

/-!
# How answers change

A new edge is younger than all others, so it comes last in the answer of every pattern that asks for
it, and nothing else in an answer changes.  Identifiers play no part in an answer.  A pattern that
fixes an end has the answer of the pattern that leaves the end open, up to the triples with another
end.
-/

namespace SemanticMemory

instance : Std.Irrefl (α := Triple) fun first second => first.edge < second.edge :=
  ⟨fun triple => Nat.lt_irrefl triple.edge.rank⟩

instance : Std.Antisymm (α := Triple) fun first second => first.edge < second.edge :=
  ⟨fun _ _ lower upper => absurd lower (Nat.lt_asymm upper)⟩

namespace Memory

variable {memory : Memory} {place : Address} {type : ElementType}
  {ends : Option (Address × Address)}

theorem scan_eq_of_mem_iff {pattern : Pattern} {triples : List Triple}
    (sorted : triples.Pairwise fun first second => first.edge < second.edge)
    (members : ∀ triple, triple ∈ memory.scan pattern ↔ triple ∈ triples) :
    memory.scan pattern = triples :=
  (memory.sorted_scan pattern).eq_of_mem_iff sorted fun {triple} => members triple

theorem typeAt?_eq_some_iff {address : Address} :
    memory.typeAt? address = some type ↔
      ∃ element, memory.elements[address]? = some element ∧ element.type = type := by
  rw [typeAt?, Option.map_eq_some_iff]

theorem isElement_eq_isSome_typeAt? (memory : Memory) (address : Address) :
    memory.isElement address = (memory.typeAt? address).isSome := by
  rw [isElement_eq_isSome, typeAt?, Option.isSome_map]

/-- An edge has the type of its element and its two ends. -/
theorem mem_scan_iff_joins {pattern : Pattern} {triple : Triple} :
    triple ∈ memory.scan pattern ↔
      memory.Joins triple.edge triple.source triple.target ∧
        (∃ edgeType, memory.typeAt? triple.edge = some edgeType ∧
          edgeType.carries pattern.edgeType = true) ∧
        memory.fits pattern.source triple.source = true ∧
        memory.fits pattern.target triple.target = true := by
  rw [mem_scan_iff]
  constructor
  · rintro ⟨element, found, ends, carried, fitting⟩
    exact ⟨⟨element, found, ends⟩,
      ⟨element.type, typeAt?_eq_some_iff.mpr ⟨element, found, rfl⟩, carried⟩, fitting⟩
  · rintro ⟨⟨element, found, ends⟩, ⟨edgeType, typed, carried⟩, fitting⟩
    obtain ⟨_, foundAgain, rfl⟩ := typeAt?_eq_some_iff.mp typed
    rw [found, Option.some.injEq] at foundAgain
    exact ⟨element, found, ends, foundAgain ▸ carried, fitting⟩

theorem fits_any_iff {address : Address} :
    memory.fits .any address = true ↔ memory.isElement address = true := by
  unfold fits
  rw [isElement_eq_isSome_typeAt?]
  cases memory.typeAt? address <;> simp

theorem isElement_of_fits {slot : Slot} {address : Address}
    (fitting : memory.fits slot address = true) : memory.isElement address = true := by
  unfold fits at fitting
  rw [isElement_eq_isSome_typeAt?]
  cases typed : memory.typeAt? address with
  | none => simp [typed] at fitting
  | some => rfl

theorem fits_typed_iff {filter : ElementType} {address : Address} :
    memory.fits (.typed filter) address = true ↔
      ∃ carrier, memory.typeAt? address = some carrier ∧ carrier.carries filter = true := by
  unfold fits
  cases memory.typeAt? address <;> simp [Slot.accepts]

theorem scan_empty (limits : Limits) (pattern : Pattern) :
    (Memory.empty limits).scan pattern = [] := by
  simp [scan, Memory.empty]

/-- A pattern asks for the edges of its type and tests the ends of each. -/
theorem mem_scan_iff_mem_scan_any {pattern : Pattern} {triple : Triple} :
    triple ∈ memory.scan pattern ↔
      triple ∈ memory.scan ⟨.any, pattern.edgeType, .any⟩ ∧
        memory.fits pattern.source triple.source = true ∧
        memory.fits pattern.target triple.target = true := by
  rw [mem_scan_iff_joins, mem_scan_iff_joins]
  constructor
  · rintro ⟨joins, typed, sourceFits, targetFits⟩
    exact ⟨⟨joins, typed, fits_any_iff.mpr (isElement_of_fits sourceFits),
      fits_any_iff.mpr (isElement_of_fits targetFits)⟩, sourceFits, targetFits⟩
  · rintro ⟨⟨joins, typed, _⟩, sourceFits, targetFits⟩
    exact ⟨joins, typed, sourceFits, targetFits⟩

theorem tripleFor_eq_some_iff {pattern : Pattern} {entry : Address × Element} {triple : Triple} :
    memory.tripleFor pattern entry = some triple ↔
      triple.edge = entry.1 ∧ entry.2.ends = some (triple.source, triple.target) ∧
        entry.2.type.carries pattern.edgeType = true ∧
        memory.fits pattern.source triple.source = true ∧
        memory.fits pattern.target triple.target = true := by
  obtain ⟨source, edge, target⟩ := triple
  unfold tripleFor
  cases joined : entry.2.ends with
  | none => simp
  | some ends =>
      simp only [Option.ite_none_right_eq_some, Bool.and_eq_true, Option.some.injEq,
        Triple.mk.injEq]
      constructor
      · rintro ⟨⟨⟨carried, sourceFits⟩, targetFits⟩, rfl, rfl, rfl⟩
        exact ⟨rfl, rfl, carried, sourceFits, targetFits⟩
      · rintro ⟨rfl, rfl, carried, sourceFits, targetFits⟩
        exact ⟨⟨⟨carried, sourceFits⟩, targetFits⟩, rfl, rfl, rfl⟩

section Extended

theorem typeAt?_extended (address : Address) :
    (memory.extended place type ends).typeAt? address =
      if address = place then some type else memory.typeAt? address := by
  unfold typeAt?
  rw [getElem?_extended]
  by_cases same : place = address
  · subst same
    simp [Element.fresh]
  · rw [if_neg same, if_neg (Ne.symm same), Option.map_map]
    congr 1
    funext element
    exact Element.type_attached

theorem typeAt?_extended_of_isElement (ahead : memory.Ahead)
    (settled : memory.limits.settle memory.cursor = some place) {address : Address}
    (lives : memory.isElement address = true) :
    (memory.extended place type ends).typeAt? address = memory.typeAt? address := by
  have older := ahead place settled address lives
  rw [typeAt?_extended, if_neg fun same => Nat.lt_irrefl _ (same ▸ older)]

theorem fits_extended {address : Address} (distinct : address ≠ place) (slot : Slot) :
    (memory.extended place type ends).fits slot address = memory.fits slot address := by
  unfold fits
  rw [typeAt?_extended, if_neg distinct]

theorem joins_extended {edge source target : Address} :
    (memory.extended place type ends).Joins edge source target ↔
      if edge = place then ends = some (source, target)
      else memory.Joins edge source target := by
  rw [joins_iff, joins_iff, getElem?_extended]
  by_cases same : place = edge
  · subst same
    simp [Element.fresh]
  · rw [if_neg same, if_neg (Ne.symm same)]
    cases memory.elements[edge]? <;> simp

/-- The new edge answers what it would answer by itself, and every other edge what it answered. -/
theorem Sound.mem_scan_extended_iff (sound : memory.Sound) (fits : memory.Fits place type ends)
    {pattern : Pattern} {triple : Triple} :
    triple ∈ (memory.extended place type ends).scan pattern ↔
      triple ∈ memory.scan pattern ∨
        memory.tripleFor pattern (place, .fresh type ends) = some triple := by
  have vacant {address : Address} (lives : memory.isElement address = true) : address ≠ place :=
    fun same => Nat.lt_irrefl _ (same ▸ sound.ahead place fits.settled address lives)
  rw [mem_scan_iff_joins, mem_scan_iff_joins, tripleFor_eq_some_iff, joins_extended,
    typeAt?_extended]
  by_cases isNew : triple.edge = place
  · have notBefore : ¬memory.Joins place triple.source triple.target :=
      fun joins => vacant joins.isElement rfl
    rw [if_pos isNew, if_pos isNew]
    simp only [notBefore, false_and, false_or, isNew, true_and, Option.some.injEq, Element.fresh,
      exists_eq_left']
    refine and_congr_right fun joined => ?_
    have sourceOld := vacant (fits.source_isElement (by rw [joined]; rfl))
    have targetOld := vacant (fits.target_isElement (by rw [joined]; rfl))
    rw [fits_extended sourceOld, fits_extended targetOld]
  · rw [if_neg isNew, if_neg isNew]
    simp only [isNew, false_and, or_false]
    refine and_congr_right fun joins => ?_
    obtain ⟨sourceLives, targetLives⟩ := sound.linked.ends_isElement joins
    rw [fits_extended (vacant sourceLives), fits_extended (vacant targetLives)]

/-- A new edge comes last in the answers that it belongs to. -/
theorem Sound.scan_extended (sound : memory.Sound) (fits : memory.Fits place type ends)
    (pattern : Pattern) :
    (memory.extended place type ends).scan pattern =
      memory.scan pattern ++ (memory.tripleFor pattern (place, .fresh type ends)).toList := by
  apply scan_eq_of_mem_iff
  · refine List.pairwise_append.mpr ⟨memory.sorted_scan pattern, ?_, ?_⟩
    · cases memory.tripleFor pattern (place, .fresh type ends) <;> simp
    · intro triple member created isCreated
      rw [Option.mem_toList] at isCreated
      rw [(tripleFor_eq_some_iff.mp isCreated).1]
      exact sound.ahead place fits.settled _ (mem_scan_iff_joins.mp member).1.isElement
  · intro triple
    rw [sound.mem_scan_extended_iff fits, List.mem_append, Option.mem_toList]

end Extended

section SameGraph

variable {other : Memory}

theorem SameGraph.typeAt?_eq (same : other.SameGraph memory) (address : Address) :
    other.typeAt? address = memory.typeAt? address := by
  have typeOf (elements : ElementTable) :
      (elements[address]?.map (Element.withIdentifier none)).map Element.type =
        elements[address]?.map Element.type := by
    cases elements[address]? <;> rfl
  rw [typeAt?, typeAt?, ← typeOf, same address, typeOf]

theorem SameGraph.joins_iff (same : other.SameGraph memory) {edge source target : Address} :
    other.Joins edge source target ↔ memory.Joins edge source target := by
  have endsOf (elements : ElementTable) :
      (elements[edge]?.map (Element.withIdentifier none)).bind Element.ends =
        elements[edge]?.bind Element.ends := by
    cases elements[edge]? <;> rfl
  rw [Memory.joins_iff, Memory.joins_iff, ← endsOf, same edge, endsOf]

theorem SameGraph.scan_eq (same : other.SameGraph memory) (pattern : Pattern) :
    other.scan pattern = memory.scan pattern := by
  apply scan_eq_of_mem_iff (memory.sorted_scan pattern)
  intro triple
  simp only [mem_scan_iff_joins, same.joins_iff, same.typeAt?_eq, fits]

end SameGraph

/-- The triples from a source are among the triples from anywhere. -/
theorem scan_fixed_source (memory : Memory) (source : Address) (type : ElementType) (slot : Slot) :
    memory.scan ⟨.fixed source, type, slot⟩ =
      (memory.scan ⟨.any, type, slot⟩).filter fun triple => triple.source = source := by
  apply scan_eq_of_mem_iff ((memory.sorted_scan _).filter _)
  intro triple
  simp only [List.mem_filter, mem_scan_iff_joins, decide_eq_true_eq, fits_fixed_iff, fits_any_iff]
  constructor
  · rintro ⟨joins, typed, ⟨rfl, lives⟩, targetFits⟩
    exact ⟨⟨joins, typed, lives, targetFits⟩, rfl⟩
  · rintro ⟨⟨joins, typed, lives, targetFits⟩, same⟩
    exact ⟨joins, typed, ⟨same.symm, lives⟩, targetFits⟩

theorem scan_fixed_target (memory : Memory) (slot : Slot) (type : ElementType) (target : Address) :
    memory.scan ⟨slot, type, .fixed target⟩ =
      (memory.scan ⟨slot, type, .any⟩).filter fun triple => triple.target = target := by
  apply scan_eq_of_mem_iff ((memory.sorted_scan _).filter _)
  intro triple
  simp only [List.mem_filter, mem_scan_iff_joins, decide_eq_true_eq, fits_fixed_iff, fits_any_iff]
  constructor
  · rintro ⟨joins, typed, sourceFits, rfl, lives⟩
    exact ⟨⟨joins, typed, sourceFits, lives⟩, rfl⟩
  · rintro ⟨⟨joins, typed, sourceFits, lives⟩, same⟩
    exact ⟨joins, typed, sourceFits, same.symm, lives⟩

end Memory

end SemanticMemory
