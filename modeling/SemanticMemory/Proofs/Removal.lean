import Mathlib.Data.Finset.Card
import SemanticMemory.Memory.Erasure
import SemanticMemory.Memory.Scan
import SemanticMemory.Proofs.Soundness

/-!
# Memories without some of their elements

Leaving a set of elements out of a memory touches the rest only where an edge of the set was
listed.  The rest is sound when no edge is left whose end is gone, and every pattern then has the
answers that it had, up to the edges that are gone.
-/

namespace SemanticMemory

def Element.without (gone : Finset Address) (element : Element) : Element :=
  { element with
    incoming := element.incoming.filter (· ∉ gone)
    outgoing := element.outgoing.filter (· ∉ gone) }

namespace Memory

variable {memory : Memory} {gone : Finset Address}

def without (memory : Memory) (gone : Finset Address) : Memory :=
  { memory with
    elements := memory.elements.filterMap fun address element =>
      if address ∈ gone then none else some (element.without gone)
    identifiers := memory.identifiers.filter fun _ owner => owner ∉ gone }

theorem getElem?_without (memory : Memory) (gone : Finset Address) (address : Address) :
    (memory.without gone).elements[address]? =
      if address ∈ gone then none
      else memory.elements[address]?.map (Element.without gone) := by
  simp only [without, Std.ExtTreeMap.getElem?_filterMap']
  cases memory.elements[address]? <;> split <;> rfl

theorem getElem?_without_eq_some_iff {address : Address} {element : Element} :
    (memory.without gone).elements[address]? = some element ↔
      address ∉ gone ∧ ∃ before, memory.elements[address]? = some before ∧
        before.without gone = element := by
  rw [getElem?_without]
  split
  · next isGone => simp [isGone]
  · next kept => simp [kept]

theorem owner?_without (memory : Memory) (gone : Finset Address) (identifier : String) :
    (memory.without gone).owner? identifier =
      (memory.owner? identifier).filter fun owner => owner ∉ gone := by
  simp only [owner?, without, Std.ExtTreeMap.getElem?_filter']

@[simp]
theorem without_empty (memory : Memory) : memory.without ∅ = memory := by
  ext1
  case limits => rfl
  case cursor => rfl
  case elements =>
    ext1 address
    rw [getElem?_without, if_neg (Finset.notMem_empty address)]
    have unchanged : Element.without ∅ = id := by
      funext element
      simp [Element.without]
    rw [unchanged, Option.map_id, id_eq]
  case identifiers =>
    ext1 identifier
    change (memory.without ∅).owner? identifier = _
    rw [owner?_without, owner?]
    cases memory.identifiers[identifier]? <;> simp

theorem isElement_without {address : Address} :
    (memory.without gone).isElement address = true ↔
      memory.isElement address = true ∧ address ∉ gone := by
  rw [isElement_eq_isSome, isElement_eq_isSome, getElem?_without]
  split
  · next isGone => simp [isGone]
  · next kept => simp [kept]

theorem endOn_without (side : Address × Address → Address) (edge : Address) :
    (memory.without gone).endOn side edge =
      if edge ∈ gone then none else memory.endOn side edge := by
  unfold endOn
  rw [getElem?_without]
  split
  · rfl
  · cases memory.elements[edge]? <;> rfl

/-- No edge outside the set has an end in it. -/
def ClosedUpwards (memory : Memory) (gone : Finset Address) : Prop :=
  ∀ ⦃edge source target : Address⦄, memory.Joins edge source target →
    source ∈ gone ∨ target ∈ gone → edge ∈ gone

theorem Listed.without {side : Address × Address → Address} {list : Element → List Address}
    (listed : memory.Listed side list)
    (list_without : ∀ element : Element,
      list (element.without gone) = (list element).filter (· ∉ gone))
    (closed : ∀ edge address, memory.endOn side edge = some address →
      address ∈ gone → edge ∈ gone) : (memory.without gone).Listed side list := by
  constructor
  case isElement =>
    intro edge address atEnd
    rw [endOn_without] at atEnd
    split at atEnd
    · contradiction
    · next kept =>
        exact isElement_without.mpr ⟨listed.isElement atEnd, fun isGone =>
          kept (closed edge address atEnd isGone)⟩
  case lt =>
    intro edge address atEnd
    rw [endOn_without] at atEnd
    split at atEnd
    · contradiction
    · exact listed.lt atEnd
  case sorted =>
    intro address element found
    obtain ⟨_, before, foundBefore, rfl⟩ := getElem?_without_eq_some_iff.mp found
    rw [list_without]
    exact (listed.sorted foundBefore).filter _
  case mem_iff =>
    intro address edge element found
    obtain ⟨_, before, foundBefore, rfl⟩ := getElem?_without_eq_some_iff.mp found
    rw [list_without, List.mem_filter, listed.mem_iff foundBefore, endOn_without]
    by_cases isGone : edge ∈ gone <;> simp [isGone]

theorem Linked.without (linked : memory.Linked) (closed : memory.ClosedUpwards gone) :
    (memory.without gone).Linked where
  outgoing := linked.outgoing.without (fun _ => rfl) fun edge address atEnd isGone => by
    obtain ⟨source, target, joins, rfl⟩ := endOn_eq_some_iff.mp atEnd
    exact closed joins (.inl isGone)
  incoming := linked.incoming.without (fun _ => rfl) fun edge address atEnd isGone => by
    obtain ⟨source, target, joins, rfl⟩ := endOn_eq_some_iff.mp atEnd
    exact closed joins (.inr isGone)

theorem Typed.without (typed : memory.Typed) : (memory.without gone).Typed := by
  intro address element found
  obtain ⟨_, before, foundBefore, rfl⟩ := getElem?_without_eq_some_iff.mp found
  exact ⟨(typed foundBefore).single_kind, (typed foundBefore).ends_isSome⟩

theorem Named.without (named : memory.Named) : (memory.without gone).Named where
  owner_empty := by rw [owner?_without, named.owner_empty, Option.filter_none]
  owner_iff {identifier address} := by
    rw [owner?_without, getElem?_without, Option.filter_eq_some_iff, named.owner_iff]
    by_cases isGone : address ∈ gone
    · simp [isGone]
    · cases memory.elements[address]? <;> simp [isGone, Element.without]

theorem Ahead.without (ahead : memory.Ahead) : (memory.without gone).Ahead :=
  fun place settled address lives =>
    ahead place settled address (isElement_without.mp lives).1

theorem Sound.without (sound : memory.Sound) (closed : memory.ClosedUpwards gone) :
    (memory.without gone).Sound where
  linked := sound.linked.without closed
  typed := sound.typed.without
  named := sound.named.without
  ahead := sound.ahead.without

theorem fits_without {address : Address} (kept : address ∉ gone) (slot : Slot) :
    (memory.without gone).fits slot address = memory.fits slot address := by
  unfold fits typeAt?
  rw [getElem?_without, if_neg kept]
  cases memory.elements[address]? <;> rfl

/-- An edge that is kept answers the patterns that it answered, since its ends are kept too. -/
theorem tripleFor_without (closed : memory.ClosedUpwards gone) (pattern : Pattern)
    {edge : Address} {element : Element} (found : memory.elements[edge]? = some element)
    (kept : edge ∉ gone) :
    (memory.without gone).tripleFor pattern (edge, element.without gone) =
      memory.tripleFor pattern (edge, element) := by
  have sameEnds : (element.without gone).ends = element.ends := rfl
  have sameType : (element.without gone).type = element.type := rfl
  unfold tripleFor
  rw [sameEnds, sameType]
  cases joined : element.ends with
  | none => rfl
  | some ends =>
      have joins := joins_of_ends found joined
      have sourceKept : ends.1 ∉ gone := fun isGone => kept (closed joins (.inl isGone))
      have targetKept : ends.2 ∉ gone := fun isGone => kept (closed joins (.inr isGone))
      simp only [fits_without sourceKept, fits_without targetKept]

theorem edge_of_tripleFor {pattern : Pattern} {entry : Address × Element} {triple : Triple}
    (asked : memory.tripleFor pattern entry = some triple) : triple.edge = entry.1 := by
  unfold tripleFor at asked
  split at asked
  · contradiction
  · split at asked
    · exact (congrArg Triple.edge (Option.some.inj asked)).symm
    · contradiction

theorem toList_without (memory : Memory) (gone : Finset Address) :
    (memory.without gone).elements.toList =
      memory.elements.toList.filterMap fun entry =>
        if entry.1 ∈ gone then none else some (entry.1, entry.2.without gone) := by
  rw [without, Std.ExtTreeMap.toList_filterMap]
  refine List.filterMap_congr fun entry _ => ?_
  split <;> rfl

theorem keys_without (memory : Memory) (gone : Finset Address) :
    (memory.without gone).elements.keys = memory.elements.keys.filter (· ∉ gone) := by
  simp only [← Std.ExtTreeMap.map_fst_toList_eq_keys, toList_without, List.map_filterMap,
    ← List.filterMap_eq_map, ← List.filterMap_eq_filter, List.filterMap_filterMap]
  refine List.filterMap_congr fun entry _ => ?_
  by_cases isGone : entry.1 ∈ gone <;> simp [isGone, Option.guard]

theorem nodup_keys (memory : Memory) : memory.elements.keys.Nodup :=
  Std.ExtTreeMap.distinct_keys.imp fun distinct same =>
    distinct (Std.LawfulEqCmp.compare_eq_iff_eq.mpr same)

/-- Every element that lived and is left out is one element less. -/
theorem elementCount_without (live : ∀ address ∈ gone, memory.isElement address = true) :
    (memory.without gone).elementCount + gone.card = memory.elementCount := by
  have gone_eq : gone = (memory.elements.keys.filter (· ∈ gone)).toFinset := by
    ext address
    rw [List.mem_toFinset, List.mem_filter, Std.ExtTreeMap.mem_keys, ← isElement_iff,
      decide_eq_true_iff]
    exact ⟨fun isGone => ⟨live address isGone, isGone⟩, And.right⟩
  have gone_card : gone.card = (memory.elements.keys.filter (· ∈ gone)).length := by
    rw [← List.toFinset_card_of_nodup (memory.nodup_keys.filter _), ← gone_eq]
  have kept_or_gone := memory.elements.keys.length_eq_length_filter_add (· ∈ gone)
  rw [elementCount, elementCount, ← Std.ExtTreeMap.length_keys, ← Std.ExtTreeMap.length_keys,
    keys_without, gone_card, Nat.add_comm]
  simpa using kept_or_gone.symm

/-- Every pattern loses the triples of the edges that are gone, and no others. -/
theorem scan_without (closed : memory.ClosedUpwards gone) (pattern : Pattern) :
    (memory.without gone).scan pattern =
      (memory.scan pattern).filter fun triple => triple.edge ∉ gone := by
  unfold scan
  rw [toList_without, List.filterMap_filterMap, List.filter_filterMap]
  refine List.filterMap_congr fun entry member => ?_
  have found := Std.ExtTreeMap.mem_toList_iff_getElem?_eq_some.mp member
  by_cases isGone : entry.1 ∈ gone
  · cases asked : memory.tripleFor pattern entry with
    | none => simp [isGone]
    | some triple => simp [Option.filter_some, edge_of_tripleFor asked, isGone]
  · rw [if_neg isGone, Option.bind_some, tripleFor_without closed pattern found isGone]
    cases asked : memory.tripleFor pattern entry with
    | none => rfl
    | some triple => simp [Option.filter_some, edge_of_tripleFor asked, isGone]

end Memory

end SemanticMemory
