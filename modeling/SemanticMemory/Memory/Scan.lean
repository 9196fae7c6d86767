import SemanticMemory.Memory.Basic

/-!
# Plain scans

The plainest way to answer a pattern is to look at every edge in the order of addresses.  A scan
uses no list of incident edges.
-/

namespace SemanticMemory

namespace Memory

def typeAt? (memory : Memory) (address : Address) : Option ElementType :=
  memory.elements[address]?.map Element.type

/-- Whether an element lives at the address and fits the slot. -/
def fits (memory : Memory) (slot : Slot) (address : Address) : Bool :=
  (memory.typeAt? address).any (slot.accepts address)

/-- The triple of an entry, if the entry is an edge that the pattern asks for. -/
def tripleFor (memory : Memory) (pattern : Pattern) (entry : Address × Element) : Option Triple :=
  match entry.2.ends with
  | none => none
  | some (source, target) =>
      if entry.2.type.carries pattern.edgeType && memory.fits pattern.source source &&
          memory.fits pattern.target target then
        some ⟨source, entry.1, target⟩
      else
        none

/-- The triples that a pattern asks for, found by looking at every element. -/
def scan (memory : Memory) (pattern : Pattern) : List Triple :=
  memory.elements.toList.filterMap (memory.tripleFor pattern)

/-- A scan finds exactly the triples of edges that live and that the pattern asks for. -/
theorem mem_scan_iff {memory : Memory} {pattern : Pattern} {triple : Triple} :
    triple ∈ memory.scan pattern ↔
      ∃ element, memory.elements[triple.edge]? = some element ∧
        element.ends = some (triple.source, triple.target) ∧
        element.type.carries pattern.edgeType = true ∧
        memory.fits pattern.source triple.source = true ∧
        memory.fits pattern.target triple.target = true := by
  obtain ⟨source, edge, target⟩ := triple
  simp only [scan, List.mem_filterMap, Prod.exists, Std.ExtTreeMap.mem_toList_iff_getElem?_eq_some]
  constructor
  · rintro ⟨address, element, found, asked⟩
    unfold tripleFor at asked
    split at asked
    · contradiction
    · next first second ends =>
        split at asked
        · next fitting =>
            simp only [Option.some.injEq, Triple.mk.injEq] at asked
            obtain ⟨rfl, rfl, rfl⟩ := asked
            simp only [Bool.and_eq_true] at fitting
            exact ⟨element, found, ends, fitting.1.1, fitting.1.2, fitting.2⟩
        · contradiction
  · rintro ⟨element, found, ends, carried, sourceFits, targetFits⟩
    exact ⟨edge, element, found, by simp [tripleFor, ends, carried, sourceFits, targetFits]⟩

end Memory

end SemanticMemory
