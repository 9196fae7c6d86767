import SemanticMemory.Action
import SemanticMemory.Memory.Allocation
import SemanticMemory.Pattern

/-!
# A memory of elements

A memory keeps its elements in a table ordered by address.  An element knows its type, its ends if
it is an edge, the edges that start and end at it, and its identifier.  A second table leads from
identifiers back to their owners.  Both tables are equal when they hold the same entries, so two
memories are equal when nothing can tell them apart.
-/

namespace SemanticMemory

structure Element where
  type : ElementType
  ends : Option (Address × Address)
  /-- The edges that end at the element, the oldest first. -/
  incoming : List Address
  /-- The edges that start at the element, the oldest first. -/
  outgoing : List Address
  identifier : Option String
  deriving DecidableEq

/-- An element that nothing is attached to yet. -/
def Element.fresh (type : ElementType) (ends : Option (Address × Address)) : Element :=
  ⟨type, ends, [], [], none⟩

abbrev ElementTable : Type :=
  Std.ExtTreeMap Address Element compare

abbrev IdentifierTable : Type :=
  Std.ExtTreeMap String Address compare

@[ext]
structure Memory where
  limits : Limits
  elements : ElementTable
  identifiers : IdentifierTable
  /-- The place from which the next address is taken. -/
  cursor : Address

namespace Memory

def empty (limits : Limits) : Memory :=
  ⟨limits, ∅, ∅, .first⟩

def create (limits : Limits) : Except ConfigError Memory :=
  limits.validate.map fun _ => empty limits

/-- The memory without its elements.  Addresses are handed out from the first one again. -/
def clear (memory : Memory) : Memory :=
  empty memory.limits

def isElement (memory : Memory) (address : Address) : Bool :=
  memory.elements.contains address

def element (memory : Memory) (address : Address) : Except StoreError Element :=
  match memory.elements[address]? with
  | none => .error (.elementNotFound address)
  | some element => .ok element

def elementCount (memory : Memory) : Nat :=
  memory.elements.size

/-- The addresses of the edges that live, in order. -/
def edges (memory : Memory) : List Address :=
  (memory.elements.toList.filter fun entry => entry.2.ends.isSome).map Prod.fst

def edgeCount (memory : Memory) : Nat :=
  memory.elements.foldl (fun count _ element => if element.ends.isSome then count + 1 else count) 0

theorem element_eq_ok_iff {memory : Memory} {address : Address} {element : Element} :
    memory.element address = .ok element ↔ memory.elements[address]? = some element := by
  unfold Memory.element
  split <;> simp_all

theorem element_eq_error_iff {memory : Memory} {address : Address} {error : StoreError} :
    memory.element address = .error error ↔
      memory.elements[address]? = none ∧ error = .elementNotFound address := by
  unfold Memory.element
  split
  · next missing => simp [missing, eq_comm]
  · next found => simp [found]

theorem isElement_iff {memory : Memory} {address : Address} :
    memory.isElement address = true ↔ address ∈ memory.elements :=
  Std.ExtTreeMap.contains_iff_mem

theorem isElement_iff_exists_element {memory : Memory} {address : Address} :
    memory.isElement address = true ↔ ∃ element, memory.elements[address]? = some element := by
  rw [isElement_iff, Std.ExtTreeMap.mem_iff_isSome_getElem?, Option.isSome_iff_exists]

@[simp]
theorem not_isElement_empty (limits : Limits) (address : Address) :
    (empty limits).isElement address = false := by
  simp [isElement, empty]

/-- The listed edges are the elements with ends. -/
theorem mem_edges_iff {memory : Memory} {address : Address} :
    address ∈ memory.edges ↔
      ∃ element, memory.elements[address]? = some element ∧ element.ends.isSome = true := by
  simp only [edges, List.mem_map, List.mem_filter, Prod.exists, exists_and_right, exists_eq_right,
    Std.ExtTreeMap.mem_toList_iff_getElem?_eq_some]

end Memory

end SemanticMemory
