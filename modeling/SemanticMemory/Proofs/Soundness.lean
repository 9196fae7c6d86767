import SemanticMemory.Memory.Dependence
import SemanticMemory.Memory.Identifier
import SemanticMemory.Memory.Query

/-!
# Sound memories

A memory knows an edge in three places: with the edge itself, in the list of edges that start at its
source, and in the list of edges that end at its target.  It knows an identifier in two: with the
element that carries it, and in the table of owners.  A memory is sound when these places agree and
no address in use can be handed out again.
-/

namespace SemanticMemory

/-- An element is of one kind, and it has ends when it is an edge. -/
structure Element.Typed (element : Element) : Prop where
  single_kind : element.type.hasSingleKind = true
  ends_isSome : element.ends.isSome = element.type.isEdge

namespace Memory

variable {memory : Memory}

theorem isElement_eq_isSome (memory : Memory) (address : Address) :
    memory.isElement address = memory.elements[address]?.isSome :=
  Std.ExtTreeMap.contains_eq_isSome_getElem?

theorem elementType_eq_ok_iff {address : Address} {type : ElementType} :
    memory.elementType address = .ok type ↔
      ∃ element, memory.elements[address]? = some element ∧ element.type = type := by
  unfold elementType element
  cases memory.elements[address]? <;> simp [Except.map]

theorem identifier_eq_ok_iff {address : Address} {carried : Option String} :
    memory.identifier address = .ok carried ↔
      ∃ element, memory.elements[address]? = some element ∧ element.identifier = carried := by
  unfold identifier element
  cases memory.elements[address]? <;> simp [Except.map]

theorem endpoints_eq_ok_iff {edge source target : Address} :
    memory.endpoints edge = .ok (source, target) ↔ memory.Joins edge source target := by
  unfold endpoints element Joins
  cases memory.elements[edge]? with
  | none => simp [Except.bind]
  | some element => cases ended : element.ends <;> simp [Except.bind, ended]

theorem joins_iff {edge source target : Address} :
    memory.Joins edge source target ↔
      memory.elements[edge]?.bind Element.ends = some (source, target) := by
  simp only [Joins, Option.bind_eq_some_iff]

theorem joins_of_ends {edge : Address} {element : Element} {ends : Address × Address}
    (found : memory.elements[edge]? = some element) (joined : element.ends = some ends) :
    memory.Joins edge ends.1 ends.2 :=
  ⟨element, found, joined⟩

theorem Joins.isElement {edge source target : Address}
    (joins : memory.Joins edge source target) : memory.isElement edge = true := by
  obtain ⟨element, found, _⟩ := joins
  exact isElement_iff_exists_element.mpr ⟨element, found⟩

theorem Joins.ends_eq {edge source target : Address} {element : Element}
    (joins : memory.Joins edge source target)
    (found : memory.elements[edge]? = some element) : element.ends = some (source, target) := by
  obtain ⟨joined, foundAgain, ends⟩ := joins
  rw [found, Option.some.injEq] at foundAgain
  rw [foundAgain, ends]

theorem Joins.ends_inj {edge source target otherSource otherTarget : Address}
    (joins : memory.Joins edge source target)
    (otherJoins : memory.Joins edge otherSource otherTarget) :
    source = otherSource ∧ target = otherTarget := by
  obtain ⟨element, found, ends⟩ := joins
  rw [otherJoins.ends_eq found] at ends
  simpa [eq_comm] using ends

theorem mem_edges_iff_joins {edge : Address} :
    edge ∈ memory.edges ↔ ∃ source target, memory.Joins edge source target := by
  rw [mem_edges_iff]
  constructor
  · rintro ⟨element, found, isSome⟩
    obtain ⟨ends, joined⟩ := Option.isSome_iff_exists.mp isSome
    exact ⟨ends.1, ends.2, joins_of_ends found joined⟩
  · rintro ⟨source, target, element, found, joined⟩
    exact ⟨element, found, by rw [joined]; rfl⟩

/-- The source or the target of the edge at an address, if an edge lives there. -/
def endOn (memory : Memory) (side : Address × Address → Address) (edge : Address) :
    Option Address :=
  (memory.elements[edge]?.bind Element.ends).map side

theorem endOn_eq_some_iff {side : Address × Address → Address} {edge address : Address} :
    memory.endOn side edge = some address ↔
      ∃ source target, memory.Joins edge source target ∧ side (source, target) = address := by
  simp only [endOn, joins_iff, Option.map_eq_some_iff, Prod.exists]

theorem isElement_of_endOn {side : Address × Address → Address} {edge address : Address}
    (atEnd : memory.endOn side edge = some address) : memory.isElement edge = true := by
  obtain ⟨source, target, joins, _⟩ := endOn_eq_some_iff.mp atEnd
  exact joins.isElement

/-- On one side of the edges, the ends are older than the edges, and each end lists the edges that
it has, in the order of their addresses. -/
structure Listed (memory : Memory) (side : Address × Address → Address)
    (list : Element → List Address) : Prop where
  isElement {edge address : Address} :
    memory.endOn side edge = some address → memory.isElement address = true
  lt {edge address : Address} : memory.endOn side edge = some address → address < edge
  sorted {address : Address} {element : Element} :
    memory.elements[address]? = some element → (list element).Pairwise (· < ·)
  mem_iff {address edge : Address} {element : Element} :
    memory.elements[address]? = some element →
      (edge ∈ list element ↔ memory.endOn side edge = some address)

structure Linked (memory : Memory) : Prop where
  outgoing : memory.Listed Prod.fst Element.outgoing
  incoming : memory.Listed Prod.snd Element.incoming

/-- Every element is of one kind, and the edges are the elements with ends. -/
def Typed (memory : Memory) : Prop :=
  ∀ ⦃address : Address⦄ ⦃element : Element⦄,
    memory.elements[address]? = some element → element.Typed

/-- The owners of identifiers are the elements that carry them. -/
structure Named (memory : Memory) : Prop where
  owner_iff {identifier : String} {address : Address} :
    memory.owner? identifier = some address ↔
      ∃ element, memory.elements[address]? = some element ∧
        element.identifier = some identifier
  owner_empty : memory.owner? "" = none

/-- No address in use is handed out again. -/
def Ahead (memory : Memory) : Prop :=
  ∀ place, memory.limits.settle memory.cursor = some place →
    ∀ address, memory.isElement address = true → address < place

/-- Whatever the memory knows in more than one place is the same in all of them. -/
structure Sound (memory : Memory) : Prop where
  linked : memory.Linked
  typed : memory.Typed
  named : memory.Named
  ahead : memory.Ahead

theorem Sound.empty (limits : Limits) : (Memory.empty limits).Sound where
  linked := by constructor <;> constructor <;> simp [endOn, Memory.empty]
  typed := by simp [Typed, Memory.empty]
  named := by constructor <;> simp [owner?, Memory.empty]
  ahead := by simp [Ahead]

theorem Linked.ends_isElement (linked : memory.Linked) {edge source target : Address}
    (joins : memory.Joins edge source target) :
    memory.isElement source = true ∧ memory.isElement target = true :=
  ⟨linked.outgoing.isElement (endOn_eq_some_iff.mpr ⟨source, target, joins, rfl⟩),
    linked.incoming.isElement (endOn_eq_some_iff.mpr ⟨source, target, joins, rfl⟩)⟩

theorem Linked.ends_lt (linked : memory.Linked) {edge source target : Address}
    (joins : memory.Joins edge source target) : source < edge ∧ target < edge :=
  ⟨linked.outgoing.lt (endOn_eq_some_iff.mpr ⟨source, target, joins, rfl⟩),
    linked.incoming.lt (endOn_eq_some_iff.mpr ⟨source, target, joins, rfl⟩)⟩

theorem Linked.le_of_cone (linked : memory.Linked) {top address : Address}
    (cone : memory.Cone top address) : address ≤ top := by
  induction cone with
  | top => exact Nat.le_refl _
  | toSource joins _ edge_le =>
      exact Nat.le_of_lt (Nat.lt_of_lt_of_le (linked.ends_lt joins).1 edge_le)
  | toTarget joins _ edge_le =>
      exact Nat.le_of_lt (Nat.lt_of_lt_of_le (linked.ends_lt joins).2 edge_le)

/-- An edge is out of reach from its ends. -/
theorem Linked.not_cone_of_joins (linked : memory.Linked) {edge source target : Address}
    (joins : memory.Joins edge source target) :
    ¬memory.Cone source edge ∧ ¬memory.Cone target edge := by
  obtain ⟨source_lt, target_lt⟩ := linked.ends_lt joins
  constructor
  · intro cone
    exact Nat.lt_irrefl _ (Nat.lt_of_lt_of_le source_lt (linked.le_of_cone cone))
  · intro cone
    exact Nat.lt_irrefl _ (Nat.lt_of_lt_of_le target_lt (linked.le_of_cone cone))

theorem Linked.mem_outgoing_iff (linked : memory.Linked) {address edge : Address}
    {element : Element} (found : memory.elements[address]? = some element) :
    edge ∈ element.outgoing ↔ ∃ target, memory.Joins edge address target := by
  rw [linked.outgoing.mem_iff found, endOn_eq_some_iff]
  simp

theorem Linked.mem_incoming_iff (linked : memory.Linked) {address edge : Address}
    {element : Element} (found : memory.elements[address]? = some element) :
    edge ∈ element.incoming ↔ ∃ source, memory.Joins edge source address := by
  rw [linked.incoming.mem_iff found, endOn_eq_some_iff]
  simp

/-- The type of an element tells whether it has ends. -/
theorem Typed.isEdge_iff_joins (typed : memory.Typed) {address : Address} {element : Element}
    (found : memory.elements[address]? = some element) :
    element.type.isEdge = true ↔ ∃ source target, memory.Joins address source target := by
  rw [← (typed found).ends_isSome, Option.isSome_iff_exists]
  constructor
  · rintro ⟨ends, joined⟩
    exact ⟨ends.1, ends.2, joins_of_ends found joined⟩
  · rintro ⟨source, target, joins⟩
    exact ⟨_, joins.ends_eq found⟩

theorem Typed.isEdge_iff_not_leaf (typed : memory.Typed) {address : Address} {element : Element}
    (found : memory.elements[address]? = some element) :
    element.type.isEdge = true ↔ ¬(element.type.isNode || element.type.isLink) = true := by
  rcases ElementType.single_kind_cases (typed found).single_kind with
    ⟨node, link, edge⟩ | ⟨node, link, edge⟩ | ⟨node, link, edge⟩ <;>
  simp [node, link, edge]

theorem Named.identifier_ne_empty (named : memory.Named) {address : Address} {element : Element}
    (found : memory.elements[address]? = some element) : element.identifier ≠ some "" := by
  intro carried
  have owned := named.owner_iff.mpr ⟨element, found, carried⟩
  rw [named.owner_empty] at owned
  contradiction

/-- Two memories differ in no element, identifiers apart. -/
def SameGraph (first second : Memory) : Prop :=
  ∀ address : Address, first.elements[address]?.map (Element.withIdentifier none) =
    second.elements[address]?.map (Element.withIdentifier none)

section SameGraph

variable {other : Memory}

theorem SameGraph.exists_element (same : other.SameGraph memory) {address : Address}
    {element : Element} (found : other.elements[address]? = some element) :
    ∃ like, memory.elements[address]? = some like ∧
      like.withIdentifier none = element.withIdentifier none := by
  have mapped := same address
  rw [found, Option.map_some, eq_comm, Option.map_eq_some_iff] at mapped
  exact mapped

theorem SameGraph.isElement_eq (same : other.SameGraph memory) (address : Address) :
    other.isElement address = memory.isElement address := by
  have mapped := congrArg Option.isSome (same address)
  simpa only [Option.isSome_map, ← isElement_eq_isSome] using mapped

theorem SameGraph.endOn_eq (same : other.SameGraph memory)
    (side : Address × Address → Address) (edge : Address) :
    other.endOn side edge = memory.endOn side edge := by
  have endsOf (elements : ElementTable) :
      (elements[edge]?.map (Element.withIdentifier none)).bind Element.ends =
        elements[edge]?.bind Element.ends := by
    cases elements[edge]? <;> rfl
  rw [endOn, endOn, ← endsOf, same edge, endsOf]

theorem Listed.of_sameGraph {side : Address × Address → Address} {list : Element → List Address}
    (listed : memory.Listed side list) (same : other.SameGraph memory)
    (nameless : ∀ element : Element, list (element.withIdentifier none) = list element) :
    other.Listed side list := by
  constructor
  case isElement =>
    intro edge address atEnd
    rw [same.endOn_eq] at atEnd
    rw [same.isElement_eq]
    exact listed.isElement atEnd
  case lt =>
    intro edge address atEnd
    rw [same.endOn_eq] at atEnd
    exact listed.lt atEnd
  case sorted =>
    intro address element found
    obtain ⟨like, foundLike, alike⟩ := same.exists_element found
    rw [← nameless element, ← alike, nameless like]
    exact listed.sorted foundLike
  case mem_iff =>
    intro address edge element found
    obtain ⟨like, foundLike, alike⟩ := same.exists_element found
    rw [← nameless element, ← alike, nameless like, same.endOn_eq]
    exact listed.mem_iff foundLike

theorem Linked.of_sameGraph (linked : memory.Linked) (same : other.SameGraph memory) :
    other.Linked where
  outgoing := linked.outgoing.of_sameGraph same fun _ => rfl
  incoming := linked.incoming.of_sameGraph same fun _ => rfl

theorem Typed.of_sameGraph (typed : memory.Typed) (same : other.SameGraph memory) :
    other.Typed := by
  intro address element found
  obtain ⟨like, foundLike, alike⟩ := same.exists_element found
  simp only [Element.withIdentifier, Element.mk.injEq] at alike
  obtain ⟨types, ends, _⟩ := alike
  exact ⟨types ▸ (typed foundLike).single_kind, types ▸ ends ▸ (typed foundLike).ends_isSome⟩

theorem Ahead.of_sameGraph (ahead : memory.Ahead) (same : other.SameGraph memory)
    (limits : other.limits = memory.limits) (cursor : other.cursor = memory.cursor) :
    other.Ahead := by
  intro place settled address lives
  rw [limits, cursor] at settled
  rw [same.isElement_eq] at lives
  exact ahead place settled address lives

end SameGraph

end Memory

end SemanticMemory
