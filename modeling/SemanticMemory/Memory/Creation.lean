import SemanticMemory.Memory.Basic

/-!
# Creation of elements

A new element takes the next address.  A new edge is entered at the end of the list of edges that
start at its source and of the list of edges that end at its target, so both lists are in the order
of creation.
-/

namespace SemanticMemory

namespace Element

def addOutgoing (edge : Address) (element : Element) : Element :=
  { element with outgoing := element.outgoing ++ [edge] }

def addIncoming (edge : Address) (element : Element) : Element :=
  { element with incoming := element.incoming ++ [edge] }

/-- What becomes of the element at an address when an edge from the source to the target is
entered. -/
def linked (edge source target address : Address) (element : Element) : Element :=
  let started := if source = address then element.addOutgoing edge else element
  if target = address then started.addIncoming edge else started

end Element

namespace ElementType

/-- Whether the type is fit for a node: it is a node and nothing else. -/
def fitsNode (type : ElementType) : Bool :=
  type.isNode && type.hasSingleKind

/-- Whether the type is fit for an edge: it is one of the kinds of edge and nothing else. -/
def fitsEdge (type : ElementType) : Bool :=
  type.isEdge && type.hasSingleKind

end ElementType

namespace Memory

def link (table : ElementTable) (edge source target : Address) : ElementTable :=
  (table.modify source (Element.addOutgoing edge)).modify target (Element.addIncoming edge)

/-- The table with a fresh element in it, which is linked to its ends. -/
def enter (table : ElementTable) (address : Address) (type : ElementType)
    (ends : Option (Address × Address)) : ElementTable :=
  let entered := table.insert address (.fresh type ends)
  match ends with
  | none => entered
  | some (source, target) => link entered address source target

theorem getElem?_link (table : ElementTable) (edge source target address : Address) :
    (link table edge source target)[address]? =
      table[address]?.map (Element.linked edge source target address) := by
  simp only [link, Std.ExtTreeMap.getElem?_modify, Std.LawfulEqCmp.compare_eq_iff_eq]
  by_cases atTarget : target = address
  · subst atTarget
    by_cases atSource : source = target
    · subst atSource
      cases table[source]? <;> simp [Element.linked]
    · cases table[target]? <;> simp [Element.linked, atSource]
  · by_cases atSource : source = address
    · subst atSource
      cases table[source]? <;> simp [Element.linked, atTarget]
    · cases table[address]? <;> simp [Element.linked, atTarget, atSource]

/-- A fresh node or link is in the table, and nothing else is different. -/
theorem getElem?_enter_none (table : ElementTable) (address other : Address)
    (type : ElementType) :
    (enter table address type none)[other]? =
      if address = other then some (.fresh type none) else table[other]? := by
  simp [enter, Std.ExtTreeMap.getElem?_insert]

/-- A fresh edge is in the table, and it is linked to its ends. -/
theorem getElem?_enter_some (table : ElementTable) (address source target other : Address)
    (type : ElementType) :
    (enter table address type (some (source, target)))[other]? =
      (if address = other then some (.fresh type (some (source, target)))
        else table[other]?).map (Element.linked address source target other) := by
  simp [enter, getElem?_link, Std.ExtTreeMap.getElem?_insert]

/-- Gives the next address to a fresh element. -/
def insert (type : ElementType) (ends : Option (Address × Address)) :
    Action Memory StoreError Address :=
  fun memory =>
    match memory.limits.allocate memory.cursor with
    | (.error error, cursor) => ⟨.error error, { memory with cursor }, []⟩
    | (.ok address, cursor) =>
        ⟨.ok address,
          { memory with cursor, elements := enter memory.elements address type ends }, []⟩

def createNode (type : ElementType) : Action Memory StoreError Address :=
  if type.fitsNode then insert type none else .fail (.notANodeType type)

def createLink : Action Memory StoreError Address :=
  insert .linkConst none

/-- Creates an edge, if the type is fit for one and both ends live.  The type is looked at first,
then the source, then the target. -/
def createEdge (type : ElementType) (source target : Address) :
    Action Memory StoreError Address :=
  if type.fitsEdge then do
    let _ ← Action.query fun memory => memory.element source
    let _ ← Action.query fun memory => memory.element target
    insert type (some (source, target))
  else
    .fail (.notAnEdgeType type)

end Memory

end SemanticMemory
