import SemanticMemory.Memory.Basic

/-!
# Identifiers

An identifier names at most one element, and an element carries at most one.  The empty text names
nothing: assigning it takes an identifier away.
-/

namespace SemanticMemory

namespace Element

def withIdentifier (identifier : Option String) (element : Element) : Element :=
  { element with identifier }

end Element

namespace Memory

def identifier (memory : Memory) (address : Address) : Except StoreError (Option String) :=
  (memory.element address).map Element.identifier

def owner? (memory : Memory) (identifier : String) : Option Address :=
  memory.identifiers[identifier]?

/-- The identifier that an element carries after it is given a text. -/
def carried (text : String) : Option String :=
  if text = "" then none else some text

/-- The memory after the element at the address, which carried `previous`, is given a text that
nothing owns. -/
def renamed (memory : Memory) (address : Address) (previous : Option String) (text : String) :
    Memory :=
  let released :=
    match previous with
    | none => memory.identifiers
    | some identifier => memory.identifiers.erase identifier
  { memory with
    elements := memory.elements.modify address (Element.withIdentifier (carried text))
    identifiers :=
      match carried text with
      | none => released
      | some identifier => released.insert identifier address }

/-- Renaming changes the identifier of one element and nothing else of any element. -/
theorem getElem?_renamed (memory : Memory) (address other : Address) (previous : Option String)
    (text : String) :
    (memory.renamed address previous text).elements[other]? =
      if address = other then
        memory.elements[other]?.map (Element.withIdentifier (carried text))
      else memory.elements[other]? := by
  simp only [renamed, Std.ExtTreeMap.getElem?_modify, Std.LawfulEqCmp.compare_eq_iff_eq]
  split
  · next same => rw [same]
  · rfl

/-- After renaming, the new identifier is owned, the previous one is free, and any other is owned
as before. -/
theorem owner?_renamed (memory : Memory) (address : Address) (previous : Option String)
    (text identifier : String) :
    (memory.renamed address previous text).owner? identifier =
      if carried text = some identifier then some address
      else if previous = some identifier then none
      else memory.owner? identifier := by
  unfold renamed owner?
  cases carried text <;> cases previous <;>
    simp [Std.ExtTreeMap.getElem?_insert, Std.ExtTreeMap.getElem?_erase]

/-- Gives an identifier to the element at the address, in place of the one that it carried.  The
identifier of another element is refused. -/
def assignIdentifier (address : Address) (identifier : String) : Action Memory StoreError Unit :=
  fun memory =>
    match memory.element address with
    | .error error => ⟨.error error, memory, []⟩
    | .ok element =>
        match memory.owner? identifier with
        | none => ⟨.ok (), memory.renamed address element.identifier identifier, []⟩
        | some owner =>
            if owner = address then ⟨.ok (), memory, []⟩
            else ⟨.error (.identifierInUse identifier owner), memory, []⟩

end Memory

end SemanticMemory
