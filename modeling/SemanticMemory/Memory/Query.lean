import SemanticMemory.Memory.Basic

/-!
# Queries

A pattern is answered from the shortest list at hand: the edges that start at a fixed source, else
the edges that end at a fixed target, else all edges.  Whichever list serves, the answers come in
the order of their edges.
-/

namespace SemanticMemory

namespace Memory

def elementType (memory : Memory) (address : Address) : Except StoreError ElementType :=
  (memory.element address).map Element.type

def endpoints (memory : Memory) (address : Address) : Except StoreError (Address × Address) :=
  (memory.element address).bind fun element =>
    match element.ends with
    | none => .error (.notAnEdge address)
    | some ends => .ok ends

def candidates (memory : Memory) (pattern : Pattern) : List Address :=
  match pattern.source.address?, pattern.target.address? with
  | some source, _ =>
      match memory.elements[source]? with
      | none => []
      | some element => element.outgoing
  | none, some target =>
      match memory.elements[target]? with
      | none => []
      | some element => element.incoming
  | none, none => memory.edges

def examine (memory : Memory) (pattern : Pattern) (edge : Address) :
    Except StoreError (Option Triple) := do
  let element ← memory.element edge
  match element.ends with
  | none => return none
  | some (source, target) =>
      if element.type.carries pattern.edgeType then
        if pattern.source.accepts source (← memory.elementType source) then
          if pattern.target.accepts target (← memory.elementType target) then
            return some ⟨source, edge, target⟩
          else
            return none
        else
          return none
      else
        return none

/-- The answers to a question put to each address in turn, up to the first error. -/
def gather (question : Address → Except StoreError (Option Triple)) :
    List Address → Except StoreError (List Triple)
  | [] => .ok []
  | edge :: edges => do
      let answer ← question edge
      let answers ← gather question edges
      return answer.toList ++ answers

def matching (memory : Memory) (pattern : Pattern) : Except StoreError (List Triple) :=
  gather (memory.examine pattern) (memory.candidates pattern)

end Memory

end SemanticMemory
