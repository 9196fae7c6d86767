import SemanticMemory.TripleStore

/-!
# The text of an element

A node or a link is written as its identifier, or as its address when it carries none.  An edge is
written through the texts of its ends, whatever identifier it carries.  An edge is made after its
ends, so it has a greater address than they have; an edge for which this fails has no text.
-/

namespace SemanticMemory

namespace Rendering

variable {σ : Type} [TripleStore σ]

def leafText (address : Address) : Option String → String
  | none => address.text
  | some identifier => if identifier = "" then address.text else identifier

def edgeText (source target : String) : String :=
  "(" ++ source ++ "->" ++ target ++ ")"

/-- The text of the element at the address. -/
def elementText (store : σ) (address : Address) : Except Failure String :=
  match TripleStore.elementType store address with
  | .error cause => .error (.store cause)
  | .ok type =>
      if type.isNode || type.isLink then
        match TripleStore.identifier store address with
        | .error cause => .error (.store cause)
        | .ok identifier => .ok (leafText address identifier)
      else
        match TripleStore.endpoints store address with
        | .error cause => .error (.store cause)
        | .ok (source, target) =>
            if _ : source < address ∧ target < address then
              match elementText store source with
              | .error failure => .error failure
              | .ok sourceText =>
                  match elementText store target with
                  | .error failure => .error failure
                  | .ok targetText => .ok (edgeText sourceText targetText)
            else
              .error (.endlessEdge address)
termination_by address.rank
decreasing_by
  · exact (‹_ ∧ _› : source < address ∧ target < address).1
  · exact (‹_ ∧ _› : source < address ∧ target < address).2

/-- The text of an element in a report: its address stands in for a text that cannot be had. -/
def label (store : σ) (address : Address) : String :=
  match elementText store address with
  | .ok text => text
  | .error _ => address.text

end Rendering

end SemanticMemory
