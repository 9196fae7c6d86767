import SemanticMemory.Rendering
import SemanticMemory.Sink

/-!
# The neighborhood of an element

The neighborhood of an element is written as its text, one line for each edge that ends at it, one
line for each edge that starts at it, and a count after each group.  An access arc is drawn with a
single shaft and any other edge with a double one.
-/

namespace SemanticMemory

structure NeighborhoodSummary where
  incoming : Nat
  outgoing : Nat
  deriving DecidableEq, Inhabited

namespace Neighborhood

variable {σ : Type} [TripleStore σ]

inductive Side where
  | incoming
  | outgoing
  deriving DecidableEq

namespace Side

def pattern : Side → Address → Pattern
  | incoming => .incoming
  | outgoing => .outgoing

def otherEnd : Side → Triple → Address
  | incoming => Triple.source
  | outgoing => Triple.target

def glyph (side : Side) (isAccessArc : Bool) : String :=
  match side, isAccessArc with
  | incoming, true => "<-"
  | incoming, false => "<="
  | outgoing, true => "->"
  | outgoing, false => "=>"

def heading : Side → String
  | incoming => "Input arcs:\n"
  | outgoing => "Output arcs:\n"

def total (side : Side) (count : Nat) : String :=
  match side with
  | incoming => "Total input arcs: " ++ toString count ++ "\n"
  | outgoing => "Total output arcs: " ++ toString count ++ "\n"

/-- The line of an edge whose other end has the given text. -/
def line (side : Side) (edge : Address) (isAccessArc : Bool) (endText : String) : String :=
  "\t" ++ edge.text ++ " " ++ side.glyph isAccessArc ++ " " ++ endText ++ "\n"

end Side

def edgeLine (store : σ) (side : Side) (triple : Triple) : Except Failure String := do
  let type ← (TripleStore.elementType store triple.edge).mapError .store
  let endText ← Rendering.elementText store (side.otherEnd triple)
  return side.line triple.edge type.isAccessArc endText

/-- Writes the lines of the edges, each before the next is looked at. -/
def writeEdges (store : σ) (side : Side) : List Triple → Action Sink Failure Unit
  | [] => return ()
  | triple :: triples => do
      Sink.write (← Action.ofExcept (edgeLine store side triple))
      writeEdges store side triples

/-- Writes the edges on one side of the element and counts them. -/
def writeSide (store : σ) (address : Address) (side : Side) : Action Sink Failure Nat := do
  Sink.write side.heading
  let triples ← Action.ofExcept
    ((TripleStore.matching store (side.pattern address)).mapError .store)
  writeEdges store side triples
  Sink.write (side.total triples.length)
  return triples.length

def write (store : σ) (address : Address) : Action Sink Failure NeighborhoodSummary := do
  if TripleStore.isElement store address then
    Sink.write ((← Action.ofExcept (Rendering.elementText store address)) ++ "\n")
    let incoming ← writeSide store address .incoming
    let outgoing ← writeSide store address .outgoing
    return ⟨incoming, outgoing⟩
  else
    Action.fail (.elementNotFound address)

end Neighborhood

end SemanticMemory
