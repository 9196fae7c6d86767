import SemanticMemory.Rendering

/-!
# Diagnostics

Reports that an interpreter of the network makes about an element.  They change nothing and never
fail.
-/

namespace SemanticMemory

namespace Diagnostics

variable {σ ε : Type} [TripleStore σ]

def reportUnknownOperatorType (operator : Address) : Action σ ε Unit := do
  let label ← Action.view fun store => Rendering.label store operator
  Action.emit (.operatorTypeUnknown label)

def reportError (description : String) (address : Address) : Action σ ε Unit := do
  let label ← Action.view fun store => Rendering.label store address
  Action.emit (.interpreterError description label)

end Diagnostics

end SemanticMemory
