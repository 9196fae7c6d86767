import SemanticMemory.Diagnostics
import SemanticMemory.Memory.Store
import SemanticMemory.Request

/-!
# Sessions

A session sends steps to a store one after the other.  A step is a request, a report about an
element, or the clearing of the memory under all layers.  Stores of different kinds can be taken
through the same session.
-/

namespace SemanticMemory

inductive Step where
  | ask (request : Request)
  | reportUnknownOperatorType (operator : Address)
  | reportError (description : String) (address : Address)
  /-- The memory under all layers loses its elements. -/
  | clear

namespace Step

def Value : Step → Type
  | ask request => request.Value
  | reportUnknownOperatorType _ => Unit
  | reportError _ _ => Unit
  | clear => Unit

def action {σ : Type} [TripleStore σ] [Layered σ] : (step : Step) → Action σ Failure step.Value
  | ask request => request.action
  | reportUnknownOperatorType operator => Diagnostics.reportUnknownOperatorType operator
  | reportError description address => Diagnostics.reportError description address
  | clear => Layered.beneath fun memory => ⟨.ok (), memory.clear, []⟩

end Step

namespace Session

variable {σ : Type} [TripleStore σ] [Layered σ]

/-- The store that the steps lead to, some of which may fail. -/
def after (store : σ) (steps : List Step) : σ :=
  steps.foldl (fun store step => (step.action.run store).state) store

/-- What a step is answered when other steps went before it. -/
def answer (store : σ) (steps : List Step) (step : Step) : Except Failure step.Value :=
  (step.action.run (after store steps)).result

/-- What is reported during a step when other steps went before it. -/
def reports (store : σ) (steps : List Step) (step : Step) : List Event :=
  (step.action.run (after store steps)).events

@[simp]
theorem after_nil (store : σ) : after store [] = store :=
  rfl

@[simp]
theorem after_cons (store : σ) (step : Step) (steps : List Step) :
    after store (step :: steps) = after (step.action.run store).state steps :=
  rfl

end Session

end SemanticMemory
