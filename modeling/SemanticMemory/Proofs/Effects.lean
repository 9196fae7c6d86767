import SemanticMemory.Proofs.Integrity

/-!
# What a call can do

A call does one of six things to a memory.  What holds after a call, and what a call leaves alone,
follows from this list without another look at the calls.
-/

namespace SemanticMemory

theorem Limits.later_of_refused {limits : Limits} {cursor moved next : Address} {error : StoreError}
    (refused : limits.allocate cursor = (.error error, moved))
    (settled : limits.settle moved = some next) :
    ∃ place, limits.settle cursor = some place ∧ place ≤ next := by
  rcases limits.allocate_cases cursor with ⟨place, _, taken⟩ | ⟨_, refusedAgain, later⟩
  · rw [refused] at taken
    cases taken
  · rw [refused] at refusedAgain
    cases refusedAgain
    exact later next settled

namespace Memory

variable {memory : Memory}

/-- What becomes of a memory by a call. -/
inductive Effect (memory : Memory) : Call → Memory → Prop where
  | unchanged (call : Call) : Effect memory call memory
  /-- There was no room, and the cursor went to where the search for room ended. -/
  | moved (call : Call) {cursor : Address}
      (refused : memory.limits.allocate memory.cursor = (.error .capacityExceeded, cursor)) :
      Effect memory call { memory with cursor }
  | extended (call : Call) {place : Address} {type : ElementType}
      {ends : Option (Address × Address)} (fits : memory.Fits place type ends) :
      Effect memory call (memory.extended place type ends)
  | erased {root : Address} {gone : Finset Address} (lives : memory.isElement root = true)
      (members : ∀ address, address ∈ gone ↔ memory.Cascade root address) :
      Effect memory (.erase root) (memory.without gone)
  | renamed {address : Address} {element : Element} {text : String}
      (found : memory.elements[address]? = some element) (free : memory.owner? text = none) :
      Effect memory (.assignIdentifier address text)
        (memory.renamed address element.identifier text)
  | cleared : Effect memory .clear memory.clear

theorem effect_insert (call : Call) {type : ElementType} {ends : Option (Address × Address)}
    (fits : ∀ place, memory.limits.settle memory.cursor = some place →
      memory.Fits place type ends) :
    memory.Effect call ((insert type ends).run memory).state := by
  rcases memory.limits.allocate_cases memory.cursor with
    ⟨place, settled, taken⟩ | ⟨cursor, refused, _⟩
  · have created : ((insert type ends).run memory).state = memory.extended place type ends := by
      simp only [insert, Action.run, taken, extended]
    rw [created]
    exact .extended call (fits place settled)
  · have stopped : ((insert type ends).run memory).state = { memory with cursor } := by
      simp only [insert, Action.run, refused]
    rw [stopped]
    exact .moved call refused

/-- A call to a sound memory does one of the things that a call can do. -/
theorem Sound.effect (sound : memory.Sound) (call : Call) :
    memory.Effect call (call.apply memory) := by
  cases call with
  | createNode type =>
      rw [Call.apply, run_createNode]
      split
      · next fits =>
          obtain ⟨single, notEdge⟩ := isEdge_of_fitsNode fits
          exact effect_insert _ fun _ => fits_leaf single notEdge
      · exact .unchanged _
  | createLink => exact effect_insert _ fun _ => fits_leaf (by decide) (by decide)
  | createEdge type source target =>
      rw [Call.apply]
      rcases run_createEdge_cases memory type source target with
        ⟨error, refused⟩ | ⟨fits, sourceLives, targetLives, created⟩
      · rw [refused]
        exact .unchanged _
      · rw [created]
        exact effect_insert _ fun _ => fits_edge fits sourceLives targetLives
  | erase root =>
      rw [Call.apply]
      cases lives : memory.isElement root with
      | false =>
          rw [run_erase_of_not_isElement lives]
          exact .unchanged _
      | true =>
          obtain ⟨gone, members, _, erased⟩ :=
            run_erase_of_isElement sound.linked sound.named lives
          rw [erased]
          exact .erased lives members
  | assignIdentifier address text =>
      rw [Call.apply]
      rcases run_assignIdentifier_cases memory address text with
        ⟨result, unchanged⟩ | ⟨element, found, free, assigned⟩
      · rw [unchanged]
        exact .unchanged _
      · rw [assigned]
        exact .renamed found free
  | clear => exact .cleared

end Memory

end SemanticMemory
