import Mathlib.Data.List.Permutation
import SemanticMemory.Proofs.Matching

/-!
# What an erasure takes away

Erasing an element takes its cascade away and nothing else.  What is left is as it was, up to the
edges that are gone.
-/

namespace SemanticMemory

namespace Memory

variable {memory : Memory} {gone : Finset Address} {address : Address}

theorem element_without (kept : address ∉ gone) :
    (memory.without gone).element address =
      (memory.element address).map (Element.without gone) := by
  unfold element
  rw [getElem?_without, if_neg kept]
  cases memory.elements[address]? <;> rfl

theorem elementType_without (kept : address ∉ gone) :
    (memory.without gone).elementType address = memory.elementType address := by
  rw [elementType, elementType, element_without kept]
  cases memory.element address <;> rfl

theorem endpoints_without (kept : address ∉ gone) :
    (memory.without gone).endpoints address = memory.endpoints address := by
  rw [endpoints, endpoints, element_without kept]
  cases memory.element address <;> rfl

theorem identifier_without (kept : address ∉ gone) :
    (memory.without gone).identifier address = memory.identifier address := by
  rw [identifier, identifier, element_without kept]
  cases memory.element address <;> rfl

/-- An identifier becomes free when its owner goes, and keeps its owner otherwise. -/
theorem Named.released_iff (named : memory.Named) {identifier : String} :
    (memory.owner? identifier ≠ none ∧ (memory.without gone).owner? identifier = none) ↔
      ∃ address ∈ gone, memory.identifier address = .ok (some identifier) := by
  simp only [identifier_eq_ok_iff, ← named.owner_iff, owner?_without]
  cases memory.owner? identifier with
  | none => simp
  | some owner => simp [Option.filter_some]

theorem owner?_without_of_ne_none {identifier : String}
    (owned : (memory.without gone).owner? identifier ≠ none) :
    (memory.without gone).owner? identifier = memory.owner? identifier := by
  obtain ⟨owner, isOwner⟩ := Option.ne_none_iff_exists'.mp owned
  rw [isOwner]
  rw [owner?_without, Option.filter_eq_some_iff] at isOwner
  exact isOwner.1.symm

/-- In a memory that calls lead to, erasing an element takes away exactly its cascade. -/
theorem Reachable.erase_cascade (reachable : Reachable memory) (root : Address) :
    (memory.isElement root = false → (erase root).run memory = ⟨.ok false, memory, []⟩) ∧
    (memory.isElement root = true →
      ∃ (left : Memory) (gone : Finset Address) (events : List Event),
        (erase root).run memory = ⟨.ok true, left, events⟩ ∧
        (∀ address, address ∈ gone ↔ memory.Cascade root address) ∧
        (∀ address, address ∈ gone ↔
          memory.isElement address = true ∧ left.isElement address = false) ∧
        (∀ address, left.isElement address = true →
          memory.isElement address = true ∧
          left.elementType address = memory.elementType address ∧
          left.endpoints address = memory.endpoints address ∧
          left.identifier address = memory.identifier address) ∧
        (∀ pattern, ∃ triples, memory.matching pattern = .ok triples ∧
          left.matching pattern = .ok (triples.filter fun triple => triple.edge ∉ gone)) ∧
        (∀ identifier, (memory.owner? identifier ≠ none ∧ left.owner? identifier = none) ↔
          ∃ address ∈ gone, memory.identifier address = .ok (some identifier)) ∧
        (∀ identifier, left.owner? identifier ≠ none →
          left.owner? identifier = memory.owner? identifier) ∧
        left.elementCount + gone.card = memory.elementCount ∧
        (1 < gone.card → ∃ event, events = [event] ∧ event.level = .debug ∧
          event.fields = [("addr", .text root.text), ("erased", .count gone.card)]) ∧
        (gone.card = 1 → events = [])) := by
  have sound := reachable.sound
  refine ⟨run_erase_of_not_isElement, fun lives => ?_⟩
  obtain ⟨gone, members, counted, erased⟩ :=
    run_erase_of_isElement sound.linked sound.named lives
  have closed := closedUpwards_of_cascade members
  refine ⟨memory.without gone, gone, _, erased, members, ?_, ?_, ?_,
    fun _ => sound.named.released_iff, fun _ => owner?_without_of_ne_none, counted, ?_, ?_⟩
  · intro address
    rw [← Bool.not_eq_true, isElement_without]
    constructor
    · intro isGone
      exact ⟨((members address).mp isGone).isElement lives, fun kept => kept.2 isGone⟩
    · rintro ⟨livesBefore, left⟩
      by_contra kept
      exact left ⟨livesBefore, kept⟩
  · intro address livesAfter
    obtain ⟨livesBefore, kept⟩ := isElement_without.mp livesAfter
    exact ⟨livesBefore, elementType_without kept, endpoints_without kept,
      identifier_without kept⟩
  · intro pattern
    refine ⟨_, sound.linked.matching_eq_scan pattern, ?_⟩
    rw [(sound.linked.without closed).matching_eq_scan, scan_without closed]
  · intro several
    exact ⟨_, if_pos several, rfl, rfl⟩
  · intro one
    rw [one]
    rfl

theorem erase_cascade_at_loopOnEdge :
    Reachable loopOnEdge ∧ loopOnEdge.isElement ⟨0, 2⟩ = true ∧
      ∃ (left : Memory) (gone : Finset Address),
        (erase ⟨0, 2⟩).run loopOnEdge = ⟨.ok true, left, [.cascadeErased ⟨0, 2⟩ 4]⟩ ∧
        gone.card = 4 ∧ ∀ address, address ∈ gone ↔ loopOnEdge.Cascade ⟨0, 2⟩ address := by
  have lives : loopOnEdge.isElement ⟨0, 2⟩ = true := by decide
  obtain ⟨left, gone, events, erased, members, _, _, _, _, _, counted, _, _⟩ :=
    (reachable_loopOnEdge.erase_cascade ⟨0, 2⟩).2 lives
  have reported : ((erase ⟨0, 2⟩).run loopOnEdge).events = [.cascadeErased ⟨0, 2⟩ 4] := by
    cbv
  have remaining : ((erase ⟨0, 2⟩).run loopOnEdge).state.elementCount = 1 := by cbv
  have before : loopOnEdge.elementCount = 5 := by decide
  rw [erased] at reported remaining
  dsimp only at reported remaining
  exact ⟨reachable_loopOnEdge, lives, left, gone, by rw [erased, reported], by omega, members⟩

end Memory

end SemanticMemory
