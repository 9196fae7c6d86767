import SemanticMemory.Proofs.Integrity

/-!
# Identifiers and their owners

Identifiers and the elements that carry them are matched one to one.  An identifier that its element
gives up, or loses with its life, is free for any other element.
-/

namespace SemanticMemory

namespace Memory

variable {memory : Memory}

/-- No element carries the identifier, and any element can be given it. -/
structure Free (memory : Memory) (identifier : String) : Prop where
  owner?_eq : memory.owner? identifier = none
  assignable {address : Address} : memory.isElement address = true →
    ∃ next, (assignIdentifier address identifier).run memory = ⟨.ok (), next, []⟩ ∧
      next.owner? identifier = some address ∧
      next.identifier address = .ok (some identifier)

theorem free_of_owner? {identifier : String} (nonempty : identifier ≠ "")
    (unowned : memory.owner? identifier = none) : memory.Free identifier where
  owner?_eq := unowned
  assignable {address} lives := by
    obtain ⟨element, found⟩ := isElement_iff_exists_element.mp lives
    have isCarried : carried identifier = some identifier := if_neg nonempty
    refine ⟨memory.renamed address element.identifier identifier, ?_, ?_, ?_⟩
    · rw [run_assignIdentifier, found, unowned]
    · rw [owner?_renamed, if_pos isCarried]
    · rw [identifier_eq_ok_iff, getElem?_renamed, if_pos rfl, found]
      exact ⟨_, rfl, isCarried⟩

theorem Named.owner?_eq_some_iff (named : memory.Named) {identifier : String}
    {address : Address} :
    memory.owner? identifier = some address ↔
      memory.identifier address = .ok (some identifier) := by
  rw [named.owner_iff, identifier_eq_ok_iff]

theorem Named.isElement_of_owner? (named : memory.Named) {identifier : String}
    {address : Address} (owned : memory.owner? identifier = some address) :
    memory.isElement address = true := by
  obtain ⟨element, found, _⟩ := named.owner_iff.mp owned
  exact isElement_iff_exists_element.mpr ⟨element, found⟩

theorem Named.ne_empty (named : memory.Named) {identifier : String} {address : Address}
    (carries : memory.identifier address = .ok (some identifier)) : identifier ≠ "" := by
  rintro rfl
  rw [← named.owner?_eq_some_iff, named.owner_empty] at carries
  contradiction

/-- An element that is given another text gives up the identifier that it carried. -/
theorem Named.released_of_renamed (named : memory.Named) {address : Address}
    {previous text : String} (carries : memory.identifier address = .ok (some previous))
    (distinct : previous ≠ text) {next : Memory} {events : List Event}
    (assigned : (assignIdentifier address text).run memory = ⟨.ok (), next, events⟩) :
    next.owner? previous = none := by
  have owned := named.owner?_eq_some_iff.mpr carries
  obtain ⟨element, found, carriesElement⟩ := identifier_eq_ok_iff.mp carries
  rw [run_assignIdentifier, found] at assigned
  cases owns : memory.owner? text with
  | none =>
      rw [owns] at assigned
      cases assigned
      have notNew : carried text ≠ some previous := fun new =>
        distinct (carried_eq_some_iff.mp new).1.symm
      rw [owner?_renamed, if_neg notNew, if_pos carriesElement]
  | some owner =>
      rw [owns] at assigned
      dsimp only at assigned
      split at assigned
      -- The element cannot own the new text, since it carries another identifier.
      · next same =>
          rw [same, named.owner?_eq_some_iff, carries, Except.ok.injEq, Option.some.injEq] at owns
          exact absurd owns distinct
      · cases assigned

/-- An element that goes with an erasure loses its identifier. -/
theorem Sound.released_of_erased (sound : memory.Sound) {root address : Address}
    {previous : String} (carries : memory.identifier address = .ok (some previous))
    (rootLives : memory.isElement root = true) (goes : memory.Cascade root address) :
    ((Memory.erase root).run memory).state.owner? previous = none := by
  have owned := sound.named.owner?_eq_some_iff.mpr carries
  obtain ⟨gone, members, _, erased⟩ :=
    run_erase_of_isElement sound.linked sound.named rootLives
  have isGone : address ∈ gone := (members address).mpr goes
  rw [erased, owner?_without, owned]
  simp [Option.filter_some, isGone]

/-- In a memory that calls lead to, identifiers and the elements that carry them are matched one to
one.  Whatever is given up, by another text, by the empty text, or by an erasure, is free. -/
theorem Reachable.identifiers_matched (reachable : Reachable memory) :
    (∀ identifier address, memory.owner? identifier = some address ↔
      memory.isElement address = true ∧ memory.identifier address = .ok (some identifier)) ∧
    (∀ identifier first second, memory.identifier first = .ok (some identifier) →
      memory.identifier second = .ok (some identifier) → first = second) ∧
    (∀ identifier address, memory.isElement address = false →
      memory.owner? identifier ≠ some address) ∧
    (memory.owner? "" = none ∧ ∀ address, memory.identifier address ≠ .ok (some "")) ∧
    (∀ address previous text next events,
      memory.identifier address = .ok (some previous) → previous ≠ text →
      (assignIdentifier address text).run memory = ⟨.ok (), next, events⟩ →
        next.Free previous) ∧
    (∀ root address previous, memory.isElement root = true → memory.Cascade root address →
      memory.identifier address = .ok (some previous) →
        ((erase root).run memory).state.Free previous) := by
  have sound := reachable.sound
  have named := sound.named
  refine ⟨?_, ?_, ?_, ⟨named.owner_empty, ?_⟩, ?_, ?_⟩
  · intro identifier address
    rw [← named.owner?_eq_some_iff]
    exact ⟨fun owned => ⟨named.isElement_of_owner? owned, owned⟩, And.right⟩
  · intro identifier first second firstCarries secondCarries
    rw [← named.owner?_eq_some_iff] at firstCarries secondCarries
    exact Option.some.inj (firstCarries.symm.trans secondCarries)
  · intro identifier address missing owned
    rw [named.isElement_of_owner? owned] at missing
    contradiction
  · exact fun address carries => named.ne_empty carries rfl
  · intro address previous text next events carries distinct assigned
    exact free_of_owner? (named.ne_empty carries)
      (named.released_of_renamed carries distinct assigned)
  · intro root address previous rootLives goes carries
    exact free_of_owner? (named.ne_empty carries)
      (sound.released_of_erased carries rootLives goes)

/-- The edge under the loop carries an identifier. -/
def loopOnNamedEdge : Memory :=
  loopOnEdge.after [.assignIdentifier ⟨0, 3⟩ "edge"]

theorem identifiers_matched_at_loopOnNamedEdge :
    Reachable loopOnNamedEdge ∧ loopOnNamedEdge.owner? "edge" = some ⟨0, 3⟩ ∧
      loopOnNamedEdge.Cascade ⟨0, 2⟩ ⟨0, 3⟩ ∧
      ((erase ⟨0, 2⟩).run loopOnNamedEdge).state.Free "edge" := by
  have reachable : Reachable loopOnNamedEdge := reachable_loopOnEdge.after _
  have owned : loopOnNamedEdge.owner? "edge" = some ⟨0, 3⟩ := by decide
  have goes : loopOnNamedEdge.Cascade ⟨0, 2⟩ ⟨0, 3⟩ :=
    .fromTarget ⟨⟨.membershipArc, some (⟨0, 1⟩, ⟨0, 2⟩), [⟨0, 4⟩], [⟨0, 4⟩, ⟨1, 1⟩], some "edge"⟩,
      by decide, rfl⟩ .root
  obtain ⟨owner_iff, _, _, _, _, erased⟩ := reachable.identifiers_matched
  exact ⟨reachable, owned, goes,
    erased ⟨0, 2⟩ ⟨0, 3⟩ "edge" (by decide) goes ((owner_iff _ _).mp owned).2⟩

end Memory

end SemanticMemory
