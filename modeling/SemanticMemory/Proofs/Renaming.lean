import SemanticMemory.Proofs.Soundness

/-!
# Renaming keeps a memory sound

Giving an identifier to an element changes no edge, and the table of owners follows.
-/

namespace SemanticMemory

namespace Memory

variable {memory : Memory}

theorem carried_eq_some_iff {text identifier : String} :
    carried text = some identifier ↔ text = identifier ∧ identifier ≠ "" := by
  unfold carried
  split
  · next isEmpty => simp [isEmpty, eq_comm]
  · next notEmpty =>
      simp only [Option.some.injEq]
      exact ⟨fun same => ⟨same, same ▸ notEmpty⟩, And.left⟩

section Renamed

variable {address : Address} {element : Element} {text : String}

theorem sameGraph_renamed (memory : Memory) (address : Address) (previous : Option String)
    (text : String) : (memory.renamed address previous text).SameGraph memory := by
  intro other
  rw [getElem?_renamed]
  split
  · rw [Option.map_map]
    rfl
  · rfl

theorem carries_renamed_iff (found : memory.elements[address]? = some element)
    {other : Address} {identifier : String} :
    (∃ after, (memory.renamed address element.identifier text).elements[other]? = some after ∧
        after.identifier = some identifier) ↔
      if address = other then carried text = some identifier
      else ∃ before, memory.elements[other]? = some before ∧
        before.identifier = some identifier := by
  simp only [getElem?_renamed]
  split
  · next same => simp [← same, found, Element.withIdentifier]
  · rfl

theorem Named.renamed (named : memory.Named)
    (found : memory.elements[address]? = some element) (free : memory.owner? text = none) :
    (memory.renamed address element.identifier text).Named where
  owner_empty := by
    rw [owner?_renamed, if_neg (fun same => (carried_eq_some_iff.mp same).2 rfl),
      named.owner_empty, ite_self]
  owner_iff {identifier other} := by
    rw [owner?_renamed, carries_renamed_iff found]
    by_cases taken : carried text = some identifier
    · obtain ⟨rfl, _⟩ := carried_eq_some_iff.mp taken
      have unowned : ¬ ∃ before, memory.elements[other]? = some before ∧
          before.identifier = some text := by
        rw [← named.owner_iff, free]
        exact nofun
      by_cases same : address = other
      · simp [taken, same]
      · simp [taken, same, unowned]
    · by_cases given : element.identifier = some identifier
      · have owned := named.owner_iff.mpr ⟨element, found, given⟩
        by_cases same : address = other
        · simp [taken, given, same]
        · rw [← named.owner_iff, owned]
          simp [taken, given, same]
      · by_cases same : address = other
        · subst same
          have notOwned : memory.owner? identifier ≠ some address := by
            intro owned
            obtain ⟨before, foundBefore, carriedBefore⟩ := named.owner_iff.mp owned
            rw [found, Option.some.injEq] at foundBefore
            exact given (foundBefore ▸ carriedBefore)
          simp [taken, given, notOwned]
        · simp only [if_neg taken, if_neg given, if_neg same]
          exact named.owner_iff

end Renamed

/-- What an assignment comes to, by the element at the address and the owner of the text. -/
theorem run_assignIdentifier (memory : Memory) (address : Address) (text : String) :
    (assignIdentifier address text).run memory =
      match memory.elements[address]?, memory.owner? text with
      | none, _ => ⟨.error (.elementNotFound address), memory, []⟩
      | some element, none => ⟨.ok (), memory.renamed address element.identifier text, []⟩
      | some _, some owner =>
          if owner = address then ⟨.ok (), memory, []⟩
          else ⟨.error (.identifierInUse text owner), memory, []⟩ := by
  cases found : memory.elements[address]? with
  | none => simp only [assignIdentifier, Action.run, element_eq_error_iff.mpr ⟨found, rfl⟩]
  | some element =>
      simp only [assignIdentifier, Action.run, element_eq_ok_iff.mpr found]
      cases memory.owner? text <;> rfl

/-- An assignment leaves the memory as it was, or it renames an element by a text that was free. -/
theorem run_assignIdentifier_cases (memory : Memory) (address : Address) (text : String) :
    (∃ result, (assignIdentifier address text).run memory = ⟨result, memory, []⟩) ∨
      ∃ element, memory.elements[address]? = some element ∧ memory.owner? text = none ∧
        (assignIdentifier address text).run memory =
          ⟨.ok (), memory.renamed address element.identifier text, []⟩ := by
  rw [run_assignIdentifier]
  split
  · exact .inl ⟨_, rfl⟩
  · next element found free => exact .inr ⟨element, found, free, rfl⟩
  · split
    · exact .inl ⟨_, rfl⟩
    · exact .inl ⟨_, rfl⟩

theorem Sound.assignIdentifier (sound : memory.Sound) (address : Address) (text : String) :
    ((assignIdentifier address text).run memory).state.Sound := by
  rcases run_assignIdentifier_cases memory address text with
    ⟨result, unchanged⟩ | ⟨element, found, free, assigned⟩
  · rw [unchanged]
    exact sound
  · have same := memory.sameGraph_renamed address element.identifier text
    rw [assigned]
    exact
      { linked := sound.linked.of_sameGraph same
        typed := sound.typed.of_sameGraph same
        named := sound.named.renamed found free
        ahead := sound.ahead.of_sameGraph same rfl rfl }

end Memory

end SemanticMemory
