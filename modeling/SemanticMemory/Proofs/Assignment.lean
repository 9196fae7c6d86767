import SemanticMemory.Proofs.Ownership
import SemanticMemory.Proofs.Permanence

/-!
# What an assignment changes

An identifier can be given to whatever lives, unless another element carries it.  The element then
carries it in place of the one that it carried, and nothing else is different: no other element, no
other identifier, no edge.  Giving it once more does nothing.
-/

namespace SemanticMemory

namespace Memory

variable {memory left : Memory} {address other : Address} {element : Element} {text : String}

/-- What is left when the element at an address is given a text. -/
structure Assigns (memory left : Memory) (address : Address) (text : String) : Prop where
  identifier_eq : left.identifier address = .ok (if text = "" then none else some text)
  owner?_text : text ≠ "" → left.owner? text = some address
  owner?_previous {previous : String} : memory.identifier address = .ok (some previous) →
    previous ≠ text → left.owner? previous = none
  owner?_other {word : String} : word ≠ text ∨ text = "" →
    memory.identifier address ≠ .ok (some word) ∨ word = text →
    left.owner? word = memory.owner? word
  identifier_other {other : Address} : other ≠ address →
    left.identifier other = memory.identifier other
  isElement_eq (other : Address) : left.isElement other = memory.isElement other
  elementType_eq (other : Address) : left.elementType other = memory.elementType other
  endpoints_eq (other : Address) : left.endpoints other = memory.endpoints other
  matching_eq (pattern : Pattern) : left.matching pattern = memory.matching pattern
  again : (assignIdentifier address text).run left = ⟨.ok (), left, []⟩

theorem identifier_renamed (found : memory.elements[address]? = some element)
    (other : Address) :
    (memory.renamed address element.identifier text).identifier other =
      if address = other then .ok (carried text) else memory.identifier other := by
  unfold identifier Memory.element
  rw [getElem?_renamed]
  by_cases same : address = other
  · rw [if_pos same, if_pos same, ← same, found]
    rfl
  · rw [if_neg same, if_neg same]

/-- An element that carries no identifier loses none by the empty text. -/
theorem renamed_empty_eq_self (found : memory.elements[address]? = some element)
    (nameless : element.identifier = none) : memory.renamed address none "" = memory := by
  have unchanged : element.withIdentifier (carried "") = element := by
    rw [carried, if_pos rfl, ← nameless]
    rfl
  ext1
  case limits => rfl
  case cursor => rfl
  case elements =>
    ext1 other
    rw [getElem?_renamed]
    split
    · next same => rw [← same, found, Option.map_some, unchanged]
    · rfl
  case identifiers => rfl

/-- What an assignment can come to. -/
inductive Assignment (memory : Memory) (address : Address) (text : String) :
    Reply Memory StoreError Unit → Prop where
  | missing : memory.isElement address = false →
      Assignment memory address text ⟨.error (.elementNotFound address), memory, []⟩
  | taken {owner : Address} : memory.isElement address = true →
      memory.owner? text = some owner → owner ≠ address →
      Assignment memory address text ⟨.error (.identifierInUse text owner), memory, []⟩
  | kept : memory.isElement address = true → memory.owner? text = some address →
      Assignment memory address text ⟨.ok (), memory, []⟩
  | renamed {element : Element} : memory.elements[address]? = some element →
      memory.owner? text = none →
      Assignment memory address text
        ⟨.ok (), memory.renamed address element.identifier text, []⟩

theorem assignment (memory : Memory) (address : Address) (text : String) :
    memory.Assignment address text ((assignIdentifier address text).run memory) := by
  rw [run_assignIdentifier]
  cases found : memory.elements[address]? with
  | none => exact .missing (by rw [isElement_eq_isSome, found]; rfl)
  | some element =>
      have lives := isElement_iff_exists_element.mpr ⟨element, found⟩
      cases owned : memory.owner? text with
      | none => exact .renamed found owned
      | some owner =>
          dsimp only
          split
          · next same => exact .kept lives (same ▸ owned)
          · next distinct => exact .taken lives owned distinct

/-- The owner of a text is given it to no effect. -/
theorem Named.run_assignIdentifier_of_owner? (named : memory.Named)
    (owned : memory.owner? text = some address) :
    (assignIdentifier address text).run memory = ⟨.ok (), memory, []⟩ := by
  obtain ⟨element, found⟩ := isElement_iff_exists_element.mp (named.isElement_of_owner? owned)
  rw [run_assignIdentifier, found, owned]
  exact if_pos rfl

theorem Named.assigns_self (named : memory.Named) (owned : memory.owner? text = some address) :
    memory.Assigns memory address text := by
  have carries := named.owner?_eq_some_iff.mp owned
  constructor
  case identifier_eq => rw [if_neg (named.ne_empty carries), carries]
  case owner?_text => exact fun _ => owned
  case owner?_previous =>
    intro previous carriesPrevious distinct
    rw [carries] at carriesPrevious
    cases carriesPrevious
    exact absurd rfl distinct
  case owner?_other => exact fun _ _ => rfl
  case identifier_other => exact fun _ => rfl
  case isElement_eq | elementType_eq | endpoints_eq | matching_eq => exact fun _ => rfl
  case again => exact named.run_assignIdentifier_of_owner? owned

theorem Sound.assigns_renamed (sound : memory.Sound)
    (found : memory.elements[address]? = some element) (free : memory.owner? text = none) :
    memory.Assigns (memory.renamed address element.identifier text) address text := by
  have same := memory.sameGraph_renamed address element.identifier text
  have named := sound.named.renamed found free
  have carries : memory.identifier address = .ok element.identifier :=
    identifier_eq_ok_iff.mpr ⟨element, found, rfl⟩
  have owner?_text (filled : text ≠ "") :
      (memory.renamed address element.identifier text).owner? text = some address := by
    rw [owner?_renamed, if_pos (carried_eq_some_iff.mpr ⟨rfl, filled⟩)]
  constructor
  case identifier_eq => exact (identifier_renamed found address).trans (if_pos rfl)
  case owner?_text => exact owner?_text
  case owner?_previous =>
    intro previous carriesPrevious distinct
    rw [carries, Except.ok.injEq] at carriesPrevious
    rw [owner?_renamed, if_neg (fun new => distinct (carried_eq_some_iff.mp new).1.symm),
      if_pos carriesPrevious]
  case owner?_other =>
    intro word notNew notPrevious
    have notCarried : carried text ≠ some word := by
      rintro isNew
      obtain ⟨rfl, filled⟩ := carried_eq_some_iff.mp isNew
      exact notNew.elim (absurd rfl) filled
    rw [owner?_renamed, if_neg notCarried]
    split
    · next isPrevious =>
        -- The text was free, so the element did not carry it before.
        obtain rfl := notPrevious.resolve_left (absurd (carries.trans (congrArg _ isPrevious)))
        exact free.symm
    · rfl
  case identifier_other =>
    intro other distinct
    rw [identifier_renamed found, if_neg (Ne.symm distinct)]
  case isElement_eq => exact same.isElement_eq
  case elementType_eq => exact fun other => elementType_eq_of_outline?_eq (same.outline?_eq other)
  case endpoints_eq => exact fun other => endpoints_eq_of_outline?_eq (same.outline?_eq other)
  case matching_eq =>
    intro pattern
    rw [(sound.linked.of_sameGraph same).matching_eq_scan, sound.linked.matching_eq_scan,
      same.scan_eq]
  case again =>
    by_cases filled : text = ""
    · subst filled
      have foundAfter : (memory.renamed address element.identifier "").elements[address]? =
          some (element.withIdentifier none) := by
        rw [getElem?_renamed, if_pos rfl, found]
        rfl
      rw [run_assignIdentifier, foundAfter, named.owner_empty]
      exact congrArg (Reply.mk _ · _) (renamed_empty_eq_self foundAfter rfl)
    · exact named.run_assignIdentifier_of_owner? (owner?_text filled)

/-- An assignment is refused where nothing lives, and for the identifier of another element. -/
theorem Named.assignIdentifier_refused_iff (named : memory.Named) (address : Address)
    (text : String) :
    (((assignIdentifier address text).run memory).result = .error (.elementNotFound address) ↔
        memory.isElement address = false) ∧
      (memory.isElement address = true →
        (∀ owner, ((assignIdentifier address text).run memory).result =
            .error (.identifierInUse text owner) ↔
          owner ≠ address ∧ memory.isElement owner = true ∧
            memory.identifier owner = .ok (some text)) ∧
        (((assignIdentifier address text).run memory).result = .ok () ↔
          ∀ owner, owner ≠ address → memory.identifier owner ≠ .ok (some text))) := by
  have carriers (other : Address) :
      memory.identifier other = .ok (some text) ↔ memory.owner? text = some other :=
    named.owner?_eq_some_iff.symm
  simp only [ne_eq, carriers]
  have outcome := memory.assignment address text
  generalize (assignIdentifier address text).run memory = reply at outcome ⊢
  cases outcome with
  | missing missing => simp [missing]
  | taken lives owned distinct =>
      have ownerLives := named.isElement_of_owner? owned
      refine ⟨by simp [lives], fun _ => ⟨fun other => ?_, ?_⟩⟩
      · rw [owned, Option.some.injEq, Except.error.injEq, StoreError.identifierInUse.injEq]
        constructor
        · rintro ⟨_, rfl⟩
          exact ⟨distinct, ownerLives, rfl⟩
        · exact fun refused => ⟨rfl, refused.2.2⟩
      · exact iff_of_false nofun fun none => none _ distinct owned
  | kept lives owned =>
      refine ⟨by simp [lives], fun _ => ⟨fun other => ?_, ?_⟩⟩
      · refine iff_of_false nofun fun refused => refused.1 ?_
        exact Option.some.inj (refused.2.2.symm.trans owned)
      · exact iff_of_true rfl fun other distinct ownedOther =>
          distinct (Option.some.inj (ownedOther.symm.trans owned))
  | renamed found free =>
      simp [isElement_iff_exists_element.mpr ⟨_, found⟩, free]

theorem state_assignIdentifier_of_error {error : StoreError}
    (refused : ((assignIdentifier address text).run memory).result = .error error) :
    ((assignIdentifier address text).run memory).state = memory := by
  have outcome := memory.assignment address text
  generalize (assignIdentifier address text).run memory = reply at refused outcome ⊢
  cases outcome with
  | missing | taken | kept => rfl
  | renamed => cases refused

theorem Sound.assigns (sound : memory.Sound)
    (assigned : ((Memory.assignIdentifier address text).run memory).result = .ok ()) :
    memory.Assigns ((Memory.assignIdentifier address text).run memory).state address text := by
  have outcome := memory.assignment address text
  generalize (Memory.assignIdentifier address text).run memory = reply at assigned outcome ⊢
  cases outcome with
  | missing | taken => cases assigned
  | kept _ owned => exact sound.named.assigns_self owned
  | renamed found free => exact sound.assigns_renamed found free

/-- In a memory that calls lead to, an assignment is refused where nothing lives and for the
identifier of another element, and it is then as if it had not been tried.  Any other assignment
changes what it is for and nothing else. -/
theorem Reachable.identifier_assigned (reachable : Reachable memory) (address : Address)
    (text : String) :
    let reply := (assignIdentifier address text).run memory
    ((reply.result = .error (.elementNotFound address) ↔ memory.isElement address = false) ∧
      (memory.isElement address = true →
        (∀ owner, reply.result = .error (.identifierInUse text owner) ↔
          owner ≠ address ∧ memory.isElement owner = true ∧
            memory.identifier owner = .ok (some text)) ∧
        (reply.result = .ok () ↔
          ∀ owner, owner ≠ address → memory.identifier owner ≠ .ok (some text)))) ∧
    (∀ error, reply.result = .error error → reply.state = memory) ∧
    (reply.result = .ok () → memory.Assigns reply.state address text) :=
  ⟨reachable.sound.named.assignIdentifier_refused_iff address text,
    fun _ => state_assignIdentifier_of_error, reachable.sound.assigns⟩

/-- The named edge takes another name, which then is refused to the node, and its own is free. -/
theorem identifier_assigned_at_loopOnNamedEdge :
    Reachable loopOnNamedEdge ∧
      ((assignIdentifier ⟨0, 9⟩ "arc").run loopOnNamedEdge).result =
        .error (.elementNotFound ⟨0, 9⟩) ∧
      ((assignIdentifier ⟨0, 1⟩ "edge").run loopOnNamedEdge).result =
        .error (.identifierInUse "edge" ⟨0, 3⟩) ∧
      loopOnNamedEdge.Assigns ((assignIdentifier ⟨0, 3⟩ "arc").run loopOnNamedEdge).state ⟨0, 3⟩
        "arc" := by
  have reachable : Reachable loopOnNamedEdge := reachable_loopOnEdge.after _
  have carries : loopOnNamedEdge.identifier ⟨0, 3⟩ = .ok (some "edge") := by decide
  have renamed : ((assignIdentifier ⟨0, 3⟩ "arc").run loopOnNamedEdge).result = .ok () := by decide
  obtain ⟨⟨missing_iff, _⟩, _⟩ := reachable.identifier_assigned ⟨0, 9⟩ "arc"
  obtain ⟨⟨_, inUse⟩, _⟩ := reachable.identifier_assigned ⟨0, 1⟩ "edge"
  obtain ⟨_, _, assigns⟩ := reachable.identifier_assigned ⟨0, 3⟩ "arc"
  exact ⟨reachable, missing_iff.mpr (by decide),
    ((inUse (by decide)).1 ⟨0, 3⟩).mpr ⟨by decide, by decide, carries⟩, assigns renamed⟩

end Memory

end SemanticMemory
