import SemanticMemory.Diagnostics
import SemanticMemory.Proofs.Integrity

/-!
# Every element has a text

The text of an edge is made of the texts of its ends, which may be edges themselves.  Nothing in
the rules for the text stops them from going round in a circle.  In a memory that calls lead to they
come to an end, because an edge is younger than its ends, and they fail for no element that lives.
-/

namespace SemanticMemory

namespace Rendering

section Spells

variable {σ : Type} [TripleStore σ]

/-- The rules for the text of an element, which look at the ends of an edge whatever their addresses
are.  An address spells a result when the rules come to an end with that result. -/
inductive Spells (store : σ) : Address → Except Failure String → Prop where
  | noType {address : Address} {cause : StoreError} :
      TripleStore.elementType store address = .error cause →
      Spells store address (.error (.store cause))
  | noIdentifier {address : Address} {type : ElementType} {cause : StoreError} :
      TripleStore.elementType store address = .ok type →
      (type.isNode || type.isLink) = true →
      TripleStore.identifier store address = .error cause →
      Spells store address (.error (.store cause))
  | leaf {address : Address} {type : ElementType} {identifier : Option String} :
      TripleStore.elementType store address = .ok type →
      (type.isNode || type.isLink) = true →
      TripleStore.identifier store address = .ok identifier →
      Spells store address (.ok (leafText address identifier))
  | noEnds {address : Address} {type : ElementType} {cause : StoreError} :
      TripleStore.elementType store address = .ok type →
      ¬(type.isNode || type.isLink) = true →
      TripleStore.endpoints store address = .error cause →
      Spells store address (.error (.store cause))
  | noSource {address source target : Address} {type : ElementType} {failure : Failure} :
      TripleStore.elementType store address = .ok type →
      ¬(type.isNode || type.isLink) = true →
      TripleStore.endpoints store address = .ok (source, target) →
      Spells store source (.error failure) →
      Spells store address (.error failure)
  | noTarget {address source target : Address} {type : ElementType} {sourceText : String}
      {failure : Failure} :
      TripleStore.elementType store address = .ok type →
      ¬(type.isNode || type.isLink) = true →
      TripleStore.endpoints store address = .ok (source, target) →
      Spells store source (.ok sourceText) →
      Spells store target (.error failure) →
      Spells store address (.error failure)
  | edge {address source target : Address} {type : ElementType}
      {sourceText targetText : String} :
      TripleStore.elementType store address = .ok type →
      ¬(type.isNode || type.isLink) = true →
      TripleStore.endpoints store address = .ok (source, target) →
      Spells store source (.ok sourceText) →
      Spells store target (.ok targetText) →
      Spells store address (.ok (edgeText sourceText targetText))

/-- Every edge comes after its ends. -/
def Ordered (store : σ) : Prop :=
  ∀ ⦃edge source target : Address⦄,
    TripleStore.endpoints store edge = .ok (source, target) → source < edge ∧ target < edge

variable {store : σ}

theorem Spells.elementText_eq (ordered : Ordered store) {address : Address}
    {result : Except Failure String} (spells : Spells store address result) :
    elementText store address = result := by
  induction spells with
  | noType typed =>
      rw [elementText, typed]
  | noIdentifier typed kind identified =>
      rw [elementText, typed]
      simp only [if_pos kind, identified]
  | leaf typed kind identified =>
      rw [elementText, typed]
      simp only [if_pos kind, identified]
  | noEnds typed kind ended =>
      rw [elementText, typed]
      simp only [if_neg kind, ended]
  | noSource typed kind ended _ sourceEq =>
      rw [elementText, typed]
      simp only [if_neg kind, ended, dif_pos (ordered ended), sourceEq]
  | noTarget typed kind ended _ _ sourceEq targetEq =>
      rw [elementText, typed]
      simp only [if_neg kind, ended, dif_pos (ordered ended), sourceEq, targetEq]
  | edge typed kind ended _ _ sourceEq targetEq =>
      rw [elementText, typed]
      simp only [if_neg kind, ended, dif_pos (ordered ended), sourceEq, targetEq]

theorem spells_elementText (ordered : Ordered store) (address : Address) :
    Spells store address (elementText store address) := by
  fun_induction elementText store address with
  | case1 address cause typed => exact .noType typed
  | case2 address type typed kind cause identified => exact .noIdentifier typed kind identified
  | case3 address type typed kind identifier identified => exact .leaf typed kind identified
  | case4 address type typed kind cause ended => exact .noEnds typed kind ended
  | case5 address type typed kind source target ended _ failure sourceEq sourceSpells =>
      rw [sourceEq] at sourceSpells
      exact .noSource typed kind ended sourceSpells
  | case6 address type typed kind source target ended _ sourceText sourceEq failure targetEq
      sourceSpells targetSpells =>
      rw [sourceEq] at sourceSpells
      rw [targetEq] at targetSpells
      exact .noTarget typed kind ended sourceSpells targetSpells
  | case7 address type typed kind source target ended _ sourceText sourceEq targetText targetEq
      sourceSpells targetSpells =>
      rw [sourceEq] at sourceSpells
      rw [targetEq] at targetSpells
      exact .edge typed kind ended sourceSpells targetSpells
  | case8 address type typed kind source target ended unordered =>
      exact absurd (ordered ended) unordered

/-- Where edges come after their ends, the rules come to an end for every address, and the text is
what they lead to. -/
theorem spells_iff (ordered : Ordered store) {address : Address}
    {result : Except Failure String} :
    Spells store address result ↔ elementText store address = result :=
  ⟨Spells.elementText_eq ordered, fun equal => equal ▸ spells_elementText ordered address⟩

theorem label_of_elementText {address : Address} {text : String}
    (spelled : elementText store address = .ok text) : label store address = text := by
  rw [label, spelled]

end Spells

end Rendering

namespace Memory

open Rendering

variable {memory : Memory}

theorem Linked.ordered (linked : memory.Linked) : Ordered memory :=
  fun _ _ _ ended => linked.ends_lt (endpoints_eq_ok_iff.mp ended)

theorem elementText_of_not_isElement {address : Address}
    (missing : memory.isElement address = false) :
    elementText memory address = .error (.store (.elementNotFound address)) := by
  rw [isElement_eq_isSome, Option.isSome_eq_false_iff, Option.isNone_iff_eq_none] at missing
  have noType : TripleStore.elementType memory address = .error (.elementNotFound address) := by
    change (memory.element address).map Element.type = _
    rw [element_eq_error_iff.mpr ⟨missing, rfl⟩]
    rfl
  rw [elementText, noType]

theorem Named.leafText_eq (named : memory.Named) {address : Address} {element : Element}
    (found : memory.elements[address]? = some element) :
    leafText address element.identifier = element.identifier.getD address.text := by
  cases carried : element.identifier with
  | none => rfl
  | some identifier =>
      have nonempty : identifier ≠ "" := by
        rintro rfl
        exact named.identifier_ne_empty found carried
      rw [leafText, if_neg nonempty, Option.getD_some]

theorem Named.elementText_of_leaf (named : memory.Named) {address : Address} {element : Element}
    (found : memory.elements[address]? = some element)
    (kind : (element.type.isNode || element.type.isLink) = true) :
    elementText memory address = .ok (element.identifier.getD address.text) := by
  have typed : TripleStore.elementType memory address = .ok element.type :=
    elementType_eq_ok_iff.mpr ⟨element, found, rfl⟩
  have identified : TripleStore.identifier memory address = .ok element.identifier :=
    identifier_eq_ok_iff.mpr ⟨element, found, rfl⟩
  rw [elementText, typed]
  simp only [if_pos kind, identified, named.leafText_eq found]

theorem Sound.elementText_of_joins (sound : memory.Sound) {edge source target : Address}
    {sourceText targetText : String} (joins : memory.Joins edge source target)
    (sourceEq : elementText memory source = .ok sourceText)
    (targetEq : elementText memory target = .ok targetText) :
    elementText memory edge = .ok (edgeText sourceText targetText) := by
  obtain ⟨element, found, ends⟩ := joins
  have typed : TripleStore.elementType memory edge = .ok element.type :=
    elementType_eq_ok_iff.mpr ⟨element, found, rfl⟩
  have ended : TripleStore.endpoints memory edge = .ok (source, target) :=
    endpoints_eq_ok_iff.mpr ⟨element, found, ends⟩
  have isEdge : element.type.isEdge = true :=
    (sound.typed.isEdge_iff_joins found).mpr ⟨source, target, element, found, ends⟩
  have notLeaf := (sound.typed.isEdge_iff_not_leaf found).mp isEdge
  rw [elementText, typed]
  simp only [if_neg notLeaf, ended, dif_pos (sound.linked.ordered ended), sourceEq, targetEq]

/-- An element has a text because its ends, which are older, have texts. -/
theorem Sound.exists_elementText (sound : memory.Sound) {address : Address}
    (lives : memory.isElement address = true) :
    ∃ text, elementText memory address = .ok text := by
  obtain ⟨element, found⟩ := isElement_iff_exists_element.mp lives
  by_cases leaf : (element.type.isNode || element.type.isLink) = true
  · exact ⟨_, sound.named.elementText_of_leaf found leaf⟩
  · have isEdge := (sound.typed.isEdge_iff_not_leaf found).mpr leaf
    obtain ⟨source, target, joins⟩ := (sound.typed.isEdge_iff_joins found).mp isEdge
    obtain ⟨sourceLives, targetLives⟩ := sound.linked.ends_isElement joins
    have sourceOlder : source.rank < address.rank := (sound.linked.ends_lt joins).1
    have targetOlder : target.rank < address.rank := (sound.linked.ends_lt joins).2
    obtain ⟨sourceText, sourceEq⟩ := sound.exists_elementText sourceLives
    obtain ⟨targetText, targetEq⟩ := sound.exists_elementText targetLives
    exact ⟨_, sound.elementText_of_joins joins sourceEq targetEq⟩
termination_by address.rank

theorem Sound.exists_elementText_iff (sound : memory.Sound) {address : Address} :
    (∃ text, elementText memory address = .ok text) ↔ memory.isElement address = true := by
  constructor
  · rintro ⟨text, spelled⟩
    by_contra missing
    rw [elementText_of_not_isElement (Bool.eq_false_iff.mpr missing)] at spelled
    contradiction
  · exact sound.exists_elementText

theorem label_of_not_isElement {address : Address}
    (missing : memory.isElement address = false) : label memory address = address.text := by
  rw [label, elementText_of_not_isElement missing]

/-- In a memory that calls lead to, no edge is reached from its ends, so the rules for the text of
an element come to an end for every address.  They give a text to whatever lives, and the reports
about an address show that text. -/
theorem Reachable.elementText_total (reachable : Reachable memory) :
    (∀ edge source target, memory.Joins edge source target →
      (source < edge ∧ target < edge) ∧ ¬memory.Cone source edge ∧ ¬memory.Cone target edge) ∧
    (∀ address result, Spells memory address result ↔ elementText memory address = result) ∧
    (∀ address, (∃ text, elementText memory address = .ok text) ↔
      memory.isElement address = true) ∧
    (∀ address, memory.isElement address = false →
      elementText memory address = .error (.store (.elementNotFound address))) ∧
    (∀ address element, memory.elements[address]? = some element →
      (element.type.isNode || element.type.isLink) = true →
      elementText memory address = .ok (element.identifier.getD address.text)) ∧
    (∀ edge source target, memory.Joins edge source target →
      ∃ sourceText targetText, elementText memory source = .ok sourceText ∧
        elementText memory target = .ok targetText ∧
        elementText memory edge = .ok ("(" ++ sourceText ++ "->" ++ targetText ++ ")")) ∧
    ∀ address, ∃ label,
      (∀ text, elementText memory address = .ok text → label = text) ∧
      (memory.isElement address = false → label = address.text) ∧
      ∀ ε : Type,
        (∃ event : Event, event.level = .error ∧ event.fields = [("element", .text label)] ∧
          (Diagnostics.reportUnknownOperatorType address : Action Memory ε Unit).run memory =
            ⟨.ok (), memory, [event]⟩) ∧
        ∀ description, ∃ event : Event,
          event.level = .error ∧ event.fields = [("element", .text label)] ∧
          (Diagnostics.reportError description address : Action Memory ε Unit).run memory =
            ⟨.ok (), memory, [event]⟩ := by
  have sound := reachable.sound
  refine ⟨fun _ _ _ joins => ⟨sound.linked.ends_lt joins, sound.linked.not_cone_of_joins joins⟩,
    fun _ _ => spells_iff sound.linked.ordered,
    fun _ => sound.exists_elementText_iff,
    fun _ missing => elementText_of_not_isElement missing,
    fun _ _ found leaf => sound.named.elementText_of_leaf found leaf, ?_, ?_⟩
  · intro edge source target joins
    obtain ⟨sourceLives, targetLives⟩ := sound.linked.ends_isElement joins
    obtain ⟨sourceText, sourceEq⟩ := sound.exists_elementText sourceLives
    obtain ⟨targetText, targetEq⟩ := sound.exists_elementText targetLives
    exact ⟨sourceText, targetText, sourceEq, targetEq,
      sound.elementText_of_joins joins sourceEq targetEq⟩
  · intro address
    exact ⟨label memory address, fun _ spelled => label_of_elementText spelled,
      label_of_not_isElement, fun _ => ⟨⟨_, rfl, rfl, rfl⟩, fun _ => ⟨_, rfl, rfl, rfl⟩⟩⟩

/-- The loop and what it hangs on, with a name for the node and one for the edge under the loop. -/
def namedLoopOnEdge : Memory :=
  loopOnEdge.after [.assignIdentifier ⟨0, 1⟩ "node", .assignIdentifier ⟨0, 3⟩ "edge"]

theorem elementText_total_at_namedLoopOnEdge :
    Reachable namedLoopOnEdge ∧
      elementText namedLoopOnEdge ⟨0, 4⟩ = .ok "((node->0|2)->(node->0|2))" := by
  have reachable : Reachable namedLoopOnEdge := reachable_loopOnEdge.after _
  obtain ⟨_, _, _, _, ofLeaf, ofEdge, _⟩ := reachable.elementText_total
  have node : elementText namedLoopOnEdge ⟨0, 1⟩ = .ok "node" :=
    ofLeaf _ ⟨.nodeConst, none, [⟨1, 1⟩], [⟨0, 3⟩], some "node"⟩ (by decide) (by decide)
  have link : elementText namedLoopOnEdge ⟨0, 2⟩ = .ok "0|2" :=
    ofLeaf _ ⟨.linkConst, none, [⟨0, 3⟩], [], none⟩ (by decide) (by decide)
  obtain ⟨_, _, nodeText, linkText, inner⟩ := ofEdge ⟨0, 3⟩ ⟨0, 1⟩ ⟨0, 2⟩
    ⟨⟨.membershipArc, some (⟨0, 1⟩, ⟨0, 2⟩), [⟨0, 4⟩], [⟨0, 4⟩, ⟨1, 1⟩], some "edge"⟩,
      by decide, rfl⟩
  rw [node, Except.ok.injEq] at nodeText
  rw [link, Except.ok.injEq] at linkText
  subst nodeText linkText
  obtain ⟨_, _, sourceText, targetText, outer⟩ := ofEdge ⟨0, 4⟩ ⟨0, 3⟩ ⟨0, 3⟩
    ⟨⟨.commonArcConst, some (⟨0, 3⟩, ⟨0, 3⟩), [], [], none⟩, by decide, rfl⟩
  rw [inner, Except.ok.injEq] at sourceText targetText
  subst sourceText targetText
  exact ⟨reachable, outer⟩

end Memory

end SemanticMemory
