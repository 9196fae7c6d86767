import SemanticMemory.Proofs.Additions
import SemanticMemory.Proofs.Assignment
import SemanticMemory.Proofs.Erasure

/-!
# What the text of an element depends on

The cone of an element holds what the element is built from, through any number of edges.  An
erasure reaches the element exactly when it starts in the cone.  As long as nothing of the cone is
erased and no node or link of it is named anew, the element lives and its text stays the same,
whatever else happens.
-/

namespace SemanticMemory

open TripleStore

namespace Memory

variable {memory start next : Memory} {top address : Address}

theorem joins_iff_outline? {edge source target : Address} :
    memory.Joins edge source target ↔
      ∃ type, memory.outline? edge = some (type, some (source, target)) := by
  simp only [Joins, outline?, Option.map_eq_some_iff, Prod.mk.injEq]
  constructor
  · rintro ⟨element, found, ends⟩
    exact ⟨element.type, element, found, rfl, ends⟩
  · rintro ⟨type, element, found, _, ends⟩
    exact ⟨element, found, ends⟩

theorem typeAt?_eq_map_outline? (memory : Memory) (address : Address) :
    memory.typeAt? address = (memory.outline? address).map Prod.fst := by
  rw [typeAt?, outline?, Option.map_map]
  rfl

theorem isLeaf_of_elementType {type : ElementType}
    (typed : memory.elementType address = .ok type)
    (kind : (type.isNode || type.isLink) = true) : memory.IsLeaf address := by
  obtain ⟨element, found, rfl⟩ := elementType_eq_ok_iff.mp typed
  exact ⟨_, typeAt?_eq_some_iff.mpr ⟨element, found, rfl⟩, kind⟩

/-- An erasure takes an element away exactly when it starts with something that the element is
built from. -/
theorem Sound.isElement_erase_iff (sound : memory.Sound) {root : Address}
    (rootLives : memory.isElement root = true) (lives : memory.isElement top = true) :
    ((Memory.erase root).run memory).state.isElement top = false ↔ memory.Cone top root := by
  obtain ⟨gone, members, _, erased⟩ :=
    run_erase_of_isElement sound.linked sound.named rootLives
  rw [erased, ← cascade_iff_cone, ← members, ← Bool.not_eq_true, isElement_without]
  simp [lives]

/-- The memory still has what the top was built from at the start: every element of the cone, and
the identifiers of the nodes and links among them. -/
structure Retains (start memory : Memory) (top : Address) : Prop where
  sound : memory.Sound
  outline?_eq {address : Address} : start.Cone top address →
    memory.outline? address = start.outline? address
  identifier_eq {address : Address} : start.Cone top address → start.IsLeaf address →
    memory.identifier address = start.identifier address

theorem Sound.retains (sound : start.Sound) (top : Address) : start.Retains start top where
  sound := sound
  outline?_eq _ := rfl
  identifier_eq _ _ := rfl

namespace Retains

variable (retains : start.Retains memory top)

include retains

theorem isElement_eq (inCone : start.Cone top address) :
    memory.isElement address = start.isElement address := by
  rw [isElement_eq_isSome_outline?, isElement_eq_isSome_outline?, retains.outline?_eq inCone]

theorem joins_iff {edge source target : Address} (inCone : start.Cone top edge) :
    memory.Joins edge source target ↔ start.Joins edge source target := by
  rw [joins_iff_outline?, joins_iff_outline?, retains.outline?_eq inCone]

/-- What an element of the cone is built from now, it was built from at the start. -/
theorem cone_of_cone (inCone : start.Cone top address) {lower : Address}
    (cone : memory.Cone address lower) : start.Cone top lower := by
  induction cone with
  | top => exact inCone
  | toSource joins _ ih => exact .toSource ((retains.joins_iff ih).mp joins) ih
  | toTarget joins _ ih => exact .toTarget ((retains.joins_iff ih).mp joins) ih

/-- The rules for a text look at nothing outside the cone. -/
theorem spells {result : Except Failure String} (spells : Rendering.Spells start address result)
    (inCone : start.Cone top address) : Rendering.Spells memory address result := by
  have typeOf {address : Address} (inCone : start.Cone top address) :
      TripleStore.elementType memory address = TripleStore.elementType start address :=
    elementType_eq_of_outline?_eq (retains.outline?_eq inCone)
  have endsOf {address : Address} (inCone : start.Cone top address) :
      TripleStore.endpoints memory address = TripleStore.endpoints start address :=
    endpoints_eq_of_outline?_eq (retains.outline?_eq inCone)
  have nameOf {address : Address} {type : ElementType} (inCone : start.Cone top address)
      (typed : TripleStore.elementType start address = .ok type)
      (kind : (type.isNode || type.isLink) = true) :
      TripleStore.identifier memory address = TripleStore.identifier start address :=
    retains.identifier_eq inCone (isLeaf_of_elementType typed kind)
  have toEnds {edge source target : Address} (inCone : start.Cone top edge)
      (ended : TripleStore.endpoints start edge = .ok (source, target)) :
      start.Cone top source ∧ start.Cone top target := by
    have joins := endpoints_eq_ok_iff.mp ended
    exact ⟨.toSource joins inCone, .toTarget joins inCone⟩
  induction spells with
  | noType typed => exact .noType ((typeOf inCone).trans typed)
  | noIdentifier typed kind identified =>
      exact .noIdentifier ((typeOf inCone).trans typed) kind
        ((nameOf inCone typed kind).trans identified)
  | leaf typed kind identified =>
      exact .leaf ((typeOf inCone).trans typed) kind ((nameOf inCone typed kind).trans identified)
  | noEnds typed kind ended =>
      exact .noEnds ((typeOf inCone).trans typed) kind ((endsOf inCone).trans ended)
  | noSource typed kind ended _ ofSource =>
      exact .noSource ((typeOf inCone).trans typed) kind ((endsOf inCone).trans ended)
        (ofSource (toEnds inCone ended).1)
  | noTarget typed kind ended _ _ ofSource ofTarget =>
      exact .noTarget ((typeOf inCone).trans typed) kind ((endsOf inCone).trans ended)
        (ofSource (toEnds inCone ended).1) (ofTarget (toEnds inCone ended).2)
  | edge typed kind ended _ _ ofSource ofTarget =>
      exact .edge ((typeOf inCone).trans typed) kind ((endsOf inCone).trans ended)
        (ofSource (toEnds inCone ended).1) (ofTarget (toEnds inCone ended).2)

theorem elementText_eq (sound : start.Sound) :
    Rendering.elementText memory top = Rendering.elementText start top :=
  (retains.spells (Rendering.spells_elementText sound.linked.ordered top) .top).elementText_eq
    retains.sound.linked.ordered

end Retains

end Memory

/-- A call leaves alone what the top is built from: it erases nothing of the cone and names no node
or link of it.  It may name the edges of the cone. -/
def Call.SparesCone (start : Memory) (top : Address) : Call → Prop
  | erase address => ¬start.Cone top address
  | assignIdentifier address _ => start.Cone top address → ¬start.IsLeaf address
  | clear => False
  | _ => True

/-- A request leaves alone what the top is built from.  Taking a member out of a set erases the arcs
to it. -/
def Request.SparesCone (start : Memory) (top : Address) : Request → Prop
  | erase address => ¬start.Cone top address
  | assignIdentifier address _ => start.Cone top address → ¬start.IsLeaf address
  | removeMember set element => ∀ arc, start.IsMemberArc arc set element → ¬start.Cone top arc
  | _ => True

def Step.SparesCone (start : Memory) (top : Address) : Step → Prop
  | ask request => request.SparesCone start top
  | clear => False
  | _ => True

namespace Memory

variable {memory start : Memory} {top : Address}

namespace Retains

variable (inUse : ∀ address, start.Cone top address → start.isElement address = true)

include inUse

/-- Whatever a call does that spares the cone, it does outside of the cone or to the identifier of
an edge. -/
theorem apply (retains : start.Retains memory top) (call : Call)
    (spares : call.SparesCone start top) : start.Retains (call.apply memory) top := by
  have sound := retains.sound.apply call
  have effect := retains.sound.effect call
  generalize call.apply memory = next at sound effect ⊢
  cases effect with
  | unchanged => exact retains
  | moved => exact ⟨sound, retains.outline?_eq, retains.identifier_eq⟩
  | @extended _ place _ _ fits =>
      have distinct {address : Address} (inCone : start.Cone top address) : address ≠ place :=
        (retains.sound.spent ((retains.isElement_eq inCone).trans (inUse address inCone))).ne_place
          fits.settled
      refine ⟨sound, fun inCone => ?_, fun inCone leaf => ?_⟩
      · exact (outline?_extended (distinct inCone)).trans (retains.outline?_eq inCone)
      · exact ((retains.sound.adds_extended fits).identifier_eq (distinct inCone)).trans
          (retains.identifier_eq inCone leaf)
  | @erased _ gone _ members =>
      have kept {address : Address} (inCone : start.Cone top address) : address ∉ gone :=
        fun isGone => spares
          (retains.cone_of_cone inCone (cascade_iff_cone.mp ((members address).mp isGone)))
      refine ⟨sound, fun inCone => ?_, fun inCone leaf => ?_⟩
      · rw [outline?_without, if_neg (kept inCone), retains.outline?_eq inCone]
      · rw [identifier_without (kept inCone), retains.identifier_eq inCone leaf]
  | renamed found =>
      refine ⟨sound, fun inCone => ?_, fun inCone leaf => ?_⟩
      · rw [(memory.sameGraph_renamed _ _ _).outline?_eq, retains.outline?_eq inCone]
      · rw [identifier_renamed found, if_neg (by rintro rfl; exact spares inCone leaf),
          retains.identifier_eq inCone leaf]
  | cleared => exact spares.elim

theorem after (retains : start.Retains memory top) {calls : List Call}
    (spares : ∀ call ∈ calls, call.SparesCone start top) :
    start.Retains (memory.after calls) top := by
  induction calls generalizing memory with
  | nil => exact retains
  | cons call calls ih =>
      rw [List.forall_mem_cons] at spares
      exact ih (retains.apply inUse call spares.1) spares.2

/-- A membership arc of the cone is the arc that it was at the start, so the arcs to a member that
is taken out lie outside of the cone. -/
theorem removeMember (retains : start.Retains memory top) {set element : Address}
    (spares : ∀ arc, start.IsMemberArc arc set element → ¬start.Cone top arc) :
    start.Retains ((Membership.remove set element).run memory).state top := by
  obtain ⟨events, removed⟩ := retains.sound.linked.succeeds_remove set element
  rw [removed]
  refine retains.after inUse fun call member => ?_
  obtain ⟨triple, listed, rfl⟩ := List.mem_map.mp member
  intro inCone
  obtain ⟨joins, ⟨type, typed, carries⟩, fromSet, toElement⟩ := mem_scan_iff_joins.mp listed
  obtain ⟨atSet, _⟩ := fits_fixed_iff.mp fromSet
  obtain ⟨atElement, _⟩ := fits_fixed_iff.mp toElement
  rw [← atSet, ← atElement, retains.joins_iff inCone] at joins
  refine spares triple.edge ⟨joins, type, ?_, carries⟩ inCone
  rw [← typed, typeAt?_eq_map_outline?, typeAt?_eq_map_outline?, retains.outline?_eq inCone]

theorem request (retains : start.Retains memory top) {request : Request}
    (spares : request.SparesCone start top) :
    start.Retains (request.action.run memory).state top := by
  by_cases question : request.IsQuestion
  · rw [Request.state_of_isQuestion question]
    exact retains
  cases request with
  | createNode type => exact retains.apply inUse (.createNode type) trivial
  | createLink => exact retains.apply inUse .createLink trivial
  | createEdge type source target =>
      exact retains.apply inUse (.createEdge type source target) trivial
  | erase address => exact retains.apply inUse (.erase address) spares
  | assignIdentifier address text =>
      exact retains.apply inUse (.assignIdentifier address text) spares
  | addMember set element =>
      change start.Retains ((Membership.add set element).run memory).state top
      rcases retains.sound.linked.state_add_cases set element with unchanged | made
      · exact unchanged.symm ▸ retains
      · rw [made]
        exact retains.apply inUse (.createEdge .membershipArc set element) trivial
  | removeMember set element => exact retains.removeMember inUse spares
  | _ => exact absurd trivial question

theorem session (retains : start.Retains memory top) {steps : List Step}
    (spares : ∀ step ∈ steps, step.SparesCone start top) :
    start.Retains (Session.after memory steps) top := by
  induction steps generalizing memory with
  | nil => exact retains
  | cons step steps ih =>
      rw [List.forall_mem_cons] at spares
      cases step with
      | ask request => exact ih (retains.request inUse spares.1) spares.2
      | reportUnknownOperatorType | reportError => exact ih retains spares.2
      | clear => exact spares.1.elim

end Retains

theorem Linked.isElement_of_cone (linked : memory.Linked) {address : Address}
    (lives : memory.isElement top = true) (cone : memory.Cone top address) :
    memory.isElement address = true := by
  cases cone with
  | top => exact lives
  | toSource joins => exact (linked.ends_isElement joins).1
  | toTarget joins => exact (linked.ends_isElement joins).2

/-- In a memory that calls lead to, an erasure takes an element away exactly when it starts with
something that the element is built from.  In a session that erases nothing of this and names no
node or link of it, the element lives and its text stays the same. -/
theorem Reachable.text_of_cone (reachable : Reachable memory)
    (lives : memory.isElement top = true) :
    (∀ root, memory.isElement root = true →
      (((erase root).run memory).state.isElement top = false ↔ memory.Cone top root)) ∧
    ∃ text, Rendering.elementText memory top = .ok text ∧
      ∀ steps : List Step, (∀ step ∈ steps, step.SparesCone memory top) →
        (Session.after memory steps).isElement top = true ∧
          Rendering.elementText (Session.after memory steps) top = .ok text := by
  have sound := reachable.sound
  refine ⟨fun root rootLives => sound.isElement_erase_iff rootLives lives, ?_⟩
  obtain ⟨text, spelled⟩ := sound.exists_elementText lives
  refine ⟨text, spelled, fun steps spares => ?_⟩
  have retains := (sound.retains top).session
    (fun _ inCone => sound.linked.isElement_of_cone lives inCone) spares
  exact ⟨(retains.isElement_eq .top).trans lives, (retains.elementText_eq sound).trans spelled⟩

/-- The loop goes with the node at the bottom of it.  It keeps its text while the edge that it hangs
on is named anew and the other edge there goes. -/
theorem text_of_cone_at_namedLoopOnEdge :
    Reachable namedLoopOnEdge ∧ namedLoopOnEdge.isElement ⟨0, 4⟩ = true ∧
      ((erase ⟨0, 1⟩).run namedLoopOnEdge).state.isElement ⟨0, 4⟩ = false ∧
      Rendering.elementText (Session.after namedLoopOnEdge
        [.ask (.assignIdentifier ⟨0, 3⟩ "arc"), .ask (.erase ⟨1, 1⟩), .ask .createLink]) ⟨0, 4⟩ =
          .ok "((node->0|2)->(node->0|2))" := by
  have reachable : Reachable namedLoopOnEdge := reachable_loopOnEdge.after _
  have lives : namedLoopOnEdge.isElement ⟨0, 4⟩ = true := by decide
  have outer : namedLoopOnEdge.Joins ⟨0, 4⟩ ⟨0, 3⟩ ⟨0, 3⟩ := joins_iff.mpr (by decide)
  have inner : namedLoopOnEdge.Joins ⟨0, 3⟩ ⟨0, 1⟩ ⟨0, 2⟩ := joins_iff.mpr (by decide)
  have bottom : namedLoopOnEdge.Cone ⟨0, 4⟩ ⟨0, 1⟩ := .toSource inner (.toSource outer .top)
  have notLeaf : ¬namedLoopOnEdge.IsLeaf ⟨0, 3⟩ := fun leaf =>
    reachable.sound.typed.not_joins_of_isLeaf leaf _ _ inner
  have outside : ¬namedLoopOnEdge.Cone ⟨0, 4⟩ ⟨1, 1⟩ := fun cone =>
    absurd (reachable.sound.linked.le_of_cone cone) (by decide)
  obtain ⟨erased_iff, text, spelled, kept⟩ := reachable.text_of_cone lives
  have spelling : Rendering.elementText namedLoopOnEdge ⟨0, 4⟩ =
      .ok "((node->0|2)->(node->0|2))" := by cbv
  rw [spelling, Except.ok.injEq] at spelled
  subst spelled
  refine ⟨reachable, lives, (erased_iff ⟨0, 1⟩ (by decide)).mpr bottom, (kept _ ?_).2⟩
  simp only [List.forall_mem_cons, List.not_mem_nil, false_implies, implies_true, and_true]
  exact ⟨fun _ => notLeaf, outside, trivial⟩

end Memory

end SemanticMemory
