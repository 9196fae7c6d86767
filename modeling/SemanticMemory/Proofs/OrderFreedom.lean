import SemanticMemory.Proofs.Clearing
import SemanticMemory.Proofs.Marking
import SemanticMemory.Proofs.Requests

/-!
# The order of answers does not matter

A session over a layer that reverses answers leads to the same memory as the session without the
layer, and it is answered the same.  Lists of edges come back reversed, and a resolver that has
several marked sources to choose from may choose another one.  Under two layers there is nothing to
tell them from none.
-/

namespace SemanticMemory

open TripleStore

namespace Reversed

variable {σ ε α : Type}

def Covers (layer : Reversed σ) (store : σ) : Prop :=
  layer.inner = store

def CoversTwice (layer : Reversed (Reversed σ)) (store : σ) : Prop :=
  layer.inner.inner = store

theorem like_within (action : Action σ ε α) : Action.Like Covers (within action) action := by
  rintro layer _ rfl
  exact ⟨rfl, rfl, rfl⟩

theorem like_within_within (action : Action σ ε α) :
    Action.Like CoversTwice (within (within action)) action := by
  rintro layer _ rfl
  exact ⟨rfl, rfl, rfl⟩

variable [TripleStore σ]

/-- A layer behaves like the store under it, as long as no edges are listed. -/
theorem akin_covers : Akin (Covers : Reversed σ → σ → Prop) where
  elements layer _ covers := by
    cases covers
    exact
      { isElement_eq := fun _ => rfl
        elementType_eq := fun _ => rfl
        endpoints_eq := fun _ => rfl
        identifier_eq := fun _ => rfl
        owner?_eq := fun _ => rfl
        hasEdge_eq := hasEdge_reversed layer }
  createNode _ := like_within _
  createLink := like_within _
  createEdge _ _ _ := like_within _
  erase _ := like_within _
  assignIdentifier _ _ := like_within _

theorem run_eraseEdges {triples : List Triple} {store : σ} {reply : Reply σ Failure Bool}
    (erased : (Membership.eraseEdges triples).run store = reply) :
    (Membership.eraseEdges triples).run (Reversed.mk store) =
      ⟨reply.result, ⟨reply.state⟩, reply.events⟩ := by
  obtain ⟨⟨reached⟩, replied, covers⟩ :=
    (erased ▸ akin_covers.eraseEdges triples (rfl : Covers ⟨store⟩ store)).exists_eq
  obtain rfl : reached = reply.state := covers
  exact replied

/-- Two layers behave like the store under them. -/
theorem alike_coversTwice : Alike (CoversTwice : Reversed (Reversed σ) → σ → Prop) where
  elements layer _ covers := by
    cases covers
    exact
      { isElement_eq := fun _ => rfl
        elementType_eq := fun _ => rfl
        endpoints_eq := fun _ => rfl
        identifier_eq := fun _ => rfl
        owner?_eq := fun _ => rfl
        hasEdge_eq := fun source target type =>
          (hasEdge_reversed layer source target type).trans
            (hasEdge_reversed layer.inner source target type) }
  createNode _ := like_within_within _
  createLink := like_within_within _
  createEdge _ _ _ := like_within_within _
  erase _ := like_within_within _
  assignIdentifier _ _ := like_within_within _
  matching_eq layer _ covers pattern := by
    cases covers
    exact matching_reversed_twice layer pattern

theorem like_clear_twice [Layered σ] :
    Action.Like CoversTwice (Step.action (σ := Reversed (Reversed σ)) .clear)
      (Step.action (σ := σ) .clear) := by
  rintro layer _ rfl
  exact ⟨rfl, rfl, rfl⟩

end Reversed

/-- How the answer to a step over a layer that reverses answers agrees with the answer without the
layer.  A resolver is only held to it when the element has one marked source at most. -/
def Step.Agrees (memory : Memory) :
    (step : Step) → Except Failure step.Value → Except Failure step.Value → Prop
  | .ask (.matching _), plain, reversed => reversed = plain.map List.reverse
  | .ask (.resolveOrderRole catalog edge), plain, reversed =>
      memory.OneMarked catalog.orderRoleRelation edge → reversed = plain
  | .ask (.resolveOperatorType catalog operator), plain, reversed =>
      memory.OneMarked catalog.operatorAtomicType operator → reversed = plain
  | _, plain, reversed => reversed = plain

namespace Memory

variable {memory : Memory}

/-- Taking a member out of a set erases its arcs in one order or the other, and it comes to the
same. -/
theorem Sound.remove_reversed (sound : memory.Sound) (set element : Address) :
    ∃ removed, (Membership.remove set element).Succeeds memory removed
        (memory.after (erasures (memory.scan (Membership.arcs set element)))) ∧
      (Membership.remove set element).Succeeds (Reversed.mk memory) removed
        ⟨memory.after (erasures (memory.scan (Membership.arcs set element)))⟩ := by
  have linked := sound.linked
  refine ⟨_, linked.succeeds_remove set element, ?_⟩
  generalize listed_eq : memory.scan (Membership.arcs set element) = listed
  have answered := linked.matching_reversed (Membership.arcs set element)
  rw [listed_eq] at answered
  have erased := memory.succeeds_eraseEdges listed.reverse
  have live : ∀ triple ∈ listed.reverse, memory.isElement triple.edge = true := by
    intro triple member
    rw [List.mem_reverse, ← listed_eq] at member
    exact isElement_of_mem_scan member
  have sameState : memory.after (erasures listed.reverse) = memory.after (erasures listed) := by
    rw [erasures_eq, erasures_eq, List.map_reverse]
    exact sound.after_erase_congr fun _ => List.mem_reverse
  rw [any_erasureAnswers live, List.isEmpty_reverse, sameState] at erased
  obtain ⟨events, erased⟩ := erased
  exact Membership.succeeds_remove answered ⟨events, Reversed.run_eraseEdges erased⟩

theorem Linked.result_resolve_reversed (linked : memory.Linked) {marker element : Address}
    (one : memory.OneMarked marker element) (report : Address → Event) :
    ((Marker.resolve marker element report).run (Reversed.mk memory)).result =
      ((Marker.resolve marker element report).run memory).result := by
  rw [Marker.result_resolve, Marker.result_resolve, linked.markedSource_reversed one]

theorem Linked.result_matching_reversed (linked : memory.Linked) (pattern : Pattern) :
    ((Request.matching pattern).action.run (Reversed.mk memory)).result =
      ((Request.matching pattern).action.run memory).result.map List.reverse := by
  change (TripleStore.matching (Reversed.mk memory) pattern).mapError _ =
    ((memory.matching pattern).mapError _).map _
  rw [linked.matching_reversed, linked.matching_eq_scan]
  rfl

theorem state_reversed_of_isQuestion (memory : Memory) (request : Request)
    (question : request.IsQuestion) :
    (request.action.run (Reversed.mk memory)).state = ⟨(request.action.run memory).state⟩ := by
  rw [Request.state_of_isQuestion question, Request.state_of_isQuestion question]

/-- A request over the layer leaves what it leaves without the layer, and the answers agree. -/
theorem Sound.request_reversed (sound : memory.Sound) (request : Request) :
    (request.action.run (Reversed.mk memory)).state = ⟨(request.action.run memory).state⟩ ∧
      ((∀ address sink, request ≠ .writeNeighborhood address sink) →
        Step.Agrees memory (.ask request) (request.action.run memory).result
          (request.action.run (Reversed.mk memory)).result) := by
  have linked := sound.linked
  by_cases listless : ¬request.ListsEdges
  · obtain ⟨result_eq, _, left⟩ :=
      (Reversed.akin_covers (σ := Memory)).request listless (rfl : Reversed.Covers ⟨memory⟩ memory)
    refine ⟨Reversed.ext left, fun _ => ?_⟩
    cases request with
    | matching | resolveOrderRole | resolveOperatorType => exact absurd trivial listless
    | _ => exact result_eq
  by_cases question : request.IsQuestion
  · refine ⟨state_reversed_of_isQuestion memory request question, fun notWritten => ?_⟩
    cases request with
    | matching pattern => exact linked.result_matching_reversed pattern
    | resolveOrderRole | resolveOperatorType =>
        exact fun one => linked.result_resolve_reversed one _
    | writeNeighborhood address sink => exact absurd rfl (notWritten address sink)
    | removeMember => exact question.elim
    | _ => exact absurd id listless
  · cases request with
    | removeMember set element =>
        obtain ⟨removed, ⟨_, plain⟩, _, reversed⟩ := sound.remove_reversed set element
        refine ⟨?_, fun _ => ?_⟩
        · exact (congrArg Reply.state reversed).trans
            (congrArg (fun reply => Reversed.mk (Reply.state reply)) plain).symm
        · exact (congrArg Reply.result reversed).trans (congrArg Reply.result plain).symm
    | matching | resolveOrderRole | resolveOperatorType | writeNeighborhood =>
        exact absurd trivial question
    | _ => exact absurd id listless

/-- A step over the layer leaves what it leaves without the layer, and the answers agree. -/
theorem Sound.step_reversed (sound : memory.Sound) (step : Step) :
    (step.action.run (Reversed.mk memory)).state = ⟨(step.action.run memory).state⟩ ∧
      ((∀ address sink, step ≠ .ask (.writeNeighborhood address sink)) →
        step.Agrees memory (step.action.run memory).result
          (step.action.run (Reversed.mk memory)).result) := by
  have akin : Akin (Reversed.Covers : Reversed Memory → Memory → Prop) := Reversed.akin_covers
  have covers : Reversed.Covers (Reversed.mk memory) memory := rfl
  cases step with
  | ask request =>
      obtain ⟨left, agrees⟩ := sound.request_reversed request
      exact ⟨left, fun notWritten => agrees fun address sink same =>
        notWritten address sink (congrArg Step.ask same)⟩
  | reportUnknownOperatorType operator =>
      obtain ⟨result_eq, _, left⟩ := akin.report .operatorTypeUnknown operator covers
      exact ⟨Reversed.ext left, fun _ => result_eq⟩
  | reportError description address =>
      obtain ⟨result_eq, _, left⟩ := akin.report (.interpreterError description) address covers
      exact ⟨Reversed.ext left, fun _ => result_eq⟩
  | clear => exact ⟨rfl, fun _ => rfl⟩

/-- A session over the layer leads to the memory that it leads to without the layer. -/
theorem Reachable.after_reversed (reachable : Reachable memory) (steps : List Step) :
    Session.after (Reversed.mk memory) steps = ⟨Session.after memory steps⟩ := by
  induction steps generalizing memory with
  | nil => rfl
  | cons step steps ih =>
      rw [Session.after_cons, Session.after_cons, (reachable.sound.step_reversed step).1]
      exact ih (reachable.session [step])

/-- From a memory that calls lead to, a session over one layer that reverses answers leads to the
same memory as without the layer and its answers agree; over two layers it leads to the same memory
and has the same answers and reports. -/
theorem Reachable.order_unnoticed (reachable : Reachable memory) (steps : List Step) :
    ((Session.after (Reversed.mk memory) steps).inner = Session.after memory steps ∧
      ∀ step : Step, (∀ address sink, step ≠ .ask (.writeNeighborhood address sink)) →
        step.Agrees (Session.after memory steps) (Session.answer memory steps step)
          (Session.answer (Reversed.mk memory) steps step)) ∧
    (Session.after (Reversed.mk (Reversed.mk memory)) steps).inner.inner =
        Session.after memory steps ∧
      ∀ step : Step,
        Session.answer (Reversed.mk (Reversed.mk memory)) steps step =
          Session.answer memory steps step ∧
        Session.reports (Reversed.mk (Reversed.mk memory)) steps step =
          Session.reports memory steps step := by
  have after_eq := reachable.after_reversed steps
  have alike : Alike (Reversed.CoversTwice : _ → Memory → Prop) := Reversed.alike_coversTwice
  have covers : Reversed.CoversTwice (Reversed.mk (Reversed.mk memory)) memory := rfl
  refine ⟨⟨congrArg Reversed.inner after_eq, ?_⟩, ?_, ?_⟩
  · intro step notWritten
    have agrees := ((reachable.session steps).sound.step_reversed step).2 notWritten
    rwa [← after_eq] at agrees
  · exact alike.after Reversed.like_clear_twice covers steps
  · exact alike.reply_after Reversed.like_clear_twice covers steps

/-- A second arc joins a set and its member; the layer lists the two the other way round, and they
are erased in that order, but what is left is the same. -/
theorem order_unnoticed_at_loopOnEdge :
    let joined : List Step := [.ask (.createEdge .membershipArc ⟨0, 1⟩ ⟨0, 2⟩)]
    let parted : List Step := joined ++ [.ask (.removeMember ⟨0, 1⟩ ⟨0, 2⟩)]
    let listing : Step := .ask (.matching (Membership.arcs ⟨0, 1⟩ ⟨0, 2⟩))
    Reachable loopOnEdge ∧
      Session.answer loopOnEdge joined listing =
        .ok [⟨⟨0, 1⟩, ⟨0, 3⟩, ⟨0, 2⟩⟩, ⟨⟨0, 1⟩, ⟨1, 2⟩, ⟨0, 2⟩⟩] ∧
      Session.answer (Reversed.mk loopOnEdge) joined listing =
        .ok [⟨⟨0, 1⟩, ⟨1, 2⟩, ⟨0, 2⟩⟩, ⟨⟨0, 1⟩, ⟨0, 3⟩, ⟨0, 2⟩⟩] ∧
      (Session.after (Reversed.mk loopOnEdge) parted).inner = Session.after loopOnEdge parted := by
  intro joined parted listing
  have plain : Session.answer loopOnEdge joined listing =
      .ok [⟨⟨0, 1⟩, ⟨0, 3⟩, ⟨0, 2⟩⟩, ⟨⟨0, 1⟩, ⟨1, 2⟩, ⟨0, 2⟩⟩] := by rfl
  have agrees := (reachable_loopOnEdge.order_unnoticed joined).1.2 listing (by simp [listing])
  have reversed : Session.answer (Reversed.mk loopOnEdge) joined listing =
      (Session.answer loopOnEdge joined listing).map List.reverse := agrees
  rw [plain] at reversed
  exact ⟨reachable_loopOnEdge, plain, reversed, (reachable_loopOnEdge.order_unnoticed parted).1.1⟩

end Memory

end SemanticMemory
