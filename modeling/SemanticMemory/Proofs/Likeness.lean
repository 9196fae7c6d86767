import SemanticMemory.Session

/-!
# Stores that behave alike

Two stores of different kinds cannot be told apart when they give the same answers and every change
takes them to stores that cannot be told apart either.  It is enough to show this for the operations
of a store: whatever is built from the operations then has the same results and reports the same
events.
-/

namespace SemanticMemory

variable {σ τ ε δ α β : Type}

/-- Two replies that agree in everything but the state, and leave related states. -/
structure Reply.Like (related : σ → τ → Prop) (reply : Reply σ ε α) (other : Reply τ ε α) :
    Prop where
  result_eq : reply.result = other.result
  events_eq : reply.events = other.events
  related_state : related reply.state other.state

namespace Reply.Like

variable {related middle : σ → τ → Prop} {state : σ} {otherState : τ}

/-- A reply that agrees with a known one is known up to the state. -/
theorem exists_eq {reply : Reply σ ε α} {result : Except ε α} {events : List Event}
    (like : reply.Like related ⟨result, otherState, events⟩) :
    ∃ state, reply = ⟨result, state, events⟩ ∧ related state otherState := by
  rcases reply with ⟨_, state, _⟩
  obtain ⟨rfl, rfl, left⟩ := like
  exact ⟨state, rfl, left⟩

theorem mapError {action : Action σ ε α} {other : Action τ ε α}
    (like : (action.run state).Like related (other.run otherState)) (wording : ε → δ) :
    ((action.mapError wording).run state).Like related
      ((other.mapError wording).run otherState) := by
  obtain ⟨result_eq, events_eq, left⟩ := like
  exact ⟨congrArg (Except.mapError wording) result_eq, events_eq, left⟩

/-- Two actions that agree on their first part and on what follows it agree.  After the first part
the states may be related more closely than in the end. -/
theorem bind {first : Action σ ε β} {otherFirst : Action τ ε β} {next : β → Action σ ε α}
    {otherNext : β → Action τ ε α}
    (like : (first.run state).Like middle (otherFirst.run otherState))
    (closer : ∀ ⦃reached otherReached⦄, middle reached otherReached → related reached otherReached)
    (likeNext : ∀ value ⦃reached otherReached⦄, middle reached otherReached →
      ((next value).run reached).Like related ((otherNext value).run otherReached)) :
    ((first >>= next).run state).Like related ((otherFirst >>= otherNext).run otherState) := by
  obtain ⟨result_eq, events_eq, reachedSame⟩ := like
  rcases opening : first.run state with ⟨result, reached, events⟩
  rcases otherOpening : otherFirst.run otherState with ⟨otherResult, otherReached, otherEvents⟩
  rw [opening, otherOpening] at result_eq events_eq reachedSame
  cases result_eq
  cases events_eq
  cases result with
  | error error =>
      rw [Action.run_bind_of_error opening, Action.run_bind_of_error otherOpening]
      exact ⟨rfl, rfl, closer reachedSame⟩
  | ok value =>
      rw [Action.run_bind_of_ok opening, Action.run_bind_of_ok otherOpening]
      obtain ⟨laterResult, laterEvents, left⟩ := likeNext value reachedSame
      exact ⟨laterResult, congrArg _ laterEvents, left⟩

end Reply.Like

namespace Action

/-- From related states the two actions give replies that agree, and leave related states. -/
def Like (related : σ → τ → Prop) (action : Action σ ε α) (other : Action τ ε α) : Prop :=
  ∀ ⦃state : σ⦄ ⦃otherState : τ⦄, related state otherState →
    (action.run state).Like related (other.run otherState)

variable {related : σ → τ → Prop}

theorem like_pure (value : α) :
    Like related (pure value : Action σ ε α) (pure value : Action τ ε α) :=
  fun _ _ same => ⟨rfl, rfl, same⟩

theorem like_fail (error : ε) :
    Like related (fail error : Action σ ε α) (fail error : Action τ ε α) :=
  fun _ _ same => ⟨rfl, rfl, same⟩

theorem like_emit (event : Event) :
    Like related (emit event : Action σ ε Unit) (emit event : Action τ ε Unit) :=
  fun _ _ same => ⟨rfl, rfl, same⟩

theorem like_query {question : σ → Except ε α} {otherQuestion : τ → Except ε α}
    (agrees : ∀ ⦃state otherState⦄, related state otherState →
      question state = otherQuestion otherState) :
    Like related (query question) (query otherQuestion) :=
  fun _ _ same => ⟨agrees same, rfl, same⟩

theorem like_view {question : σ → α} {otherQuestion : τ → α}
    (agrees : ∀ ⦃state otherState⦄, related state otherState →
      question state = otherQuestion otherState) :
    Like related (view question : Action σ ε α) (view otherQuestion : Action τ ε α) :=
  fun _ _ same => ⟨congrArg _ (agrees same), rfl, same⟩

theorem Like.mapError {action : Action σ ε α} {other : Action τ ε α}
    (like : Like related action other) (wording : ε → δ) :
    Like related (action.mapError wording) (other.mapError wording) :=
  fun _ _ same => Reply.Like.mapError (like same) wording

theorem Like.bind {first : Action σ ε β} {otherFirst : Action τ ε β} {next : β → Action σ ε α}
    {otherNext : β → Action τ ε α} (like : Like related first otherFirst)
    (likeNext : ∀ value, Like related (next value) (otherNext value)) :
    Like related (first >>= next) (otherFirst >>= otherNext) :=
  fun _ _ same =>
    Reply.Like.bind (like same) (fun _ _ => id) fun value _ _ reached => likeNext value reached

end Action

namespace TripleStore

variable [TripleStore σ] [TripleStore τ]

/-- Two stores give the same answers to every question but those that list edges. -/
structure SameElements (store : σ) (other : τ) : Prop where
  isElement_eq (address : Address) : isElement store address = isElement other address
  elementType_eq (address : Address) : elementType store address = elementType other address
  endpoints_eq (address : Address) : endpoints store address = endpoints other address
  identifier_eq (address : Address) : identifier store address = identifier other address
  owner?_eq (name : String) : owner? store name = owner? other name
  hasEdge_eq (source target : Address) (type : ElementType) :
    hasEdge store source target type = hasEdge other source target type

/-- Two stores give the same answers, lists of edges included. -/
structure SameAnswers (store : σ) (other : τ) : Prop extends SameElements store other where
  matching_eq (pattern : Pattern) : matching store pattern = matching other pattern

theorem SameAnswers.refl (store : σ) : SameAnswers store store := by
  constructor
  · constructor <;> intros <;> rfl
  · exact fun _ => rfl

end TripleStore

open TripleStore

variable [TripleStore σ] [TripleStore τ] {store : σ} {other : τ}

namespace Marker

theorem firstMarked_congr
    (sameEdges : ∀ source target type,
      hasEdge store source target type = hasEdge other source target type)
    (marker : Address) (triples : List Triple) :
    firstMarked store marker triples = firstMarked other marker triples := by
  induction triples with
  | nil => rfl
  | cons triple triples ih => rw [firstMarked, firstMarked, sameEdges, ih]

theorem markedSource_congr (same : SameAnswers store other) (marker element : Address) :
    markedSource store marker element = markedSource other marker element := by
  simp only [markedSource, same.matching_eq, firstMarked_congr same.hasEdge_eq]

end Marker

namespace Catalog

theorem locateAll_congr (sameOwners : ∀ name, owner? store name = owner? other name)
    (identifiers : List String) :
    locateAll store identifiers = locateAll other identifiers := by
  induction identifiers with
  | nil => rfl
  | cons identifier identifiers ih => rw [locateAll, locateAll, locate, locate, sameOwners, ih]

theorem lookUp_congr (sameOwners : ∀ name, owner? store name = owner? other name)
    (names : CatalogNames) : lookUp store names = lookUp other names := by
  have same := locateAll_congr sameOwners names.orderRoles
  unfold lookUp
  -- The two sides name their roles apart, so each case is compared with each.
  split
  · rfl
  · split
    · next failure located =>
        split
        · next foundOther => rw [located, foundOther] at same; cases same; rfl
        · next foundOther => rw [located, foundOther] at same; cases same
    · next roles located =>
        split
        · next foundOther => rw [located, foundOther] at same; cases same
        · next foundOther =>
            rw [located, foundOther] at same
            cases same
            simp only [locate, sameOwners]

end Catalog

namespace Rendering

theorem elementText_congr (same : SameElements store other) (address : Address) :
    elementText store address = elementText other address := by
  fun_induction elementText store address with
  | case1 address cause typed => rw [elementText, ← same.elementType_eq, typed]
  | case2 address type typed kind cause identified =>
      rw [elementText, ← same.elementType_eq, typed]
      simp only [if_pos kind, ← same.identifier_eq, identified]
  | case3 address type typed kind identifier identified =>
      rw [elementText, ← same.elementType_eq, typed]
      simp only [if_pos kind, ← same.identifier_eq, identified]
  | case4 address type typed kind cause ended =>
      rw [elementText, ← same.elementType_eq, typed]
      simp only [if_neg kind, ← same.endpoints_eq, ended]
  | case5 address type typed kind source target ended older failure sourceEq sourceSame =>
      rw [elementText, ← same.elementType_eq, typed]
      simp only [if_neg kind, ← same.endpoints_eq, ended, dif_pos older, ← sourceSame, sourceEq]
  | case6 address type typed kind source target ended older sourceText sourceEq failure targetEq
      sourceSame targetSame =>
      rw [elementText, ← same.elementType_eq, typed]
      simp only [if_neg kind, ← same.endpoints_eq, ended, dif_pos older, ← sourceSame, sourceEq,
        ← targetSame, targetEq]
  | case7 address type typed kind source target ended older sourceText sourceEq targetText targetEq
      sourceSame targetSame =>
      rw [elementText, ← same.elementType_eq, typed]
      simp only [if_neg kind, ← same.endpoints_eq, ended, dif_pos older, ← sourceSame, sourceEq,
        ← targetSame, targetEq]
  | case8 address type typed kind source target ended younger =>
      rw [elementText, ← same.elementType_eq, typed]
      simp only [if_neg kind, ← same.endpoints_eq, ended, dif_neg younger]

theorem label_congr (same : SameElements store other) (address : Address) :
    label store address = label other address := by
  rw [label, label, elementText_congr same]

end Rendering

namespace Neighborhood

theorem edgeLine_congr (same : SameElements store other) (side : Side) (triple : Triple) :
    edgeLine store side triple = edgeLine other side triple := by
  simp only [edgeLine, same.elementType_eq, Rendering.elementText_congr same]

theorem writeEdges_congr (same : SameElements store other) (side : Side)
    (triples : List Triple) : writeEdges store side triples = writeEdges other side triples := by
  induction triples with
  | nil => rfl
  | cons triple triples ih => rw [writeEdges, writeEdges, edgeLine_congr same, ih]

theorem writeSide_congr (same : SameAnswers store other) (address : Address) (side : Side) :
    writeSide store address side = writeSide other address side := by
  simp only [writeSide, same.matching_eq, writeEdges_congr same.toSameElements]

theorem write_congr (same : SameAnswers store other) (address : Address) :
    write store address = write other address := by
  simp only [write, same.isElement_eq, Rendering.elementText_congr same.toSameElements,
    writeSide_congr same]

end Neighborhood

/-- Whether a request goes through the edges that answer a pattern, in the order of the store. -/
def Request.ListsEdges : Request → Prop
  | matching _ | removeMember _ _ | resolveOrderRole _ _ | resolveOperatorType _ _ => True
  | writeNeighborhood _ _ => True
  | _ => False

section Questions

variable {related : σ → τ → Prop}

omit [TripleStore σ] [TripleStore τ] in
theorem TripleStore.like_ask {question : σ → Except StoreError α}
    {otherQuestion : τ → Except StoreError α}
    (agrees : ∀ ⦃store : σ⦄ ⦃other : τ⦄, related store other →
      question store = otherQuestion other) :
    Action.Like related (ask question) (ask otherQuestion) :=
  Action.like_query fun _ _ same => congrArg _ (agrees same)

/-- Stores that agree on single elements answer alike what needs no list of edges. -/
theorem Request.like_of_not_listsEdges
    (elements : ∀ ⦃store : σ⦄ ⦃other : τ⦄, related store other → SameElements store other)
    {request : Request} (question : request.IsQuestion) (listless : ¬request.ListsEdges) :
    Action.Like related request.action request.action := by
  cases request with
  | isElement address => exact Action.like_view fun _ _ same => (elements same).isElement_eq address
  | elementType address => exact like_ask fun _ _ same => (elements same).elementType_eq address
  | endpoints address => exact like_ask fun _ _ same => (elements same).endpoints_eq address
  | hasEdge source target type =>
      exact like_ask fun _ _ same => (elements same).hasEdge_eq source target type
  | identifier address => exact like_ask fun _ _ same => (elements same).identifier_eq address
  | owner name => exact Action.like_view fun _ _ same => (elements same).owner?_eq name
  | resolveCatalog names =>
      refine Action.Like.bind (Action.like_query fun _ _ same => ?_) fun _ =>
        (Action.like_emit _).bind fun _ => Action.like_pure _
      exact Catalog.lookUp_congr (elements same).owner?_eq names
  | elementText address =>
      exact Action.like_query fun _ _ same => Rendering.elementText_congr (elements same) address
  | matching | resolveOrderRole | resolveOperatorType | writeNeighborhood =>
      exact absurd trivial listless
  | createNode | createLink | createEdge | erase | assignIdentifier | addMember | removeMember =>
      exact question.elim

variable (answers : ∀ ⦃store : σ⦄ ⦃other : τ⦄, related store other → SameAnswers store other)

include answers

theorem Marker.like_resolve (marker element : Address) (report : Address → Event) :
    Action.Like related (resolve marker element report) (resolve marker element report) := by
  refine Action.Like.bind
    (like_ask fun _ _ same => markedSource_congr (answers same) marker element) fun source => ?_
  cases source with
  | none => exact Action.like_pure _
  | some source => exact (Action.like_emit _).bind fun _ => Action.like_pure _

/-- Where stores give the same answers, so they do to requests that are made of questions. -/
theorem Request.like_of_isQuestion {request : Request} (question : request.IsQuestion) :
    Action.Like related request.action request.action := by
  by_cases listless : ¬request.ListsEdges
  · exact like_of_not_listsEdges (fun _ _ same => (answers same).toSameElements) question listless
  cases request with
  | matching pattern => exact like_ask fun _ _ same => (answers same).matching_eq pattern
  | resolveOrderRole catalog edge => exact Marker.like_resolve answers _ _ _
  | resolveOperatorType catalog operator => exact Marker.like_resolve answers _ _ _
  | writeNeighborhood address sink =>
      refine Action.like_view fun _ _ same => ?_
      rw [Neighborhood.write_congr (answers same)]
  | removeMember => exact question.elim
  | _ => exact absurd id listless

end Questions

/-- A request that is made of questions changes nothing. -/
theorem Request.state_of_isQuestion {request : Request} (question : request.IsQuestion)
    (store : σ) : (request.action.run store).state = store := by
  have unchanged : ∀ ⦃first second : σ⦄, first = store ∧ second = store →
      SameAnswers first second := by
    rintro _ _ ⟨rfl, rfl⟩
    exact .refl _
  exact (like_of_isQuestion unchanged question ⟨rfl, rfl⟩).related_state.1

namespace TripleStore

/-- Stores that behave alike as long as no edges are listed: related stores agree on single
elements, and every change gives the same reply and leaves related stores. -/
structure Akin (related : σ → τ → Prop) : Prop where
  elements ⦃store : σ⦄ ⦃other : τ⦄ : related store other → SameElements store other
  createNode (type : ElementType) :
    Action.Like related (TripleStore.createNode type) (TripleStore.createNode type)
  createLink : Action.Like related TripleStore.createLink TripleStore.createLink
  createEdge (type : ElementType) (source target : Address) :
    Action.Like related (TripleStore.createEdge type source target)
      (TripleStore.createEdge type source target)
  erase (address : Address) :
    Action.Like related (TripleStore.erase address) (TripleStore.erase address)
  assignIdentifier (address : Address) (name : String) :
    Action.Like related (TripleStore.assignIdentifier address name)
      (TripleStore.assignIdentifier address name)

/-- Stores that behave alike, and list edges in the same order. -/
structure Alike (related : σ → τ → Prop) : Prop extends Akin related where
  matching_eq ⦃store : σ⦄ ⦃other : τ⦄ (same : related store other) (pattern : Pattern) :
    matching store pattern = matching other pattern

variable {related : σ → τ → Prop}

namespace Akin

theorem addMember (akin : Akin related) (set element : Address) :
    Action.Like related (Membership.add set element) (Membership.add set element) := by
  refine Action.Like.bind (like_ask fun _ _ same =>
    (akin.elements same).hasEdge_eq set element .membershipArc) fun isMember => ?_
  cases isMember with
  | true => exact Action.like_pure _
  | false =>
      exact ((akin.createEdge _ _ _).mapError _).bind fun _ =>
        (Action.like_emit _).bind fun _ => Action.like_pure _

theorem eraseEdges (akin : Akin related) (triples : List Triple) :
    Action.Like related (Membership.eraseEdges triples) (Membership.eraseEdges triples) := by
  induction triples with
  | nil => exact Action.like_pure _
  | cons triple triples ih =>
      exact ((akin.erase _).mapError _).bind fun _ => ih.bind fun _ => Action.like_pure _

theorem request (akin : Akin related) {request : Request} (listless : ¬request.ListsEdges) :
    Action.Like related request.action request.action := by
  by_cases question : request.IsQuestion
  · exact Request.like_of_not_listsEdges akin.elements question listless
  cases request with
  | createNode type => exact (akin.createNode type).mapError _
  | createLink => exact akin.createLink.mapError _
  | createEdge type source target => exact (akin.createEdge type source target).mapError _
  | erase address => exact (akin.erase address).mapError _
  | assignIdentifier address name => exact (akin.assignIdentifier address name).mapError _
  | addMember set element => exact akin.addMember set element
  | removeMember => exact absurd trivial listless
  | _ => exact absurd trivial question

theorem report (akin : Akin related) (event : String → Event) (address : Address) :
    Action.Like related
      (Action.view (Rendering.label · address) >>= fun label => Action.emit (event label) :
        Action σ ε Unit)
      (Action.view (Rendering.label · address) >>= fun label => Action.emit (event label)) :=
  Action.Like.bind
    (Action.like_view fun _ _ same => Rendering.label_congr (akin.elements same) address)
    fun _ => Action.like_emit _

end Akin

namespace Alike

theorem answers (alike : Alike related) (same : related store other) : SameAnswers store other :=
  ⟨alike.elements same, alike.matching_eq same⟩

theorem removeMember (alike : Alike related) (set element : Address) :
    Action.Like related (Membership.remove set element) (Membership.remove set element) := by
  refine Action.Like.bind
    (like_ask fun _ _ same => alike.matching_eq same (Membership.arcs set element))
    fun triples => ?_
  refine (alike.eraseEdges triples).bind fun removed => ?_
  cases removed with
  | true => exact (Action.like_emit _).bind fun _ => Action.like_pure _
  | false => exact (Action.like_pure ()).bind fun _ => Action.like_pure _

theorem request (alike : Alike related) (request : Request) :
    Action.Like related request.action request.action := by
  by_cases question : request.IsQuestion
  · exact Request.like_of_isQuestion (fun _ _ => alike.answers) question
  cases request with
  | removeMember set element => exact alike.removeMember set element
  | createNode | createLink | createEdge | erase | assignIdentifier | addMember =>
      exact alike.toAkin.request id
  | _ => exact absurd trivial question

section Session

variable [Layered σ] [Layered τ] (alike : Alike related)
  (cleared : Action.Like related (Step.action (σ := σ) .clear) (Step.action (σ := τ) .clear))

include alike cleared

theorem step (step : Step) : Action.Like related step.action step.action := by
  cases step with
  | ask request => exact alike.request request
  | reportUnknownOperatorType operator => exact alike.report _ operator
  | reportError description address => exact alike.report _ address
  | clear => exact cleared

theorem after (same : related store other) (steps : List Step) :
    related (Session.after store steps) (Session.after other steps) := by
  induction steps generalizing store other with
  | nil => exact same
  | cons step steps ih => exact ih (alike.step cleared step same).related_state

/-- No session tells related stores apart. -/
theorem reply_after (same : related store other) (steps : List Step) (step : Step) :
    Session.answer store steps step = Session.answer other steps step ∧
      Session.reports store steps step = Session.reports other steps step := by
  have reply := alike.step cleared step (alike.after cleared same steps)
  exact ⟨reply.result_eq, reply.events_eq⟩

end Session

end Alike

end TripleStore

end SemanticMemory
