import SemanticMemory.Layer.Faulty
import SemanticMemory.Proofs.Requests

/-!
# Refused requests

A request that fails changes nothing that anyone can ask for.  It may still move the cursor, but
only when no address is left: then no address is left under the new cursor either, and from there on
no session tells the two memories apart.
-/

namespace SemanticMemory

open TripleStore

theorem Address.segment_le_of_le {first second : Address} (ordered : first ≤ second) :
    first.segment ≤ second.segment := by
  have offsetBound := second.offset.toNat_lt
  rw [Address.le_iff, Address.rank, Address.rank] at ordered
  rw [UInt16.le_iff_toNat_le]
  omega

/-- When no address is left, then none is left under the cursor where the search for one ended. -/
theorem Limits.allocate_of_refused {limits : Limits} {cursor moved : Address} {error : StoreError}
    (refused : limits.allocate cursor = (.error error, moved)) :
    error = .capacityExceeded ∧ (limits.allocate moved).1 = .error .capacityExceeded := by
  unfold allocate at refused
  split at refused
  · next settled =>
      cases refused
      exact ⟨rfl, by simp only [allocate, settled]⟩
  · next place settled =>
      split at refused
      · cases refused
      · next noRoom =>
          cases refused
          refine ⟨rfl, ?_⟩
          unfold allocate
          split
          · rfl
          · next later settledLater =>
              have segment_le := Address.segment_le_of_le (le_of_settle settledLater)
              rw [if_neg fun room => noRoom (UInt16.lt_of_le_of_lt segment_le room)]

namespace Memory

variable {memory other left : Memory} {α ε : Type}

/-- Whether no address is left for another element. -/
def IsFull (memory : Memory) : Prop :=
  (memory.limits.allocate memory.cursor).1 = .error .capacityExceeded

instance (memory : Memory) : Decidable memory.IsFull :=
  inferInstanceAs (Decidable (_ = _))

/-- Two memories hold the same elements and identifiers, within the same limits. -/
structure SameContents (memory other : Memory) : Prop where
  limits_eq : other.limits = memory.limits
  elements_eq : other.elements = memory.elements
  identifiers_eq : other.identifiers = memory.identifiers

theorem SameContents.sameAnswers (same : memory.SameContents other) : SameAnswers memory other := by
  have other_eq : other = { memory with cursor := other.cursor } :=
    Memory.ext same.limits_eq same.elements_eq same.identifiers_eq rfl
  rw [other_eq]
  constructor
  · constructor <;> intros <;> rfl
  · exact fun _ => rfl

/-- Two memories that differ in nothing but the cursor, and in the cursor only when both are
full. -/
inductive Twins (memory : Memory) : Memory → Prop where
  | same : Twins memory memory
  | full {cursor : Address} (full : memory.IsFull) (stillFull : IsFull { memory with cursor }) :
      Twins memory { memory with cursor }

theorem Twins.sameContents (twins : memory.Twins other) : memory.SameContents other := by
  cases twins with
  | same => exact ⟨rfl, rfl, rfl⟩
  | full => exact ⟨rfl, rfl, rfl⟩

/-- The action neither looks at the cursor nor moves it. -/
def IgnoresCursor (action : Action Memory ε α) : Prop :=
  ∀ (memory : Memory) (cursor : Address),
    (action.run memory).state.limits = memory.limits ∧
      action.run { memory with cursor } =
        ⟨(action.run memory).result, { (action.run memory).state with cursor },
          (action.run memory).events⟩

theorem IgnoresCursor.cursor_eq {action : Action Memory ε α} (ignores : IgnoresCursor action)
    (memory : Memory) : (action.run memory).state.cursor = memory.cursor :=
  congrArg (fun reply => reply.state.cursor) (ignores memory memory.cursor).2

theorem IgnoresCursor.like {action : Action Memory ε α} (ignores : IgnoresCursor action) :
    Action.Like Twins action action := by
  rintro memory _ (_ | ⟨full, stillFull⟩)
  · exact ⟨rfl, rfl, .same⟩
  · next cursor =>
      obtain ⟨limits_eq, moved⟩ := ignores memory cursor
      have cursor_eq := ignores.cursor_eq memory
      rw [moved]
      refine ⟨rfl, rfl, .full ?_ ?_⟩
      · rwa [IsFull, limits_eq, cursor_eq]
      · change (Limits.allocate (action.run memory).state.limits cursor).1 = _
        rwa [limits_eq]

theorem eraseAll_withCursor (memory : Memory) (pending : List Address) (cursor : Address) :
    (memory.eraseAll pending).1.limits = memory.limits ∧
      eraseAll { memory with cursor } pending =
        ({ (memory.eraseAll pending).1 with cursor }, (memory.eraseAll pending).2) := by
  induction memory, pending using eraseAll.induct with
  | case1 memory => simp only [eraseAll_nil, and_self]
  | case2 memory address pending missing ih =>
      rwa [eraseAll_cons_of_missing missing,
        @eraseAll_cons_of_missing { memory with cursor } _ missing]
  | case3 memory address pending element found ih =>
      rw [eraseAll_cons_of_found found,
        @eraseAll_cons_of_found { memory with cursor } _ _ found]
      exact ⟨ih.1, congrArg (fun later => (later.1, later.2 + 1)) ih.2⟩

theorem ignoresCursor_erase (address : Address) : IgnoresCursor (erase address) := by
  intro memory cursor
  obtain ⟨limits_eq, erased⟩ := eraseAll_withCursor memory [address] cursor
  have lives_eq : isElement { memory with cursor } address = memory.isElement address := rfl
  simp only [erase, Action.run, lives_eq, erased]
  split
  · exact ⟨limits_eq, rfl⟩
  · exact ⟨rfl, rfl⟩

theorem ignoresCursor_assignIdentifier (address : Address) (text : String) :
    IgnoresCursor (assignIdentifier address text) := by
  intro memory cursor
  simp only [run_assignIdentifier]
  have owner_eq : owner? { memory with cursor } text = memory.owner? text := rfl
  rw [owner_eq]
  split
  · exact ⟨rfl, rfl⟩
  · exact ⟨rfl, rfl⟩
  · split
    · exact ⟨rfl, rfl⟩
    · exact ⟨rfl, rfl⟩

theorem IsFull.run_insert (full : memory.IsFull) (type : ElementType)
    (ends : Option (Address × Address)) :
    (insert type ends).run memory =
      ⟨.error .capacityExceeded,
        { memory with cursor := (memory.limits.allocate memory.cursor).2 }, []⟩ := by
  rcases taken : memory.limits.allocate memory.cursor with ⟨result, cursor⟩
  rw [IsFull, taken] at full
  cases full
  simp only [insert, Action.run, taken]

/-- No cursor is left where a creation is refused that would make room for another one. -/
theorem IsFull.moved (full : memory.IsFull) :
    IsFull { memory with cursor := (memory.limits.allocate memory.cursor).2 } := by
  rcases taken : memory.limits.allocate memory.cursor with ⟨result, cursor⟩
  rw [IsFull, taken] at full
  cases full
  exact (Limits.allocate_of_refused taken).2

theorem like_insert (type : ElementType) (ends : Option (Address × Address)) :
    Action.Like Twins (insert type ends) (insert type ends) := by
  rintro memory _ (_ | ⟨full, fullToo⟩)
  · exact ⟨rfl, rfl, .same⟩
  · rw [full.run_insert, fullToo.run_insert]
    exact ⟨rfl, rfl, .full full.moved fullToo.moved⟩

theorem like_createNode (type : ElementType) :
    Action.Like Twins (createNode type) (createNode type) := by
  unfold createNode
  split
  · exact like_insert type none
  · exact Action.like_fail _

theorem like_createEdge (type : ElementType) (source target : Address) :
    Action.Like Twins (createEdge type source target) (createEdge type source target) := by
  unfold createEdge
  split
  · refine (Action.like_query fun _ _ twins => ?_).bind fun _ =>
      (Action.like_query fun _ _ twins => ?_).bind fun _ => like_insert _ _
    · rw [element, element, twins.sameContents.elements_eq]
    · rw [element, element, twins.sameContents.elements_eq]
  · exact Action.like_fail _

/-- Twins behave alike. -/
theorem alike_twins : Alike Twins where
  elements _ _ twins := twins.sameContents.sameAnswers.toSameElements
  matching_eq _ _ twins := twins.sameContents.sameAnswers.matching_eq
  createNode := like_createNode
  createLink := like_insert _ _
  createEdge := like_createEdge
  erase address := (ignoresCursor_erase address).like
  assignIdentifier address text := (ignoresCursor_assignIdentifier address text).like

theorem like_clear : Action.Like Twins (Step.action (σ := Memory) .clear) (Step.action .clear) := by
  intro memory other twins
  have cleared : other.clear = memory.clear := congrArg empty twins.sameContents.limits_eq
  refine ⟨rfl, rfl, ?_⟩
  change Twins memory.clear other.clear
  rw [cleared]
  exact .same

/-- A creation that is refused leaves a twin, and it is refused for lack of room. -/
theorem insert_refused {type : ElementType} {ends : Option (Address × Address)}
    {error : StoreError} {events : List Event}
    (refused : (insert type ends).run memory = ⟨.error error, left, events⟩) :
    error = .capacityExceeded ∧ memory.Twins left := by
  rcases taken : memory.limits.allocate memory.cursor with ⟨_ | place, cursor⟩
  · obtain ⟨rfl, stillFull⟩ := Limits.allocate_of_refused taken
    simp only [insert, Action.run, taken] at refused
    cases refused
    exact ⟨rfl, .full (congrArg Prod.fst taken) stillFull⟩
  · simp only [insert, Action.run, taken] at refused
    cases refused

theorem createNode_refused {type : ElementType} {error : StoreError} {events : List Event}
    (refused : (createNode type).run memory = ⟨.error error, left, events⟩) :
    memory.Twins left := by
  rw [run_createNode] at refused
  split at refused
  · exact (insert_refused refused).2
  · cases refused
    exact .same

theorem createEdge_refused {type : ElementType} {source target : Address} {error : StoreError}
    {events : List Event}
    (refused : (createEdge type source target).run memory = ⟨.error error, left, events⟩) :
    memory.Twins left ∧ ∀ call, error ≠ .injected call := by
  rw [run_createEdge] at refused
  split at refused
  · split at refused
    · split at refused
      · obtain ⟨rfl, twins⟩ := insert_refused refused
        exact ⟨twins, nofun⟩
      · cases refused
        exact ⟨.same, nofun⟩
    · cases refused
      exact ⟨.same, nofun⟩
  · cases refused
    exact ⟨.same, nofun⟩

theorem result_createEdge_ne_injected (memory : Memory) (type : ElementType)
    (source target : Address) (call : GuardedCall) :
    ((createEdge type source target).run memory).result ≠ .error (.injected call) := by
  intro below
  rcases refused : (createEdge type source target).run memory with ⟨result, left, events⟩
  rw [refused] at below
  subst below
  exact (createEdge_refused refused).2 call rfl

/-- A request that fails leaves a twin. -/
theorem Linked.twins_of_refused (linked : memory.Linked) {request : Request} {failure : Failure}
    {events : List Event}
    (refused : request.action.run memory = ⟨.error failure, left, events⟩) :
    memory.Twins left := by
  by_cases question : request.IsQuestion
  · have unchanged := Request.state_of_isQuestion question memory
    rw [refused] at unchanged
    cases unchanged
    exact .same
  cases request with
  | createNode type =>
      obtain ⟨cause, refused, _⟩ := Action.run_mapError_eq_error_iff.mp refused
      exact createNode_refused refused
  | createLink =>
      obtain ⟨cause, refused, _⟩ := Action.run_mapError_eq_error_iff.mp refused
      exact (insert_refused refused).2
  | createEdge type source target =>
      obtain ⟨cause, refused, _⟩ := Action.run_mapError_eq_error_iff.mp refused
      exact (createEdge_refused refused).1
  | erase address =>
      obtain ⟨cause, refused, _⟩ := Action.run_mapError_eq_error_iff.mp refused
      have erased := result_erase memory address
      rw [show (erase address).run memory = _ from refused] at erased
      cases erased
  | assignIdentifier address text =>
      obtain ⟨cause, refused, _⟩ := Action.run_mapError_eq_error_iff.mp refused
      rcases run_assignIdentifier_cases memory address text with
        ⟨result, unchanged⟩ | ⟨element, _, _, assigned⟩
      · cases refused.symm.trans unchanged
        exact .same
      · cases refused.symm.trans assigned
  | addMember set element =>
      rw [show ((Request.addMember set element).action.run memory) = _ from
        linked.run_add set element] at refused
      split at refused
      · cases refused
      · split at refused
        · cases refused
        · next created =>
            cases refused
            exact (createEdge_refused created).1
  | removeMember set element =>
      obtain ⟨_, removed⟩ := linked.succeeds_remove set element
      cases refused.symm.trans removed
  | _ => exact absurd trivial question

end Memory

namespace Faulty

variable {σ α : Type} {store left : Faulty σ}

/-- When a call fails on purpose, nothing happens under the layer. -/
theorem inner_of_injected {action : Action σ StoreError α} {call other : GuardedCall}
    {events : List Event}
    (reply : (guarded call action).run store = ⟨.error (.injected other), left, events⟩)
    (notBelow : (action.run store.inner).result ≠ .error (.injected other)) :
    left.inner = store.inner := by
  simp only [guarded, Action.run] at reply
  split at reply
  · cases reply
    exact inner_setWire _ _ _
  · refine absurd (congrArg Reply.result reply) ?_
    rwa [← inner_setWire store call] at notBelow

end Faulty

namespace Memory

variable {memory : Memory}

/-- A member that a layer refuses to add on purpose is not added under the layer either. -/
theorem Linked.inner_of_add_injected {store left : Faulty Memory} (linked : store.inner.Linked)
    {set element : Address} {call : GuardedCall} {events : List Event}
    (reply : (Membership.add set element).run store =
      ⟨.error (.store (.injected call)), left, events⟩) : left.inner = store.inner := by
  have answered : hasEdge store set element .membershipArc =
      .ok (decide ((set, element) ∈ store.inner.memberPairs)) :=
    linked.hasEdge_membershipArc set element
  rw [Membership.run_add answered] at reply
  split at reply
  · cases reply
  · split at reply
    · cases reply
    · next created =>
        cases reply
        exact Faulty.inner_of_injected created
          (result_createEdge_ne_injected store.inner _ _ _ call)

/-- In a memory that calls lead to, a request that fails goes unnoticed: it leaves the elements and
identifiers as they were, and every later session goes on as it would have without the request.  A
membership arc that a layer refuses on purpose leaves the memory under the layer as it was. -/
theorem Reachable.refusal_unnoticed (reachable : Reachable memory) :
    (∀ (request : Request) (failure : Failure) (left : Memory) (events : List Event),
      request.action.run memory = ⟨.error failure, left, events⟩ →
        memory.SameContents left ∧
        ∀ steps : List Step,
          (Session.after memory steps).SameContents (Session.after left steps) ∧
          ∀ step : Step,
            Session.answer left steps step = Session.answer memory steps step ∧
            Session.reports left steps step = Session.reports memory steps step) ∧
    ∀ (store left : Faulty Memory) (set element : Address) (call : GuardedCall)
      (events : List Event),
      store.inner = memory →
      (Membership.add set element).run store = ⟨.error (.store (.injected call)), left, events⟩ →
        left.inner = memory := by
  have linked := reachable.sound.linked
  constructor
  · intro request failure left events refused
    have twins := linked.twins_of_refused refused
    refine ⟨twins.sameContents, fun steps => ⟨?_, fun step => ?_⟩⟩
    · exact (alike_twins.after like_clear twins steps).sameContents
    · obtain ⟨answer_eq, reports_eq⟩ := alike_twins.reply_after like_clear twins steps step
      exact ⟨answer_eq.symm, reports_eq.symm⟩
  · rintro store left set element call events rfl reply
    exact linked.inner_of_add_injected reply

/-- A link in each of two segments that have room for one element. -/
def twoLinks : Memory :=
  (Memory.empty ⟨1, 2⟩).after [.createLink, .createLink]

theorem reachable_twoLinks : Reachable twoLinks :=
  Reachable.after (.empty rfl) _

theorem refusal_unnoticed_at_twoLinks :
    Reachable twoLinks ∧
      ∃ (left : Memory) (spoiled : Faulty Memory),
        Request.createLink.action.run twoLinks = ⟨.error (.store .capacityExceeded), left, []⟩ ∧
        twoLinks.cursor = ⟨1, 2⟩ ∧ left.cursor = ⟨2, 1⟩ ∧
        Session.answer left [.ask (.erase ⟨0, 1⟩)] (.ask .createLink) =
          Session.answer twoLinks [.ask (.erase ⟨0, 1⟩)] (.ask .createLink) ∧
        (Membership.add ⟨0, 1⟩ ⟨1, 1⟩).run ((Faulty.idle twoLinks).failFrom .createEdge 1) =
          ⟨.error (.store (.injected .createEdge)), spoiled, []⟩ ∧
        spoiled.inner = twoLinks := by
  have full : twoLinks.IsFull := by decide
  have refused : Request.createLink.action.run twoLinks =
      ⟨.error (.store .capacityExceeded),
        { twoLinks with cursor := (twoLinks.limits.allocate twoLinks.cursor).2 }, []⟩ :=
    TripleStore.run_change (full.run_insert _ _)
  have injected : (Membership.add ⟨0, 1⟩ ⟨1, 1⟩).run
      ((Faulty.idle twoLinks).failFrom .createEdge 1) =
        ⟨.error (.store (.injected .createEdge)), ⟨twoLinks, ⟨1, 1⟩, .idle⟩, []⟩ := by rfl
  obtain ⟨requests, adds⟩ := reachable_twoLinks.refusal_unnoticed
  obtain ⟨_, unnoticed⟩ := requests _ _ _ _ refused
  exact ⟨reachable_twoLinks, _, _, refused, by decide, by decide, ((unnoticed _).2 _).1, injected,
    adds _ _ _ _ _ _ rfl injected⟩

end Memory

end SemanticMemory
