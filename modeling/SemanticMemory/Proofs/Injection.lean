import SemanticMemory.Proofs.Transcripts

/-!
# Calls that are made to fail

Over a layer that makes calls fail, a call fails exactly when its number among the calls of its kind
has come to the threshold in force.  Every other call is answered as by a memory of its own that is
sent just the calls that came through.  Helpers make their calls through the layer too: a helper
either goes as it would over that memory, or it ends with its first call that is made to fail.
-/

namespace SemanticMemory

open TripleStore

variable {α β : Type}

/-- How a reply over a layer is like the reply over a memory alone, when the calls of the journal
are made for it.  Either all of them come through and the replies agree, or the last one is the
first that is made to fail, and its failure is the result. -/
inductive Reply.LikeUnlessStopped {σ : Type} (related : σ → Memory → Prop) (journal : List Record)
    (reply : Reply σ Failure α) (other : Reply Memory Failure α) : Prop where
  | through (passed : ∀ record ∈ journal, record.cameThrough = true)
      (like : reply.Like related other) : LikeUnlessStopped related journal reply other
  | stopped {earlier : List Record} {record : Record} {kind : GuardedCall}
      (journal_eq : journal = earlier ++ [record])
      (passed : ∀ record ∈ earlier, record.cameThrough = true)
      (failed : record.answer = .error (.injected kind))
      (result_eq : reply.result = .error (.store (.injected kind))) :
      LikeUnlessStopped related journal reply other

namespace Faulty

theorem sameAnswers (layer : Faulty Memory) : SameAnswers layer layer.inner := by
  constructor
  · constructor <;> intros <;> rfl
  · exact fun _ => rfl

theorem like_report (event : String → Event) (address : Address) :
    Action.Like Covers
      (Action.view (Rendering.label · address) >>= fun label => Action.emit (event label) :
        Action (Faulty Memory) Failure Unit)
      (Action.view (Rendering.label · address) >>= fun label => Action.emit (event label)) := by
  refine Action.Like.bind (Action.like_view ?_) fun _ => Action.like_emit _
  rintro layer _ rfl
  exact Rendering.label_congr layer.sameAnswers.toSameElements address

end Faulty

namespace Action

/-- The journal and the layer that makes calls fail stand over the memory. -/
def Stands (store : Journaled (Faulty Memory)) (memory : Memory) : Prop :=
  store.inner.inner = memory

/-- Over the layer the action goes as over the memory alone, unless a call is made to fail. -/
def LikeUnlessStopped (action : Action (Journaled (Faulty Memory)) Failure α)
    (other : Action Memory Failure α) : Prop :=
  ∀ store, ∃ journal, (action.run store).state.journal = store.journal ++ journal ∧
    (action.run store).LikeUnlessStopped Stands journal (other.run store.inner.inner)

namespace LikeUnlessStopped

/-- Where no call is made, none is made to fail. -/
theorem of_like {action : Action (Journaled (Faulty Memory)) Failure α}
    {other : Action Memory Failure α} (like : Action.Like Stands action other)
    (journal_eq : ∀ store, (action.run store).state.journal = store.journal) :
    LikeUnlessStopped action other :=
  fun store => ⟨[], by rw [journal_eq, List.append_nil], .through nofun (like rfl)⟩

theorem change (call : Call) :
    LikeUnlessStopped (TripleStore.change (Journaled.noted call call.action))
      (TripleStore.change call.action) := by
  intro store
  refine ⟨[⟨call, (call.action.run store.inner).result⟩], rfl, ?_⟩
  by_cases silent : ∀ kind, ¬store.inner.Trips call kind
  · refine .through ?_ ?_
    · rw [List.forall_mem_singleton, Record.cameThrough_eq_true_iff]
      exact fun kind => mt Faulty.result_call_eq_injected_iff.mp (silent kind)
    · obtain ⟨result_eq, events_eq, left⟩ := Faulty.like_call_of_not_trips silent
      exact ⟨congrArg (Except.mapError Failure.store) result_eq, events_eq, left⟩
  · push Not at silent
    obtain ⟨kind, trips⟩ := silent
    have failed := Faulty.result_call_eq_injected_iff.mpr trips
    exact .stopped (List.nil_append _).symm nofun failed
      (congrArg (Except.mapError Failure.store) failed)

/-- Of two actions in a row, the second is only begun when the first was not stopped. -/
theorem bind {first : Action (Journaled (Faulty Memory)) Failure β}
    {otherFirst : Action Memory Failure β} {next : β → Action (Journaled (Faulty Memory)) Failure α}
    {otherNext : β → Action Memory Failure α} (like : LikeUnlessStopped first otherFirst)
    (likeNext : ∀ value, LikeUnlessStopped (next value) (otherNext value)) :
    LikeUnlessStopped (first >>= next) (otherFirst >>= otherNext) := by
  intro store
  obtain ⟨journal, journal_eq, goes⟩ := like store
  rcases opening : first.run store with ⟨result, reached, events⟩
  rcases otherOpening : otherFirst.run store.inner.inner with
    ⟨otherResult, otherReached, otherEvents⟩
  rw [opening, otherOpening] at goes
  rw [opening] at journal_eq
  cases goes with
  | through passed same =>
      obtain ⟨rfl, rfl, rfl⟩ := same
      cases result with
      | error failure =>
          rw [Action.run_bind_of_error opening, Action.run_bind_of_error otherOpening]
          exact ⟨journal, journal_eq, .through passed ⟨rfl, rfl, rfl⟩⟩
      | ok value =>
          rw [Action.run_bind_of_ok opening, Action.run_bind_of_ok otherOpening]
          obtain ⟨more, more_eq, goesOn⟩ := likeNext value reached
          refine ⟨journal ++ more, ?_, ?_⟩
          · rw [more_eq, journal_eq, List.append_assoc]
          · cases goesOn with
            | through passedOn same =>
                obtain ⟨result_eq, events_eq, left⟩ := same
                exact .through (List.forall_mem_append.mpr ⟨passed, passedOn⟩)
                  ⟨result_eq, congrArg _ events_eq, left⟩
            | stopped more_eq passedOn failed result_eq =>
                refine .stopped ?_ (List.forall_mem_append.mpr ⟨passed, passedOn⟩) failed result_eq
                rw [more_eq, List.append_assoc]
  | stopped last passed failed result_eq =>
      cases result_eq
      rw [Action.run_bind_of_error opening]
      exact ⟨journal, journal_eq, .stopped last passed failed rfl⟩

theorem pure (value : α) : LikeUnlessStopped (Pure.pure value) (Pure.pure value) :=
  of_like (Action.like_pure value) fun _ => rfl

theorem emit (event : Event) : LikeUnlessStopped (Action.emit event) (Action.emit event) :=
  of_like (Action.like_emit event) fun _ => rfl

theorem addMember (set element : Address) :
    LikeUnlessStopped (Membership.add set element) (Membership.add set element) := by
  have asked : LikeUnlessStopped
      (ask fun store => hasEdge store set element .membershipArc)
      (ask fun store => hasEdge store set element .membershipArc) :=
    of_like (like_ask fun _ _ stands => by cases stands; rfl) fun _ => rfl
  refine asked.bind fun isMember => ?_
  cases isMember with
  | true => exact pure _
  | false =>
      exact (change (.createEdge .membershipArc set element)).bind fun _ =>
        (emit _).bind fun _ => pure _

theorem eraseEdges (triples : List Triple) :
    LikeUnlessStopped (Membership.eraseEdges triples) (Membership.eraseEdges triples) := by
  induction triples with
  | nil => exact pure _
  | cons triple triples ih =>
      exact (change (.erase triple.edge)).bind fun _ => ih.bind fun _ => pure _

theorem removeMember (set element : Address) :
    LikeUnlessStopped (Membership.remove set element) (Membership.remove set element) := by
  have asked : LikeUnlessStopped
      (ask fun store => matching store (Membership.arcs set element))
      (ask fun store => matching store (Membership.arcs set element)) :=
    of_like (like_ask fun _ _ stands => by cases stands; rfl) fun _ => rfl
  refine asked.bind fun triples => (eraseEdges triples).bind fun removed => ?_
  cases removed with
  | true => exact (emit _).bind fun _ => pure _
  | false => exact (pure ()).bind fun _ => pure _

theorem request (request : Request) : LikeUnlessStopped request.action request.action := by
  by_cases question : request.IsQuestion
  · refine of_like (Request.like_of_isQuestion ?_ question) fun store =>
      congrArg Journaled.journal (Request.state_of_isQuestion question store)
    rintro store _ rfl
    constructor
    · constructor <;> intros <;> rfl
    · exact fun _ => rfl
  cases request with
  | createNode type => exact change (.createNode type)
  | createLink => exact change .createLink
  | createEdge type source target => exact change (.createEdge type source target)
  | erase address => exact change (.erase address)
  | assignIdentifier address name => exact change (.assignIdentifier address name)
  | addMember set element => exact addMember set element
  | removeMember set element => exact removeMember set element
  | _ => exact absurd trivial question

end LikeUnlessStopped

end Action

/-- Without the journal it is the same. -/
theorem Reply.LikeUnlessStopped.of_covers {reply : Reply (Journaled (Faulty Memory)) Failure α}
    {bare : Reply (Faulty Memory) Failure α} {other : Reply Memory Failure α}
    {journal : List Record} (goes : reply.LikeUnlessStopped Action.Stands journal other)
    (covers : reply.Like Journaled.Covers bare) :
    bare.LikeUnlessStopped Faulty.Covers journal other := by
  obtain ⟨result_eq, events_eq, left⟩ := covers
  cases goes with
  | through passed like =>
      refine .through passed ⟨result_eq.symm.trans like.result_eq,
        events_eq.symm.trans like.events_eq, ?_⟩
      exact (congrArg Faulty.inner left).symm.trans like.related_state
  | stopped journal_eq passed failed stopped =>
      exact .stopped journal_eq passed failed (result_eq.symm.trans stopped)

/-- A step over the layer goes as over the memory under it, unless a call is made to fail. -/
theorem Step.likeUnlessStopped (layer : Faulty Memory) (step : Step) :
    (step.action.run layer).LikeUnlessStopped Faulty.Covers (step.journal layer)
      (step.action.run layer.inner) := by
  cases step with
  | ask request =>
      obtain ⟨journal, journal_eq, goes⟩ :=
        Action.LikeUnlessStopped.request request (.blank layer)
      obtain rfl : (Step.ask request).journal layer = journal := journal_eq
      exact goes.of_covers (Journaled.alike_covers.request request rfl)
  | reportUnknownOperatorType operator =>
      exact .through nofun (Faulty.like_report .operatorTypeUnknown operator rfl)
  | reportError description address =>
      exact .through nofun (Faulty.like_report (.interpreterError description) address rfl)
  | clear => exact .through (by simp [Step.journal, Record.cameThrough]) ⟨rfl, rfl, rfl⟩

namespace Trial

open Transcript

/-- The transcript of a trial over a memory tells of single calls to the layer.  A call fails on
purpose exactly when the threshold in force is not zero and the number of the call has come to it,
so as long as the threshold stays, one failure is followed by others.  All other calls are answered
as by the memory when it is sent the calls that came through, the layer stands over that very
memory, and a step over the layer goes as over that memory, unless one of its calls is made to
fail. -/
theorem failures_injected (memory : Memory) (turns : List Turn)
    (bounded : ∀ kind, calls kind (transcript (.idle memory) turns) < UInt64.size) :
    let layer := after (.idle memory) turns
    let entries := transcript (.idle memory) turns
    Transcribes (.idle memory) entries layer ∧
    (∀ earlier record later, entries = earlier ++ .called record :: later →
      (∀ kind, record.answer = .error (.injected kind) ↔
        record.call.kind? = some kind ∧ threshold kind earlier ≠ 0 ∧
          (threshold kind earlier).toNat ≤ calls kind earlier + 1) ∧
      (record.cameThrough = true →
        record.answer = (record.call.action.run (memory.after (passedOn earlier))).result)) ∧
    (∀ kind earlier failed between again later,
      entries = earlier ++ .called failed :: (between ++ .called again :: later) →
      failed.answer = .error (.injected kind) → again.call.kind? = some kind →
      (∀ threshold, .armed kind threshold ∉ between) → again.answer = .error (.injected kind)) ∧
    layer.inner = memory.after (passedOn entries) ∧
    ∀ step : Step, (step.action.run layer).LikeUnlessStopped Faulty.Covers (step.journal layer)
      (step.action.run (memory.after (passedOn entries))) := by
  intro layer entries
  have told : Transcribes (.idle memory) entries layer := transcribes _ turns
  have inner_eq : layer.inner = memory.after (passedOn entries) := told.inner_eq
  refine ⟨told, ?_, ?_, inner_eq, fun step => inner_eq ▸ step.likeUnlessStopped layer⟩
  · intro earlier record later entries_eq
    exact ⟨fun kind => told.answer_eq_injected_iff entries_eq (bounded kind),
      told.answer_eq_of_cameThrough entries_eq⟩
  · intro kind earlier failed between again later entries_eq isFailed isKind unarmed
    obtain ⟨failedKind, armed, reached⟩ :=
      (told.answer_eq_injected_iff entries_eq (bounded kind)).mp isFailed
    have regrouped : entries =
        (earlier ++ .called failed :: between) ++ .called again :: later := by
      rw [entries_eq, List.append_assoc, List.cons_append]
    have same : threshold kind (earlier ++ .called failed :: between) = threshold kind earlier := by
      refine threshold_append_of_unarmed fun value member => ?_
      rcases List.mem_cons.mp member with isCall | later
      · cases isCall
      · exact unarmed value later
    refine (told.answer_eq_injected_iff regrouped (bounded kind)).mpr ⟨isKind, ?_, ?_⟩
    · rwa [same]
    · rw [same, calls_append]
      omega

/-- Of four arcs the second is no arc and the third is made to fail; then no arc can be erased. -/
def twoArcs : List Turn :=
  [.step (.ask (.createNode .nodeConst)), .step (.ask (.createNode .nodeConst)),
    .step (.ask (.addMember ⟨0, 1⟩ ⟨0, 2⟩)), .failFrom .createEdge 3,
    .step (.ask (.createEdge .nodeConst ⟨0, 1⟩ ⟨0, 2⟩)),
    .step (.ask (.addMember ⟨0, 2⟩ ⟨0, 1⟩)), .mend,
    .step (.ask (.createEdge .membershipArc ⟨0, 1⟩ ⟨0, 2⟩)), .failFrom .erase 1,
    .step (.ask (.removeMember ⟨0, 1⟩ ⟨0, 2⟩))]

theorem transcript_twoArcs :
    transcript (.idle (.empty .standard)) twoArcs =
      [.called ⟨.createNode .nodeConst, .ok ⟨0, 1⟩⟩,
        .called ⟨.createNode .nodeConst, .ok ⟨0, 2⟩⟩,
        .called ⟨.createEdge .membershipArc ⟨0, 1⟩ ⟨0, 2⟩, .ok ⟨0, 3⟩⟩,
        .armed .createEdge 3,
        .called ⟨.createEdge .nodeConst ⟨0, 1⟩ ⟨0, 2⟩, .error (.notAnEdgeType .nodeConst)⟩,
        .called ⟨.createEdge .membershipArc ⟨0, 2⟩ ⟨0, 1⟩, .error (.injected .createEdge)⟩,
        .armed .createEdge 0, .armed .erase 0,
        .called ⟨.createEdge .membershipArc ⟨0, 1⟩ ⟨0, 2⟩, .ok ⟨0, 4⟩⟩,
        .armed .erase 1,
        .called ⟨.erase ⟨0, 3⟩, .error (.injected .erase)⟩] := by
  rfl

/-- The third arc is made to fail, and the calls that came through make up the memory; one more
erasure, the second, is stopped as the first was. -/
theorem failures_injected_at_twoArcs :
    let layer := after (.idle (.empty .standard)) twoArcs
    let entries := transcript (.idle (.empty .standard)) twoArcs
    (∀ kind, calls kind entries < UInt64.size) ∧
      (∃ earlier record later, entries = earlier ++ .called record :: later ∧
        threshold .createEdge earlier = 3 ∧ calls .createEdge earlier = 2 ∧
        record.answer = .error (.injected .createEdge)) ∧
      layer.inner = (Memory.empty .standard).after
        [.createNode .nodeConst, .createNode .nodeConst, .createEdge .membershipArc ⟨0, 1⟩ ⟨0, 2⟩,
          .createEdge .nodeConst ⟨0, 1⟩ ⟨0, 2⟩, .createEdge .membershipArc ⟨0, 1⟩ ⟨0, 2⟩] ∧
      ((Step.ask (.erase ⟨0, 4⟩)).action.run layer).result =
        .error (.store (.injected .erase)) := by
  intro layer entries
  have entries_eq : entries = _ := transcript_twoArcs
  have bounded : ∀ kind, calls kind entries < UInt64.size := by
    intro kind
    rw [entries_eq]
    cases kind <;> decide
  obtain ⟨_, answers, _, inner_eq, steps⟩ := failures_injected (.empty .standard) twoArcs bounded
  have third : entries = entries.take 5 ++ .called
      ⟨.createEdge .membershipArc ⟨0, 2⟩ ⟨0, 1⟩, .error (.injected .createEdge)⟩ ::
        entries.drop 6 := by
    rw [entries_eq]
    rfl
  have threshold_eq : threshold .createEdge (entries.take 5) = 3 := by
    rw [entries_eq]
    rfl
  have calls_eq : calls .createEdge (entries.take 5) = 2 := by
    rw [entries_eq]
    rfl
  have failed := ((answers _ _ _ third).1 .createEdge).mpr
    ⟨rfl, by rw [threshold_eq]; decide, by rw [threshold_eq, calls_eq]; decide⟩
  have journal_eq : (Step.ask (.erase ⟨0, 4⟩)).journal layer =
      [⟨.erase ⟨0, 4⟩, .error (.injected .erase)⟩] := by
    rfl
  refine ⟨bounded, ⟨_, _, _, third, threshold_eq, calls_eq, failed⟩, ?_, ?_⟩
  · rw [inner_eq, transcript_twoArcs]
    rfl
  · rcases steps (.ask (.erase ⟨0, 4⟩)) with ⟨passed, _⟩ | ⟨last, _, stopped, result_eq⟩
    · rw [journal_eq, List.forall_mem_singleton] at passed
      cases passed
    · rw [journal_eq, ← List.nil_append [_]] at last
      obtain ⟨_, rfl⟩ := List.append_singleton_inj.mp last
      cases stopped
      exact result_eq

end Trial

end SemanticMemory
