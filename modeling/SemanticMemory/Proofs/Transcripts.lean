import SemanticMemory.Proofs.Interruption
import SemanticMemory.Proofs.Refusals
import SemanticMemory.Trial

/-!
# What transcripts tell

A journal is not noticed, and it shows that the calls of a helper are calls that anyone could have
made.  So a transcript is a path of single calls and moved thresholds, and what holds of the layer
at its end can be read off it: how many calls of a kind were made, which threshold is in force, and
which calls the memory under the layer was sent.
-/

namespace SemanticMemory

open TripleStore

variable {α : Type}

namespace Journaled

variable {σ : Type} [TripleStore σ]

def Covers (layer : Journaled σ) (store : σ) : Prop :=
  layer.inner = store

omit [TripleStore σ] in
theorem like_noted (call : Call) (action : Action σ StoreError call.Value) :
    Action.Like Covers (noted call action) action := by
  rintro layer _ rfl
  exact ⟨rfl, rfl, rfl⟩

theorem sameAnswers (layer : Journaled σ) : SameAnswers layer layer.inner := by
  constructor
  · constructor <;> intros <;> rfl
  · exact fun _ => rfl

/-- A journal is not noticed. -/
theorem alike_covers : Alike (Covers : Journaled σ → σ → Prop) where
  elements layer _ covers := by
    cases covers
    exact layer.sameAnswers.toSameElements
  createNode type := like_noted (.createNode type) _
  createLink := like_noted .createLink _
  createEdge type source target := like_noted (.createEdge type source target) _
  erase address := like_noted (.erase address) _
  assignIdentifier address name := like_noted (.assignIdentifier address name) _
  matching_eq layer _ covers _ := by
    cases covers
    rfl

/-- What every call keeps, every request keeps. -/
theorem keeps_request [Layered σ] {Kept : Journaled σ → Prop}
    (keeps : ∀ (call : Call) ⦃store : Journaled σ⦄, Kept store →
      Kept ((noted call call.action).run store).state)
    (request : Request) {store : Journaled σ} (kept : Kept store) :
    Kept (request.action.run store).state := by
  -- A store behaves like itself, and what is kept goes along as part of the relation.
  let Same (first second : Journaled σ) : Prop := first = second ∧ Kept first
  have same (call : Call) :
      Action.Like Same (noted call (call.action : Action σ _ _)) (noted call call.action) := by
    rintro store _ ⟨rfl, kept⟩
    exact ⟨rfl, rfl, rfl, keeps call kept⟩
  have alike : Alike Same :=
    { elements := by
        rintro store _ ⟨rfl, _⟩
        exact (SameAnswers.refl store).toSameElements
      createNode := fun type => same (.createNode type)
      createLink := same .createLink
      createEdge := fun type source target => same (.createEdge type source target)
      erase := fun address => same (.erase address)
      assignIdentifier := fun address name => same (.assignIdentifier address name)
      matching_eq := by
        rintro store _ ⟨rfl, _⟩ _
        rfl }
  exact (alike.request request ⟨rfl, kept⟩).related_state.2

end Journaled

/-- A memory makes no call fail on purpose. -/
theorem Memory.result_action_ne_injected (memory : Memory) (call : Call) (kind : GuardedCall) :
    (call.action.run memory).result ≠ .error (.injected kind) := by
  intro injected
  rcases replied : call.action.run memory with ⟨result, left, events⟩
  rw [replied] at injected
  subst injected
  cases call with
  | createNode type =>
      rw [show (Call.createNode type).action.run memory = _ from run_createNode memory type]
        at replied
      split at replied
      · cases (insert_refused replied).1
      · cases replied
  | createLink => cases (insert_refused replied).1
  | createEdge type source target => exact (createEdge_refused replied).2 kind rfl
  | erase address => cases (congrArg Reply.result replied).symm.trans (memory.result_erase address)
  | assignIdentifier address text =>
      rw [show (Call.assignIdentifier address text).action.run memory = _ from
        run_assignIdentifier memory address text] at replied
      split at replied
      · cases replied
      · cases replied
      · split at replied <;> cases replied
  | clear => cases replied

namespace Faulty

variable {layer : Faulty Memory} {call : Call} {kind : GuardedCall}

def Covers (layer : Faulty Memory) (memory : Memory) : Prop :=
  layer.inner = memory

/-- Whether the layer makes the call fail. -/
def Trips (layer : Faulty Memory) (call : Call) (kind : GuardedCall) : Prop :=
  call.kind? = some kind ∧ (layer.wire kind).count.trips = true

theorem run_call (layer : Faulty Memory) (call : Call) :
    call.action.run layer =
      match call.kind? with
      | none => (within call.action).run layer
      | some kind => (guarded kind call.action).run layer := by
  cases call <;> rfl

theorem run_call_of_trips (trips : layer.Trips call kind) :
    call.action.run layer =
      ⟨.error (.injected kind), layer.setWire kind (layer.wire kind).count, []⟩ := by
  obtain ⟨isKind, trips⟩ := trips
  rw [run_call, isKind]
  simp only [guarded, Action.run, wire_setWire_self, trips, if_true]

/-- A call that is not made to fail goes as under the layer. -/
theorem like_call_of_not_trips (silent : ∀ kind, ¬layer.Trips call kind) :
    (call.action.run layer).Like Covers (call.action.run layer.inner) := by
  rw [run_call]
  cases isKind : call.kind? with
  | none => exact ⟨rfl, rfl, rfl⟩
  | some kind =>
      have lets : (layer.wire kind).count.trips = false :=
        Bool.eq_false_iff.mpr fun trips => silent kind ⟨isKind, trips⟩
      simp only [guarded, Action.run, wire_setWire_self, lets, Bool.false_eq_true, if_false]
      change ((within call.action).run _).Like _ _
      rw [run_within, inner_setWire]
      exact ⟨rfl, rfl, rfl⟩

theorem wire_guarded {σ : Type} (layer : Faulty σ) (call kind : GuardedCall)
    (action : Action σ StoreError α) :
    ((guarded call action).run layer).state.wire kind =
      (layer.setWire call (layer.wire call).count).wire kind := by
  simp only [guarded, Action.run]
  split
  · rfl
  · cases kind <;> rfl

/-- A call is counted on the wire of its kind, whatever becomes of it. -/
theorem wire_call (layer : Faulty Memory) (call : Call) (kind : GuardedCall) :
    (call.action.run layer).state.wire kind =
      if call.kind? = some kind then (layer.wire kind).count else layer.wire kind := by
  rw [run_call]
  cases call.kind? with
  | none => cases kind <;> rfl
  | some other =>
      rw [wire_guarded]
      by_cases same : other = kind
      · rw [same, wire_setWire_self, if_pos rfl]
      · rw [wire_setWire_of_ne _ same, if_neg (mt Option.some.inj same)]

theorem result_call_eq_injected_iff :
    (call.action.run layer).result = .error (.injected kind) ↔ layer.Trips call kind := by
  constructor
  · intro injected
    by_cases silent : ∀ other, ¬layer.Trips call other
    · rw [(like_call_of_not_trips silent).result_eq] at injected
      exact absurd injected (layer.inner.result_action_ne_injected call kind)
    · push Not at silent
      obtain ⟨other, trips⟩ := silent
      rw [run_call_of_trips trips] at injected
      cases injected
      exact trips
  · intro trips
    rw [run_call_of_trips trips]

/-- What is under the layer after a call: only a call that comes through does something. -/
theorem inner_call (layer : Faulty Memory) (call : Call) :
    (call.action.run layer).state.inner =
      layer.inner.after (Transcript.passedOn [.called ⟨call, (call.action.run layer).result⟩]) := by
  by_cases silent : ∀ kind, ¬layer.Trips call kind
  · have through : Record.cameThrough ⟨call, (call.action.run layer).result⟩ = true :=
      Record.cameThrough_eq_true_iff.mpr fun kind =>
        mt result_call_eq_injected_iff.mp (silent kind)
    rw [(like_call_of_not_trips silent).related_state, Call.state_action]
    simp [Transcript.passedOn, Entry.passedOn?, through]
  · push Not at silent
    obtain ⟨kind, trips⟩ := silent
    have stopped : Record.cameThrough ⟨call, (call.action.run layer).result⟩ = false :=
      Record.cameThrough_of_injected (result_call_eq_injected_iff.mpr trips)
    rw [run_call_of_trips trips] at stopped ⊢
    simp [Transcript.passedOn, Entry.passedOn?, stopped]

theorem wire_failFrom (layer : Faulty Memory) (other kind : GuardedCall) (threshold : UInt64) :
    (layer.failFrom other threshold).wire kind =
      if other = kind then (layer.wire kind).set threshold else layer.wire kind := by
  rw [failFrom]
  by_cases same : other = kind
  · rw [same, wire_setWire_self, if_pos rfl]
  · rw [wire_setWire_of_ne _ same, if_neg same]

end Faulty

/-- What an entry tells of: a call that is made to the layer, or a threshold that is moved. -/
inductive Entry.Tells (layer : Faulty Memory) : Entry → Faulty Memory → Prop where
  | called (call : Call) :
      Tells layer (.called ⟨call, (call.action.run layer).result⟩) (call.action.run layer).state
  | armed (kind : GuardedCall) (threshold : UInt64) :
      Tells layer (.armed kind threshold) (layer.failFrom kind threshold)

/-- The entries tell of single calls and moves that lead from one layer to the other. -/
inductive Transcribes : Faulty Memory → List Entry → Faulty Memory → Prop where
  | nil (layer : Faulty Memory) : Transcribes layer [] layer
  | cons {layer next last : Faulty Memory} {entry : Entry} {entries : List Entry}
      (tells : entry.Tells layer next) (rest : Transcribes next entries last) :
      Transcribes layer (entry :: entries) last

namespace Transcribes

open Transcript

variable {layer middle last : Faulty Memory} {entries earlier later : List Entry}
  {kind : GuardedCall}

theorem append (first : Transcribes layer earlier middle) (second : Transcribes middle later last) :
    Transcribes layer (earlier ++ later) last := by
  induction first with
  | nil => exact second
  | cons tells _ ih => exact .cons tells (ih second)

theorem snoc {entry : Entry} (soFar : Transcribes layer entries middle)
    (tells : entry.Tells middle last) : Transcribes layer (entries ++ [entry]) last :=
  soFar.append (.cons tells (.nil last))

theorem exists_of_append (told : Transcribes layer (earlier ++ later) last) :
    ∃ middle, Transcribes layer earlier middle ∧ Transcribes middle later last := by
  induction earlier generalizing layer with
  | nil => exact ⟨layer, .nil layer, told⟩
  | cons entry earlier ih =>
      obtain _ | ⟨tells, rest⟩ := told
      obtain ⟨middle, first, second⟩ := ih rest
      exact ⟨middle, .cons tells first, second⟩

theorem threshold_eq (told : Transcribes layer entries last) (kind : GuardedCall) :
    (last.wire kind).threshold = entries.foldl (Entry.rearm kind) (layer.wire kind).threshold := by
  induction told with
  | nil => rfl
  | @cons layer next last entry entries tells rest ih =>
      rw [ih, List.foldl_cons]
      congr 1
      cases tells with
      | called call =>
          rw [Faulty.wire_call]
          split <;> rfl
      | armed other threshold =>
          rw [Faulty.wire_failFrom, Entry.rearm]
          split <;> rfl

theorem calls_eq (told : Transcribes layer entries last) (kind : GuardedCall) :
    (last.wire kind).calls = (layer.wire kind).calls + .ofNat (calls kind entries) := by
  induction told with
  | nil => exact (UInt64.add_zero _).symm
  | @cons layer next last entry entries tells rest ih =>
      rw [ih, calls, calls, List.countP_cons]
      cases tells with
      | called call =>
          rw [Faulty.wire_call]
          simp only [Entry.isCall, decide_eq_true_eq]
          split
          · rw [Nat.add_comm, UInt64.ofNat_add, ← UInt64.add_assoc]
            rfl
          · rfl
      | armed other threshold =>
          rw [Faulty.wire_failFrom]
          split <;> rfl

theorem inner_eq (told : Transcribes layer entries last) :
    last.inner = layer.inner.after (passedOn entries) := by
  induction told with
  | nil => rfl
  | @cons layer next last entry entries tells rest ih =>
      have split : passedOn (entry :: entries) = passedOn [entry] ++ passedOn entries :=
        List.filterMap_append (l := [entry])
      rw [ih, split, Memory.after_append]
      cases tells with
      | called call => rw [Faulty.inner_call]
      | armed other threshold => cases other <;> rfl

end Transcribes

/-- The wires of the layer that a transcript leads to can be read off the transcript. -/
theorem Transcribes.wire_eq {memory : Memory} {entries : List Entry} {layer : Faulty Memory}
    (told : Transcribes (.idle memory) entries layer) (kind : GuardedCall) :
    layer.wire kind =
      ⟨Transcript.threshold kind entries, .ofNat (Transcript.calls kind entries)⟩ := by
  have threshold := told.threshold_eq kind
  have calls := told.calls_eq kind
  have idle : (Faulty.idle memory).wire kind = ⟨0, 0⟩ := by cases kind <;> rfl
  rw [idle] at threshold calls
  rw [UInt64.zero_add] at calls
  rw [Transcript.threshold, ← threshold, ← calls]

namespace Step

/-- The calls of a request are single calls to the layer. -/
theorem transcribes (layer : Faulty Memory) (step : Step) :
    Transcribes layer ((step.journal layer).map .called) (step.action.run layer).state := by
  cases step with
  | ask request =>
      let Told (store : Journaled (Faulty Memory)) : Prop :=
        Transcribes layer (store.journal.map .called) store.inner
      have told : Told (request.action.run (.blank layer)).state := by
        refine Journaled.keeps_request (fun call store told => ?_) request (.nil layer)
        rw [Journaled.run_noted]
        change Transcribes layer (List.map _ (store.journal ++ [_])) _
        rw [List.map_append]
        exact Transcribes.snoc told (.called call)
      have covered : (request.action.run (Journaled.blank layer)).state.inner =
          (request.action.run layer).state :=
        (Journaled.alike_covers.request request rfl).related_state
      exact covered ▸ told
  | reportUnknownOperatorType | reportError => exact .nil layer
  | clear => exact .cons (.called .clear) (.nil _)

end Step

namespace Turn

theorem transcribes (layer : Faulty Memory) (turn : Turn) :
    Transcribes layer (turn.entries layer) (turn.apply layer) := by
  cases turn with
  | step next => exact next.transcribes layer
  | failFrom kind threshold => exact .cons (.armed kind threshold) (.nil _)
  | mend => exact .cons (.armed .createEdge 0) (.cons (.armed .erase 0) (.nil _))

end Turn

namespace Trial

/-- A transcript tells what happened. -/
theorem transcribes (layer : Faulty Memory) (turns : List Turn) :
    Transcribes layer (transcript layer turns) (after layer turns) := by
  induction turns generalizing layer with
  | nil => exact .nil layer
  | cons turn turns ih => exact (turn.transcribes layer).append (ih (turn.apply layer))

end Trial

namespace Transcript

variable {kind : GuardedCall} {earlier between : List Entry}

theorem calls_append (kind : GuardedCall) (earlier later : List Entry) :
    calls kind (earlier ++ later) = calls kind earlier + calls kind later :=
  List.countP_append

theorem threshold_append_of_unarmed (unarmed : ∀ threshold, .armed kind threshold ∉ between) :
    threshold kind (earlier ++ between) = threshold kind earlier := by
  induction between generalizing earlier with
  | nil => rw [List.append_nil]
  | cons entry between ih =>
      have rest : threshold kind (earlier ++ [entry] ++ between) =
          threshold kind (earlier ++ [entry]) :=
        ih fun value member => unarmed value (List.mem_cons_of_mem _ member)
      rw [List.append_assoc, List.singleton_append] at rest
      rw [rest, threshold, List.foldl_append]
      cases entry with
      | called record => rfl
      | armed other value =>
          refine if_neg fun same => unarmed value ?_
          rw [same]
          exact List.mem_cons_self

end Transcript

/-- After so many calls, the next one trips when its number has come to the threshold. -/
theorem Tripwire.trips_count_ofNat_iff {threshold : UInt64} {made : Nat}
    (bounded : made + 1 < UInt64.size) :
    (Tripwire.mk threshold (.ofNat made)).count.trips = true ↔
      threshold ≠ 0 ∧ threshold.toNat ≤ made + 1 := by
  have made_eq : (UInt64.ofNat made).toNat = made :=
    UInt64.toNat_ofNat_of_lt' (Nat.lt_of_succ_lt bounded)
  rw [trips_count_iff_le (made_eq.symm ▸ bounded)]
  change threshold ≠ 0 ∧ threshold.toNat ≤ (UInt64.ofNat made).toNat + 1 ↔ _
  rw [made_eq]

namespace Transcribes

open Transcript

variable {memory : Memory} {layer last : Faulty Memory} {entries earlier later : List Entry}
  {record : Record}

/-- Every call was answered by the layer that the earlier entries lead to. -/
theorem exists_answer_eq (told : Transcribes layer entries last)
    (entries_eq : entries = earlier ++ .called record :: later) :
    ∃ middle, Transcribes layer earlier middle ∧
      record.answer = (record.call.action.run middle).result := by
  subst entries_eq
  obtain ⟨middle, first, second⟩ := told.exists_of_append
  obtain _ | ⟨_ | _, _⟩ := second
  exact ⟨middle, first, rfl⟩

/-- A call is made to fail when its number has come to the threshold in force, and only then. -/
theorem answer_eq_injected_iff (told : Transcribes (.idle memory) entries last)
    (entries_eq : entries = earlier ++ .called record :: later) {kind : GuardedCall}
    (bounded : calls kind entries < UInt64.size) :
    record.answer = .error (.injected kind) ↔
      record.call.kind? = some kind ∧ threshold kind earlier ≠ 0 ∧
        (threshold kind earlier).toNat ≤ calls kind earlier + 1 := by
  obtain ⟨middle, first, answer_eq⟩ := told.exists_answer_eq entries_eq
  rw [answer_eq, Faulty.result_call_eq_injected_iff, Faulty.Trips, first.wire_eq kind]
  refine and_congr_right fun isKind => Tripwire.trips_count_ofNat_iff ?_
  have counted : calls kind (.called record :: later) = calls kind later + 1 :=
    List.countP_cons_of_pos (decide_eq_true isKind)
  rw [entries_eq, calls_append, counted] at bounded
  omega

/-- A call that comes through is answered by the memory that was sent the calls before it. -/
theorem answer_eq_of_cameThrough (told : Transcribes (.idle memory) entries last)
    (entries_eq : entries = earlier ++ .called record :: later)
    (through : record.cameThrough = true) :
    record.answer = (record.call.action.run (memory.after (passedOn earlier))).result := by
  obtain ⟨middle, first, answer_eq⟩ := told.exists_answer_eq entries_eq
  have silent : ∀ kind, ¬middle.Trips record.call kind := by
    intro kind trips
    refine Record.cameThrough_eq_true_iff.mp through kind ?_
    rw [answer_eq, Faulty.result_call_eq_injected_iff.mpr trips]
  rw [answer_eq, (Faulty.like_call_of_not_trips silent).result_eq, first.inner_eq]
  rfl

end Transcribes

end SemanticMemory
