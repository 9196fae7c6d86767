import SemanticMemory.Proofs.Drafts

/-!
# Set-ups that may stop

A set-up goes through a list of drafts and makes one element after the other.  It gets through when
there is a place for each of them and nothing owns their identifiers.  Wherever it stops, it has
made the elements that come first on the list.
-/

namespace SemanticMemory

namespace Ledger

open Memory Setup

variable {limits : Limits} {ledger : Ledger} {made drafts more : List Draft} {left : Memory}

/-- The address that is handed out when as many others were handed out since. -/
def following (limits : Limits) (ledger : Ledger) (index : Nat) : Address :=
  limits.place (ledger.handedOut.length + index)

/-- The elements of the drafts are all that was made since. -/
structure Progress (limits : Limits) (ledger : Ledger) (made : List Draft) (left : Memory) :
    Prop where
  builds : ledger.memory.Builds left made
  numbered : Numbered limits ⟨left, ledger.handedOut ++ made.map Draft.address⟩

theorem Numbered.progress (numbered : Numbered limits ledger) :
    Progress limits ledger [] ledger.memory where
  builds := builds_nil ledger.memory
  numbered := by
    rw [List.map_nil, List.append_nil]
    exact numbered

theorem Progress.length_le (progress : Progress limits ledger made left) :
    ledger.handedOut.length + made.length ≤ limits.capacity := by
  have bounded := progress.numbered.length_le
  rwa [List.length_append, List.length_map] at bounded

/-- The next element is made at the next place, if there is one. -/
theorem Progress.run_insert (progress : Progress limits ledger made left)
    (valid : limits.validate = .ok ()) {type : ElementType} {ends : Option (Address × Address)}
    (fits : ∀ place, left.limits.settle left.cursor = some place → left.Fits place type ends) :
    (∃ next, (insert type ends).run left = ⟨.ok (ledger.following limits made.length), next, []⟩ ∧
        Progress limits ledger
          (made ++ [⟨ledger.following limits made.length, type, ends, none⟩]) next) ∨
      (ledger.handedOut.length + made.length = limits.capacity ∧
        ∃ next, (insert type ends).run left = ⟨.error .capacityExceeded, next, []⟩ ∧
          Progress limits ledger made next) := by
  obtain ⟨builds, numbered⟩ := progress
  have sound := numbered.sound.insert fits
  have counted : (ledger.handedOut ++ made.map Draft.address).length =
      ledger.handedOut.length + made.length := by
    rw [List.length_append, List.length_map]
  have settled := numbered.settled
  have bounded := numbered.length_le
  rw [counted] at settled bounded
  obtain rfl : left.limits = limits := numbered.limits_eq
  have inserted := run_insert_eq valid bounded settled type ends
  by_cases room : ledger.handedOut.length + made.length < left.limits.capacity
  · rw [if_pos room] at inserted
    rw [inserted] at sound
    refine .inl ⟨_, inserted, ?_, ?_⟩
    · exact builds.extended (numbered.sound.ahead.isElement_place settled)
    · have extended := numbered.extended valid (counted ▸ room) (counted ▸ sound)
      rw [counted] at extended
      rw [List.map_append, ← List.append_assoc]
      exact extended
  · rw [if_neg room] at inserted
    rw [inserted] at sound
    have refused := numbered.refused valid (counted ▸ sound)
    rw [counted] at refused
    refine .inr ⟨by omega, _, inserted, ?_, refused⟩
    exact ⟨builds.nodup, builds.vacant, builds.draft?_eq, builds.kept, builds.isElement_cases⟩

/-- The element that was made last is given its identifier, unless another has owned that from the
start. -/
theorem Progress.run_assignIdentifier {draft : Draft}
    (progress : Progress limits ledger (made ++ [draft.nameless]) left)
    (valid : limits.validate = .ok ()) (start : ledger.memory.Named) {name : String}
    (named : draft.identifier = some name) (filled : name ≠ "")
    (unused : name ∉ made.filterMap Draft.identifier) :
    (∃ next, (assignIdentifier draft.address name).run left = ⟨.ok (), next, []⟩ ∧
        Progress limits ledger (made ++ [draft]) next) ∨
      ∃ owner error, ledger.memory.owner? name = some owner ∧
        (assignIdentifier draft.address name).run left = ⟨.error error, left, []⟩ := by
  obtain ⟨builds, numbered⟩ := progress
  obtain ⟨element, found, _, _, nameless⟩ := builds.exists_element List.mem_concat_self
  rw [Draft.address_nameless] at found
  have ran := left.run_assignIdentifier draft.address name
  rw [found] at ran
  cases owned : ledger.memory.owner? name with
  | none =>
      have free := builds.owner?_eq_none start numbered.sound.named owned (by
        rw [List.filterMap_append]
        simpa [Draft.nameless] using unused)
      rw [free] at ran
      dsimp only at ran
      rw [nameless, Draft.identifier_nameless] at ran
      have recorded := numbered.record valid (.assignIdentifier draft.address name)
      have reached : ((assignIdentifier draft.address name).run left).state =
          left.renamed draft.address none name := congrArg Reply.state ran
      refine .inl ⟨_, ran, builds.renamed named filled, ?_⟩
      rw [← Draft.addresses_nameless, ← reached]
      exact recorded
  | some owner =>
      have distinct : owner ≠ draft.address := by
        rintro rfl
        have lives := start.isElement_of_owner? owned
        have vacant := builds.vacant List.mem_concat_self
        rw [Draft.address_nameless, lives] at vacant
        contradiction
      have stillOwned := builds.owner?_eq start numbered.sound.named owned
      rw [stillOwned] at ran
      exact .inr ⟨owner, _, rfl, ran.trans (if_neg distinct)⟩

/-- Where a set-up stops, and what it has made by then: it needs a place and finds all taken, or it
needs an identifier and finds that it is owned. -/
inductive Stops (limits : Limits) (ledger : Ledger) : List Draft → Stage → List Draft → Prop where
  | full {made rest : List Draft} {next : Draft}
      (noPlace : ledger.handedOut.length + made.length = limits.capacity) :
      Stops limits ledger (made ++ next :: rest) next.stage made
  | taken {made rest : List Draft} {next : Draft} {name : String} {owner : Address}
      (named : next.identifier = some name) (owned : ledger.memory.owner? name = some owner) :
      Stops limits ledger (made ++ next :: rest) .assignIdentifier (made ++ [next.nameless])

theorem Stops.append {stage : Stage} (stops : Stops limits ledger drafts stage made)
    (more : List Draft) : Stops limits ledger (drafts ++ more) stage made := by
  cases stops with
  | full noPlace =>
      rw [List.append_assoc, List.cons_append]
      exact .full noPlace
  | taken named owned =>
      rw [List.append_assoc, List.cons_append]
      exact .taken named owned

/-- Apart from identifiers, what was made comes first among the drafts. -/
theorem Stops.isPrefix {stage : Stage} (stops : Stops limits ledger drafts stage made) :
    made.map Draft.nameless <+: drafts.map Draft.nameless := by
  cases stops with
  | full noPlace =>
      rw [List.map_append]
      exact List.prefix_append _ _
  | taken named owned =>
      rw [List.map_append, List.map_append, List.map_cons, List.prefix_append_right_inj]
      exact ⟨_, rfl⟩

/-- How a set-up that goes through the drafts can end. -/
inductive Outcome (limits : Limits) (ledger : Ledger) (drafts : List Draft) {α : Type} (value : α) :
    Reply Memory Stage α → Prop where
  | completed {left : Memory} {events : List Event}
      (progress : Progress limits ledger drafts left) :
      Outcome limits ledger drafts value ⟨.ok value, left, events⟩
  | stopped {stage : Stage} {made : List Draft} {left : Memory} {events : List Event}
      (stops : Stops limits ledger drafts stage made)
      (progress : Progress limits ledger made left) :
      Outcome limits ledger drafts value ⟨.error stage, left, events⟩

/-- A set-up in two parts goes through the drafts of the first and then through those of the
second. -/
theorem Outcome.bind {α β : Type} {value : α} {last : β} {memory : Memory}
    {first : Action Memory Stage α} {next : α → Action Memory Stage β}
    (opening : Outcome limits ledger drafts value (first.run memory))
    (closing : ∀ middle, Progress limits ledger drafts middle →
      Outcome limits ledger (drafts ++ more) last ((next value).run middle)) :
    Outcome limits ledger (drafts ++ more) last ((first >>= next).run memory) := by
  generalize ran : first.run memory = reply at opening
  cases opening with
  | completed progress =>
      have closed := closing _ progress
      rw [Action.run_bind_of_ok ran]
      generalize (next value).run _ = reply at closed
      cases closed with
      | completed progress => exact .completed progress
      | stopped stops progress => exact .stopped stops progress
  | stopped stops progress =>
      rw [Action.run_bind_of_error ran]
      exact .stopped (stops.append more) progress

section Outcome

variable {α : Type} {value : α} {reply : Reply Memory Stage α}

theorem Outcome.of_ok (outcome : Outcome limits ledger drafts value reply) {given : α}
    (got : reply.result = .ok given) :
    given = value ∧ Progress limits ledger drafts reply.state := by
  cases outcome with
  | completed progress => exact ⟨(Except.ok.inj got).symm, progress⟩
  | stopped stops progress => cases got

theorem Outcome.of_error (outcome : Outcome limits ledger drafts value reply) {stage : Stage}
    (failed : reply.result = .error stage) :
    ∃ made, Stops limits ledger drafts stage made ∧ Progress limits ledger made reply.state := by
  cases outcome with
  | completed progress => cases failed
  | stopped stops progress =>
      cases failed
      exact ⟨_, stops, progress⟩

/-- However a set-up ends, what was made comes first among the drafts. -/
theorem Outcome.progress (outcome : Outcome limits ledger drafts value reply) :
    ∃ made, made.map Draft.nameless <+: drafts.map Draft.nameless ∧
      Progress limits ledger made reply.state := by
  cases outcome with
  | completed progress => exact ⟨drafts, List.prefix_refl _, progress⟩
  | stopped stops progress => exact ⟨_, stops.isPrefix, progress⟩

/-- A set-up gets through exactly when the identifiers of its drafts are free and there is a place
for each of its elements. -/
theorem Outcome.exists_ok_iff (outcome : Outcome limits ledger drafts value reply)
    (start : ledger.memory.Named) :
    (∃ given, reply.result = .ok given) ↔
      (∀ name, (∃ draft ∈ drafts, draft.identifier = some name) →
        ledger.memory.owner? name = none) ∧
      ledger.handedOut.length + drafts.length ≤ limits.capacity := by
  cases outcome with
  | completed progress =>
      refine iff_of_true ⟨value, rfl⟩ ⟨?_, progress.length_le⟩
      rintro name ⟨draft, member, carries⟩
      exact progress.builds.free_of_mem start progress.numbered.sound.named member carries
  | stopped stops progress =>
      refine iff_of_false nofun ?_
      rintro ⟨free, room⟩
      cases stops with
      | full noPlace =>
          rw [List.length_append, List.length_cons] at room
          omega
      | taken named owned =>
          have unowned := free _ ⟨_, List.mem_append_right _ List.mem_cons_self, named⟩
          rw [owned] at unowned
          contradiction

end Outcome

section Parts

variable (valid : limits.validate = .ok ()) (start : ledger.memory.Named)
  (progress : Progress limits ledger made left)

include valid progress

theorem Progress.markOrderRole {relation role : Address}
    (relationMade : relation ∈ made.map Draft.address) (roleMade : role ∈ made.map Draft.address) :
    Outcome limits ledger
      (made ++ [.membershipArc (ledger.following limits made.length) relation role])
      (ledger.following limits made.length)
      ((atStage .markOrderRole
        (TripleStore.createEdge .membershipArc relation role)).run left) := by
  have fits : ElementType.membershipArc.fitsEdge = true := by decide
  have relationLives := progress.builds.isElement_of_mem relationMade
  have roleLives := progress.builds.isElement_of_mem roleMade
  have created : (TripleStore.createEdge .membershipArc relation role).run left =
      (insert .membershipArc (some (relation, role))).run left := by
    refine (left.run_createEdge .membershipArc relation role).trans ?_
    rw [if_pos fits, if_pos relationLives, if_pos roleLives]
  rcases progress.run_insert valid fun _ => fits_edge fits relationLives roleLives with
    ⟨next, inserted, progress⟩ | ⟨noPlace, next, refused, progress⟩
  · rw [run_atStage (created.trans inserted)]
    exact .completed progress
  · rw [run_atStage (created.trans refused)]
    exact .stopped (.full noPlace) progress

include start

theorem Progress.namedNode {name : String} (filled : name ≠ "")
    (unused : name ∉ made.filterMap Draft.identifier) :
    Outcome limits ledger (made ++ [.namedNode (ledger.following limits made.length) name])
      (ledger.following limits made.length) ((Setup.namedNode name).run left) := by
  have fits : ElementType.nodeConst.fitsNode = true := by decide
  have created : (TripleStore.createNode .nodeConst).run left =
      (insert .nodeConst none).run left :=
    (left.run_createNode .nodeConst).trans (if_pos fits)
  obtain ⟨single, notEdge⟩ := isEdge_of_fitsNode fits
  rcases progress.run_insert valid fun _ => fits_leaf single notEdge with
    ⟨middle, inserted, progress⟩ | ⟨noPlace, middle, refused, progress⟩
  · have progress : Progress limits ledger
        (made ++ [(Draft.namedNode (ledger.following limits made.length) name).nameless]) middle :=
      progress
    rw [Setup.namedNode, Action.run_bind_of_ok (run_atStage (created.trans inserted))]
    rcases progress.run_assignIdentifier valid start rfl filled unused with
      ⟨next, assigned, progress⟩ | ⟨owner, error, owned, refused⟩
    · have assigned : (TripleStore.assignIdentifier (ledger.following limits made.length)
          name).run middle = ⟨.ok (), next, []⟩ := assigned
      rw [Action.run_bind_of_ok (run_atStage assigned)]
      exact .completed progress
    · have refused : (TripleStore.assignIdentifier (ledger.following limits made.length)
          name).run middle = ⟨.error error, middle, []⟩ := refused
      rw [Action.run_bind_of_error (run_atStage refused)]
      exact .stopped (.taken rfl owned) progress
  · rw [Setup.namedNode, Action.run_bind_of_error (run_atStage (created.trans refused))]
    exact .stopped (.full noPlace) progress

end Parts

end Ledger

end SemanticMemory
