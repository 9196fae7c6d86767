import SemanticMemory.Event

/-!
# Actions on a state

An action reads and changes a state, reports events, and ends with a value or with an error.  The
state and the events that came before an error are kept: nothing is undone.  The events of an
action never depend on events that came before it.
-/

namespace SemanticMemory

/-- What an action leaves behind. -/
structure Reply (σ ε α : Type) where
  result : Except ε α
  state : σ
  events : List Event

/-- A computation that may change a state of type `σ` and may fail with an `ε`. -/
def Action (σ ε α : Type) : Type :=
  σ → Reply σ ε α

namespace Action

variable {σ τ ε δ α β : Type}

def run (action : Action σ ε α) (state : σ) : Reply σ ε α :=
  action state

/-- Ends with a value and does nothing else. -/
protected def pure (value : α) : Action σ ε α :=
  fun state => ⟨.ok value, state, []⟩

/-- Goes on with the value of the first action, from the state that it left. -/
protected def bind (first : Action σ ε α) (next : α → Action σ ε β) : Action σ ε β :=
  fun state =>
    match first.run state with
    | ⟨.error error, stopped, events⟩ => ⟨.error error, stopped, events⟩
    | ⟨.ok value, reached, events⟩ =>
        let later := (next value).run reached
        ⟨later.result, later.state, events ++ later.events⟩

instance : Monad (Action σ ε) where
  pure := Action.pure
  bind := Action.bind

/-- Ends with an error and does nothing else. -/
def fail (error : ε) : Action σ ε α :=
  fun state => ⟨.error error, state, []⟩

def emit (event : Event) : Action σ ε Unit :=
  fun state => ⟨.ok (), state, [event]⟩

/-- Asks the state a question that may have no answer. -/
def query (question : σ → Except ε α) : Action σ ε α :=
  fun state => ⟨question state, state, []⟩

/-- Asks the state a question that always has an answer. -/
def view (question : σ → α) : Action σ ε α :=
  fun state => ⟨.ok (question state), state, []⟩

/-- Ends with a value or an error that is already known. -/
def ofExcept (result : Except ε α) : Action σ ε α :=
  fun state => ⟨result, state, []⟩

/-- Words the error of an action anew. -/
def mapError (wording : ε → δ) (action : Action σ ε α) : Action σ δ α :=
  fun state =>
    let reply := action.run state
    ⟨reply.result.mapError wording, reply.state, reply.events⟩

def onPart (part : τ → σ) (replace : τ → σ → τ) (action : Action σ ε α) : Action τ ε α :=
  fun state =>
    let reply := action.run (part state)
    ⟨reply.result, replace state reply.state, reply.events⟩

@[simp]
theorem run_pure (value : α) (state : σ) :
    (pure value : Action σ ε α).run state = ⟨.ok value, state, []⟩ :=
  rfl

@[simp]
theorem run_fail (error : ε) (state : σ) :
    (fail error : Action σ ε α).run state = ⟨.error error, state, []⟩ :=
  rfl

@[simp]
theorem run_emit (event : Event) (state : σ) :
    (emit event : Action σ ε Unit).run state = ⟨.ok (), state, [event]⟩ :=
  rfl

@[simp]
theorem run_query (question : σ → Except ε α) (state : σ) :
    (query question).run state = ⟨question state, state, []⟩ :=
  rfl

@[simp]
theorem run_view (question : σ → α) (state : σ) :
    (view question : Action σ ε α).run state = ⟨.ok (question state), state, []⟩ :=
  rfl

@[simp]
theorem run_ofExcept (result : Except ε α) (state : σ) :
    (ofExcept result : Action σ ε α).run state = ⟨result, state, []⟩ :=
  rfl

@[simp]
theorem run_mapError (wording : ε → δ) (action : Action σ ε α) (state : σ) :
    (action.mapError wording).run state =
      ⟨(action.run state).result.mapError wording, (action.run state).state,
        (action.run state).events⟩ :=
  rfl

/-- Wording an error anew makes no error of a value. -/
theorem run_mapError_eq_error_iff {wording : ε → δ} {action : Action σ ε α} {state stopped : σ}
    {error : δ} {events : List Event} :
    (action.mapError wording).run state = ⟨.error error, stopped, events⟩ ↔
      ∃ cause, action.run state = ⟨.error cause, stopped, events⟩ ∧ wording cause = error := by
  rw [run_mapError]
  constructor
  · intro reply
    rcases ran : action.run state with ⟨cause | value, reached, reported⟩
    · rw [ran] at reply
      cases reply
      exact ⟨cause, rfl, rfl⟩
    · rw [ran] at reply
      cases reply
  · rintro ⟨cause, ran, rfl⟩
    rw [ran]
    rfl

@[simp]
theorem run_onPart (part : τ → σ) (replace : τ → σ → τ) (action : Action σ ε α) (state : τ) :
    (action.onPart part replace).run state =
      ⟨(action.run (part state)).result, replace state (action.run (part state)).state,
        (action.run (part state)).events⟩ :=
  rfl

theorem run_bind_of_ok {first : Action σ ε α} {state reached : σ} {value : α}
    {events : List Event} (reply : first.run state = ⟨.ok value, reached, events⟩)
    (next : α → Action σ ε β) :
    (first >>= next).run state =
      ⟨((next value).run reached).result, ((next value).run reached).state,
        events ++ ((next value).run reached).events⟩ := by
  change Action.bind first next state = _
  simp only [Action.bind, reply]

theorem run_bind_of_error {first : Action σ ε α} {state stopped : σ} {error : ε}
    {events : List Event} (reply : first.run state = ⟨.error error, stopped, events⟩)
    (next : α → Action σ ε β) :
    (first >>= next).run state = ⟨.error error, stopped, events⟩ := by
  change Action.bind first next state = _
  simp only [Action.bind, reply]

theorem mapError_pure (wording : ε → δ) (value : α) :
    (pure value : Action σ ε α).mapError wording = pure value :=
  rfl

theorem mapError_bind (wording : ε → δ) (first : Action σ ε α) (next : α → Action σ ε β) :
    (first >>= next).mapError wording =
      first.mapError wording >>= fun value => (next value).mapError wording := by
  funext state
  change ((first >>= next).mapError wording).run state =
    (first.mapError wording >>= fun value => (next value).mapError wording).run state
  rcases opening : first.run state with ⟨error | value, reached, events⟩
  · have worded : (first.mapError wording).run state = ⟨.error (wording error), reached, events⟩ :=
      run_mapError_eq_error_iff.mpr ⟨error, opening, rfl⟩
    rw [run_mapError, run_bind_of_error opening, run_bind_of_error worded]
    rfl
  · have worded : (first.mapError wording).run state = ⟨.ok value, reached, events⟩ := by
      rw [run_mapError, opening]
      rfl
    rw [run_mapError, run_bind_of_ok opening, run_bind_of_ok worded]
    rfl

/-- The action ends with a value and leaves the state that was reached. -/
def Succeeds (action : Action σ ε α) (state : σ) (value : α) (reached : σ) : Prop :=
  ∃ events, action.run state = ⟨.ok value, reached, events⟩

section Succeeds

variable {state reached : σ} {value : α}

theorem succeeds_of_result {action : Action σ ε α}
    (result : (action.run state).result = .ok value) :
    action.Succeeds state value (action.run state).state :=
  ⟨(action.run state).events, congrArg (Reply.mk · _ _) result⟩

theorem succeeds_pure_iff {given : α} :
    (pure given : Action σ ε α).Succeeds state value reached ↔
      value = given ∧ reached = state := by
  simp [Succeeds, eq_comm]

theorem not_succeeds_fail {error : ε} :
    ¬(fail error : Action σ ε α).Succeeds state value reached := by
  simp [Succeeds]

theorem succeeds_emit_iff {event : Event} {done : Unit} :
    (emit event : Action σ ε Unit).Succeeds state done reached ↔ reached = state := by
  simp [Succeeds, eq_comm]

theorem succeeds_query_iff {question : σ → Except ε α} :
    (query question).Succeeds state value reached ↔
      question state = .ok value ∧ reached = state := by
  simp [Succeeds, eq_comm]

theorem succeeds_mapError_iff {wording : ε → δ} {action : Action σ ε α} :
    (action.mapError wording).Succeeds state value reached ↔
      action.Succeeds state value reached := by
  constructor
  · rintro ⟨events, reply⟩
    rcases ran : action.run state with ⟨result, stopped, reported⟩
    rw [run_mapError, ran] at reply
    cases result with
    | error error => cases reply
    | ok given =>
        cases reply
        exact ⟨reported, ran⟩
  · rintro ⟨events, reply⟩
    exact ⟨events, by rw [run_mapError, reply]; rfl⟩

/-- Two actions in a row succeed when the first does and the second does from there. -/
theorem succeeds_bind_iff {first : Action σ ε β} {next : β → Action σ ε α} :
    (first >>= next).Succeeds state value reached ↔
      ∃ middle between, first.Succeeds state middle between ∧
        (next middle).Succeeds between value reached := by
  constructor
  · rintro ⟨events, reply⟩
    rcases opening : first.run state with ⟨error | middle, between, earlier⟩
    · rw [run_bind_of_error opening] at reply
      cases reply
    · rw [run_bind_of_ok opening] at reply
      rcases closing : (next middle).run between with ⟨result, left, later⟩
      rw [closing] at reply
      cases reply
      exact ⟨middle, between, ⟨earlier, opening⟩, ⟨later, closing⟩⟩
  · rintro ⟨middle, between, ⟨earlier, opening⟩, ⟨later, closing⟩⟩
    refine ⟨earlier ++ later, ?_⟩
    rw [run_bind_of_ok opening, closing]

end Succeeds

instance : LawfulMonad (Action σ ε) :=
  LawfulMonad.mk' (Action σ ε)
    (by
      intro α action
      funext state
      change Action.bind action (fun value => Action.pure value) state = action.run state
      simp only [Action.bind]
      split
      · next reply => exact reply.symm
      · next reply => simpa [Action.pure, run] using reply.symm)
    (by
      intro α β value next
      rfl)
    (by
      intro α β γ first next last
      funext state
      change Action.bind (Action.bind first next) last state =
        Action.bind first (fun value => Action.bind (next value) last) state
      simp only [Action.bind, run]
      rcases first state with ⟨_ | value, reached, events⟩
      · rfl
      · simp only
        rcases next value reached with ⟨_ | later, _, _⟩ <;> simp)

/-- Actions that leave the state alone may be done one for each input. -/
theorem succeeds_mapM {step : β → Action σ ε α} {answer : β → α} {state : σ} {inputs : List β}
    (each : ∀ input ∈ inputs, (step input).Succeeds state (answer input) state) :
    (inputs.mapM step).Succeeds state (inputs.map answer) state := by
  induction inputs with
  | nil => exact succeeds_pure_iff.mpr ⟨rfl, rfl⟩
  | cons input inputs ih =>
      rw [List.forall_mem_cons] at each
      rw [List.mapM_cons, succeeds_bind_iff]
      refine ⟨answer input, state, each.1, ?_⟩
      rw [succeeds_bind_iff]
      exact ⟨_, state, ih each.2, succeeds_pure_iff.mpr ⟨rfl, rfl⟩⟩

end Action

end SemanticMemory
