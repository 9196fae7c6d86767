import SemanticMemory.Memory.Store

/-!
# Histories of a memory

The states that matter are those that a memory can come to: it starts empty, under limits that
leave room, and is changed by calls, some of which may fail.
-/

namespace SemanticMemory

/-- A call that may change a memory. -/
inductive Call where
  | createNode (type : ElementType)
  | createLink
  | createEdge (type : ElementType) (source target : Address)
  | erase (address : Address)
  | assignIdentifier (address : Address) (identifier : String)
  | clear
  deriving DecidableEq

namespace Call

/-- What becomes of a memory by the call, whether it succeeds or fails. -/
def apply (memory : Memory) : Call → Memory
  | createNode type => ((Memory.createNode type).run memory).state
  | createLink => (Memory.createLink.run memory).state
  | createEdge type source target => ((Memory.createEdge type source target).run memory).state
  | erase address => ((Memory.erase address).run memory).state
  | assignIdentifier address identifier =>
      ((Memory.assignIdentifier address identifier).run memory).state
  | clear => memory.clear

end Call

namespace Memory

def after (memory : Memory) (calls : List Call) : Memory :=
  calls.foldl Call.apply memory

/-- A memory that some sequence of calls leads to. -/
inductive Reachable : Memory → Prop where
  | empty {limits : Limits} (valid : limits.validate = .ok ()) : Reachable (.empty limits)
  | step {memory : Memory} (reachable : Reachable memory) (call : Call) :
      Reachable (call.apply memory)

@[simp]
theorem after_nil (memory : Memory) : memory.after [] = memory :=
  rfl

@[simp]
theorem after_cons (memory : Memory) (call : Call) (calls : List Call) :
    memory.after (call :: calls) = (call.apply memory).after calls :=
  rfl

theorem after_append (memory : Memory) (earlier later : List Call) :
    memory.after (earlier ++ later) = (memory.after earlier).after later :=
  List.foldl_append

theorem Reachable.after {memory : Memory} (reachable : Reachable memory) (calls : List Call) :
    Reachable (memory.after calls) := by
  induction calls generalizing memory with
  | nil => exact reachable
  | cons call calls ih => exact ih (reachable.step call)

/-- The reachable memories are those that come out of an empty one. -/
theorem reachable_iff {memory : Memory} :
    Reachable memory ↔
      ∃ limits calls, limits.validate = .ok () ∧ memory = (Memory.empty limits).after calls := by
  constructor
  · intro reachable
    induction reachable with
    | empty valid => exact ⟨_, [], valid, rfl⟩
    | step reachable call ih =>
        obtain ⟨limits, calls, valid, rfl⟩ := ih
        exact ⟨limits, calls ++ [call], valid, by rw [after_append, after_cons, after_nil]⟩
  · rintro ⟨limits, calls, valid, rfl⟩
    exact Reachable.after (.empty valid) calls

end Memory

end SemanticMemory
