import SemanticMemory.Proofs.Likeness
import SemanticMemory.Proofs.Members

/-!
# What requests do to a memory

Whatever a request does to a memory, calls to the memory can do as well.  A session therefore leads
from a memory that calls lead to, to a memory that calls lead to.
-/

namespace SemanticMemory

open TripleStore

namespace Request

open Memory

variable {memory : Memory}

/-- A request does to a memory what some calls do. -/
theorem exists_calls (sound : memory.Sound) (request : Request) :
    ∃ calls : List Call, .clear ∉ calls ∧
      (request.action.run memory).state = memory.after calls := by
  cases request with
  | createNode type => exact ⟨[.createNode type], by simp, rfl⟩
  | createLink => exact ⟨[.createLink], by simp, rfl⟩
  | createEdge type source target => exact ⟨[.createEdge type source target], by simp, rfl⟩
  | erase address => exact ⟨[.erase address], by simp, rfl⟩
  | assignIdentifier address name => exact ⟨[.assignIdentifier address name], by simp, rfl⟩
  | addMember set element =>
      change ∃ calls, _ ∧ ((Membership.add set element).run memory).state = _
      rcases sound.linked.state_add_cases set element with unchanged | made
      · exact ⟨[], by simp, unchanged⟩
      · exact ⟨[.createEdge .membershipArc set element], by simp, made⟩
  | removeMember set element =>
      obtain ⟨_, removed⟩ := sound.linked.succeeds_remove set element
      exact ⟨erasures (memory.scan (Membership.arcs set element)), by simp [erasures],
        congrArg Reply.state removed⟩
  | _ => exact ⟨[], by simp, state_of_isQuestion (by trivial) memory⟩

end Request

namespace Memory

variable {memory : Memory}

theorem Reachable.request (reachable : Reachable memory) (request : Request) :
    Reachable (request.action.run memory).state := by
  obtain ⟨calls, _, left⟩ := request.exists_calls reachable.sound
  rw [left]
  exact reachable.after calls

theorem Reachable.session (reachable : Reachable memory) (steps : List Step) :
    Reachable (Session.after memory steps) := by
  induction steps generalizing memory with
  | nil => exact reachable
  | cons step steps ih =>
      refine ih ?_
      cases step with
      | ask request => exact reachable.request request
      | reportUnknownOperatorType | reportError => exact reachable
      | clear => exact reachable.step .clear

end Memory

end SemanticMemory
