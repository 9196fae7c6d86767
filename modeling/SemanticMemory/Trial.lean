import SemanticMemory.Layer.Faulty
import SemanticMemory.Layer.Journaled
import SemanticMemory.Session

/-!
# Trials

A trial takes a layer that makes calls fail through steps, and its thresholds may be moved between
any two of them.  The transcript of a trial lists every call that a step comes down to, with the
answer of the layer, and every move of a threshold.  What a transcript tells, it tells of the past
alone: which threshold is in force, how many calls were made, and which calls came through.
-/

namespace SemanticMemory

/-- The kind of a call that can be made to fail on purpose. -/
def Call.kind? : Call → Option GuardedCall
  | createEdge _ _ _ => some .createEdge
  | erase _ => some .erase
  | _ => none

namespace Record

/-- Whether the call was not made to fail on purpose. -/
def cameThrough (record : Record) : Bool :=
  match record.answer with
  | .error (.injected _) => false
  | _ => true

theorem cameThrough_eq_true_iff {record : Record} :
    record.cameThrough = true ↔ ∀ kind, record.answer ≠ .error (.injected kind) := by
  unfold cameThrough
  split
  · next kind failed => exact iff_of_false nofun fun never => never kind failed
  · next answered => exact iff_of_true rfl fun kind failed => answered kind failed

theorem cameThrough_of_injected {record : Record} {kind : GuardedCall}
    (failed : record.answer = .error (.injected kind)) : record.cameThrough = false :=
  Bool.eq_false_iff.mpr fun through => cameThrough_eq_true_iff.mp through kind failed

end Record

namespace Step

/-- The calls that a step comes down to, with their answers. -/
def journal {σ : Type} [TripleStore σ] (store : σ) : Step → List Record
  | ask request => (request.action.run (Journaled.blank store)).state.journal
  | reportUnknownOperatorType operator =>
      ((Diagnostics.reportUnknownOperatorType operator : Action _ Failure Unit).run
        (Journaled.blank store)).state.journal
  | reportError description address =>
      ((Diagnostics.reportError description address : Action _ Failure Unit).run
        (Journaled.blank store)).state.journal
  | clear => [⟨.clear, .ok ()⟩]

end Step

/-- What comes next in a trial. -/
inductive Turn where
  | step (next : Step)
  | failFrom (kind : GuardedCall) (threshold : UInt64)
  | mend

/-- What is written in a transcript. -/
inductive Entry where
  | called (record : Record)
  /-- Calls of the kind are to fail from the one with the number on; zero lets all through. -/
  | armed (kind : GuardedCall) (threshold : UInt64)

namespace Turn

def apply (layer : Faulty Memory) : Turn → Faulty Memory
  | step next => (next.action.run layer).state
  | failFrom kind threshold => layer.failFrom kind threshold
  | mend => layer.mend

def entries (layer : Faulty Memory) : Turn → List Entry
  | step next => (next.journal layer).map .called
  | failFrom kind threshold => [.armed kind threshold]
  | mend => [.armed .createEdge 0, .armed .erase 0]

end Turn

namespace Trial

def after (layer : Faulty Memory) (turns : List Turn) : Faulty Memory :=
  turns.foldl Turn.apply layer

def transcript (layer : Faulty Memory) : List Turn → List Entry
  | [] => []
  | turn :: turns => turn.entries layer ++ transcript (turn.apply layer) turns

end Trial

namespace Entry

/-- The threshold for a kind of call after the entry, where it was `threshold` before. -/
def rearm (kind : GuardedCall) (threshold : UInt64) : Entry → UInt64
  | called _ => threshold
  | armed other value => if other = kind then value else threshold

def isCall (kind : GuardedCall) : Entry → Bool
  | called record => record.call.kind? = some kind
  | armed _ _ => false

/-- The call of the entry, if there was one that came through. -/
def passedOn? : Entry → Option Call
  | called record => if record.cameThrough then some record.call else none
  | armed _ _ => none

end Entry

namespace Transcript

/-- The threshold in force after the entries. -/
def threshold (kind : GuardedCall) (entries : List Entry) : UInt64 :=
  entries.foldl (Entry.rearm kind) 0

/-- The number of calls of a kind, whatever became of them. -/
def calls (kind : GuardedCall) (entries : List Entry) : Nat :=
  entries.countP (Entry.isCall kind)

/-- The calls that were not made to fail. -/
def passedOn (entries : List Entry) : List Call :=
  entries.filterMap Entry.passedOn?

end Transcript

end SemanticMemory
