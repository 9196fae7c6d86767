import SemanticMemory.Action
import SemanticMemory.Failure

/-!
# Sinks for output

A sink takes bytes up to a limit.  A text that does not fit fills the sink up and fails, so a sink
always holds the first bytes of what was meant for it.
-/

namespace SemanticMemory

structure Sink where
  /-- The number of bytes that fit; a sink without a limit takes everything. -/
  limit : Option Nat
  bytes : ByteArray

namespace Sink

def unlimited : Sink :=
  ⟨none, .empty⟩

def limited (limit : Nat) : Sink :=
  ⟨some limit, .empty⟩

/-- Writes a text, or as much of it as fits. -/
def write (text : String) : Action Sink Failure Unit :=
  fun sink =>
    let whole := sink.bytes ++ text.toUTF8
    match sink.limit with
    | none => ⟨.ok (), { sink with bytes := whole }, []⟩
    | some limit =>
        if whole.size ≤ limit then ⟨.ok (), { sink with bytes := whole }, []⟩
        else ⟨.error .outputFull, { sink with bytes := whole.extract 0 limit }, []⟩

theorem run_write_unlimited (text : String) (bytes : ByteArray) :
    (write text).run ⟨none, bytes⟩ = ⟨.ok (), ⟨none, bytes ++ text.toUTF8⟩, []⟩ :=
  rfl

/-- A limited sink takes the first bytes of what it holds and is given, whether all fits or not. -/
theorem bytes_write_limited (text : String) (limit : Nat) (bytes : ByteArray) :
    ((write text).run ⟨some limit, bytes⟩).state =
      ⟨some limit, (bytes ++ text.toUTF8).extract 0 limit⟩ := by
  simp only [write, Action.run]
  split
  · next fits =>
      have kept : (bytes ++ text.toUTF8).extract 0 limit = bytes ++ text.toUTF8 := by
        ext1
        rw [ByteArray.data_extract]
        exact Array.extract_eq_self_of_le fits
      rw [kept]
  · rfl

end Sink

end SemanticMemory
