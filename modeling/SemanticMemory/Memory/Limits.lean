import SemanticMemory.Failure

/-!
# Limits of a memory

A memory hands out addresses segment by segment, within limits that are fixed when it is made.
-/

namespace SemanticMemory

/-- How many addresses a memory can hand out. -/
structure Limits where
  segmentSize : UInt16
  maxSegments : UInt16
  deriving DecidableEq

namespace Limits

def standard : Limits :=
  ⟨4096, 256⟩

/-- Refuses limits that leave no room, and looks at the size of a segment first. -/
def validate (limits : Limits) : Except ConfigError Unit :=
  if limits.segmentSize < 1 then .error (.belowOne .segmentSize)
  else if limits.maxSegments < 1 then .error (.belowOne .maxSegments)
  else .ok ()

def capacity (limits : Limits) : Nat :=
  limits.segmentSize.toNat * limits.maxSegments.toNat

theorem validate_eq_ok_iff {limits : Limits} :
    limits.validate = .ok () ↔ 1 ≤ limits.segmentSize ∧ 1 ≤ limits.maxSegments := by
  simp only [validate, ← UInt16.not_lt]
  split
  · simp_all
  · split <;> simp_all

end Limits

end SemanticMemory
