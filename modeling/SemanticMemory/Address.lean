import Std.Data.ExtTreeMap

/-!
# Addresses

Every element of the memory lives at an address: a segment and an offset in that segment, both
sixteen bits wide.  Addresses are ordered segment by segment.  The order is the order of their
`rank`, a natural number, and it makes addresses fit as keys of an ordered table.
-/

namespace SemanticMemory

/-- The place of an element: a segment and an offset within it. -/
structure Address where
  segment : UInt16
  offset : UInt16
  deriving DecidableEq, Inhabited

namespace Address

/-- The position of an address in the segment-major order. -/
def rank (address : Address) : Nat :=
  65536 * address.segment.toNat + address.offset.toNat

theorem rank_lt (address : Address) : address.rank < UInt32.size := by
  have segmentBound := address.segment.toNat_lt
  have offsetBound := address.offset.toNat_lt
  unfold rank UInt32.size
  omega

theorem rank_injective {first second : Address} (ranks : first.rank = second.rank) :
    first = second := by
  have firstBound := first.offset.toNat_lt
  have secondBound := second.offset.toNat_lt
  cases first
  cases second
  simp only [rank] at ranks firstBound secondBound
  simp only [mk.injEq, ← UInt16.toNat_inj]
  omega

theorem rank_inj {first second : Address} : first.rank = second.rank ↔ first = second :=
  ⟨rank_injective, fun equal => equal ▸ rfl⟩

instance : LT Address :=
  ⟨fun first second => first.rank < second.rank⟩

instance : LE Address :=
  ⟨fun first second => first.rank ≤ second.rank⟩

instance (first second : Address) : Decidable (first < second) :=
  inferInstanceAs (Decidable (first.rank < second.rank))

instance (first second : Address) : Decidable (first ≤ second) :=
  inferInstanceAs (Decidable (first.rank ≤ second.rank))

theorem lt_iff {first second : Address} : first < second ↔ first.rank < second.rank :=
  Iff.rfl

theorem le_iff {first second : Address} : first ≤ second ↔ first.rank ≤ second.rank :=
  Iff.rfl

/-- The order compares segments first and offsets within one segment. -/
theorem lt_iff_segment_offset {first second : Address} :
    first < second ↔ first.segment < second.segment ∨
      first.segment = second.segment ∧ first.offset < second.offset := by
  have firstBound := first.offset.toNat_lt
  have secondBound := second.offset.toNat_lt
  simp only [lt_iff, rank, UInt16.lt_iff_toNat_lt, ← UInt16.toNat_inj]
  omega

instance : Ord Address :=
  ⟨fun first second => compare first.rank second.rank⟩

theorem compare_eq (first second : Address) :
    compare first second = compare first.rank second.rank :=
  rfl

instance : Std.TransOrd Address where
  eq_swap {first second} := by
    simp only [compare_eq]
    exact Std.OrientedOrd.eq_swap
  isLE_trans {first second third} lower upper := by
    simp only [compare_eq] at lower upper ⊢
    exact Std.TransOrd.isLE_trans lower upper

instance : Std.LawfulEqOrd Address where
  eq_of_compare {first second} equal := by
    rw [compare_eq, Nat.compare_eq_eq] at equal
    exact rank_injective equal

/-- Both halves of an address in one word, the segment in the high half. -/
def toUInt32 (address : Address) : UInt32 :=
  address.segment.toUInt32 <<< 16 ||| address.offset.toUInt32

/-- The address whose halves are the halves of a word. -/
def ofUInt32 (word : UInt32) : Address :=
  ⟨(word >>> 16).toUInt16, word.toUInt16⟩

/-- The packed word of an address is its rank, so packing keeps the order. -/
@[simp]
theorem toNat_toUInt32 (address : Address) : address.toUInt32.toNat = address.rank := by
  have segmentBound := address.segment.toNat_lt
  have offsetBound := address.offset.toNat_lt
  have shifted : (address.segment.toUInt32 <<< 16).toNat = address.segment.toNat <<< 16 := by
    simp [UInt32.toNat_shiftLeft, Nat.shiftLeft_eq]
    omega
  rw [toUInt32, UInt32.toNat_or, shifted, UInt16.toNat_toUInt32,
    ← Nat.shiftLeft_add_eq_or_of_lt (by omega), Nat.shiftLeft_eq, rank, Nat.mul_comm]

@[simp]
theorem rank_ofUInt32 (word : UInt32) : (ofUInt32 word).rank = word.toNat := by
  have wordBound := word.toNat_lt
  simp only [ofUInt32, rank, UInt32.toNat_toUInt16, UInt32.toNat_shiftRight,
    Nat.shiftRight_eq_div_pow, UInt32.reduceToNat, Nat.reduceMod, Nat.reducePow]
  omega

@[simp]
theorem ofUInt32_toUInt32 (address : Address) : ofUInt32 address.toUInt32 = address :=
  rank_injective (by simp)

@[simp]
theorem toUInt32_ofUInt32 (word : UInt32) : (ofUInt32 word).toUInt32 = word :=
  UInt32.toNat_inj.mp (by simp)

/-- An address is written as its segment and its offset in decimal, with a bar between them. -/
def text (address : Address) : String :=
  toString address.segment.toNat ++ "|" ++ toString address.offset.toNat

end Address

end SemanticMemory
