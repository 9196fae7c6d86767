import SemanticMemory.Memory.Limits

/-!
# Allocation of addresses

A cursor moves through the addresses.  Offsets start at one in every segment, so `0|0` is never
handed out, and no address is handed out twice.
-/

namespace SemanticMemory

namespace Address

def first : Address :=
  ⟨0, 1⟩

/-- The first address of the following segment, if there is a following segment. -/
def nextSegment (address : Address) : Option Address :=
  if address.segment = 65535 then none else some ⟨address.segment + 1, 1⟩

/-- The following offset of the same segment; the offset after the last is zero. -/
def nextOffset (address : Address) : Address :=
  ⟨address.segment, address.offset + 1⟩

end Address

namespace Limits

/-- Where the cursor goes before an address is taken: it stays within its segment, and from past
the end of the segment it moves to the following one.  An offset of zero is past the end of a
segment of full width. -/
def settle (limits : Limits) (cursor : Address) : Option Address :=
  if limits.segmentSize < cursor.offset ∨ cursor.offset = 0 then cursor.nextSegment
  else some cursor

/-- Hands out the address under the settled cursor and moves the cursor past it.  Past the last
segment nothing is handed out, but the cursor stays settled. -/
def allocate (limits : Limits) (cursor : Address) : Except StoreError Address × Address :=
  match limits.settle cursor with
  | none => (.error .capacityExceeded, cursor)
  | some place =>
      if place.segment < limits.maxSegments then (.ok place, place.nextOffset)
      else (.error .capacityExceeded, place)

end Limits

end SemanticMemory
