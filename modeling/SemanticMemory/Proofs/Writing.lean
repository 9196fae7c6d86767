import SemanticMemory.Sink

/-!
# What an action writes

An action that looks at nothing in a sink is known by the text that it writes and by how it ends.
The whole text goes into a sink that has room for it.  A sink that has not takes the first bytes of
the text, and there the action fails, in whatever pieces the text comes.
-/

namespace SemanticMemory

namespace Sink

variable {α β : Type}

/-- The action writes the text and ends with the result, or it fails where a sink is full. -/
structure Writes (action : Action Sink Failure α) (text : String)
    (result : Except Failure α) : Prop where
  unlimited (held : ByteArray) :
    action.run ⟨none, held⟩ = ⟨result, ⟨none, held ++ text.toUTF8⟩, []⟩
  fits {held : ByteArray} {limit : Nat} : (held ++ text.toUTF8).size ≤ limit →
    action.run ⟨some limit, held⟩ = ⟨result, ⟨some limit, held ++ text.toUTF8⟩, []⟩
  cut {held : ByteArray} {limit : Nat} : held.size ≤ limit →
    limit < (held ++ text.toUTF8).size →
      action.run ⟨some limit, held⟩ =
        ⟨.error .outputFull, ⟨some limit, (held ++ text.toUTF8).extract 0 limit⟩, []⟩

variable {text more : String}

theorem append_toUTF8_append (held : ByteArray) (text more : String) :
    held ++ (text ++ more).toUTF8 = held ++ text.toUTF8 ++ more.toUTF8 := by
  rw [String.toUTF8_eq_toByteArray, String.toByteArray_append, ← ByteArray.append_assoc]
  rfl

/-- What comes after the limit does not show. -/
theorem extract_append_of_le {held more : ByteArray} {limit : Nat} (full : limit ≤ held.size) :
    (held ++ more).extract 0 limit = held.extract 0 limit := by
  rw [ByteArray.extract_append, Nat.sub_eq_zero_of_le full, Nat.zero_sub, ByteArray.extract_same,
    ByteArray.append_empty]

theorem writes_ofExcept (result : Except Failure α) :
    Writes (Action.ofExcept result) "" result where
  unlimited held := by
    change (⟨result, ⟨none, held⟩, []⟩ : Reply Sink Failure α) = _
    rw [String.toUTF8_eq_toByteArray, String.toByteArray_empty, ByteArray.append_empty]
  fits {held limit} _ := by
    change (⟨result, ⟨some limit, held⟩, []⟩ : Reply Sink Failure α) = _
    rw [String.toUTF8_eq_toByteArray, String.toByteArray_empty, ByteArray.append_empty]
  cut {held limit} room full := by
    rw [String.toUTF8_eq_toByteArray, String.toByteArray_empty, ByteArray.append_empty] at full
    exact absurd room (Nat.not_le_of_lt full)

theorem writes_pure (value : α) : Writes (pure value) "" (.ok value) :=
  writes_ofExcept (.ok value)

theorem writes_write (text : String) : Writes (write text) text (.ok ()) where
  unlimited held := run_write_unlimited text held
  fits room := if_pos room
  cut _ full := if_neg (Nat.not_le_of_lt full)

/-- The second action of two writes after the first. -/
theorem Writes.bind {first : Action Sink Failure α} {next : α → Action Sink Failure β} {value : α}
    {result : Except Failure β} (opening : Writes first text (.ok value))
    (closing : Writes (next value) more result) :
    Writes (first >>= next) (text ++ more) result where
  unlimited held := by
    rw [Action.run_bind_of_ok (opening.unlimited held), closing.unlimited, append_toUTF8_append]
    rfl
  fits {held limit} room := by
    rw [append_toUTF8_append] at room ⊢
    have roomForFirst : (held ++ text.toUTF8).size ≤ limit := by
      rw [ByteArray.size_append] at room
      omega
    rw [Action.run_bind_of_ok (opening.fits roomForFirst), closing.fits room]
    rfl
  cut {held limit} room full := by
    rw [append_toUTF8_append] at full ⊢
    -- The sink is full in the text of the first action or in that of the second.
    by_cases fullAtFirst : limit < (held ++ text.toUTF8).size
    · rw [Action.run_bind_of_error (opening.cut room fullAtFirst),
        extract_append_of_le (Nat.le_of_lt fullAtFirst)]
    · have roomForFirst := Nat.le_of_not_lt fullAtFirst
      rw [Action.run_bind_of_ok (opening.fits roomForFirst), closing.cut roomForFirst full]
      rfl

/-- It does not matter into how many pieces a text is cut before it is written. -/
theorem writes_forM (pieces : List String) :
    Writes (forM pieces write) (String.join pieces) (.ok ()) := by
  induction pieces with
  | nil => exact writes_pure ()
  | cons piece pieces ih =>
      rw [String.join_cons, List.forM_cons]
      exact (writes_write piece).bind ih

end Sink

end SemanticMemory
