/-!
# Blank text

A text is blank when it holds nothing but white space, or nothing at all.  White space is what the
Unicode property `White_Space` covers: twenty-five characters in ten ranges.
-/

namespace SemanticMemory

namespace Text

/-- The first and the last code point of each range of white space. -/
def whiteSpaceRanges : List (Nat × Nat) :=
  [(0x09, 0x0D), (0x20, 0x20), (0x85, 0x85), (0xA0, 0xA0), (0x1680, 0x1680), (0x2000, 0x200A),
    (0x2028, 0x2029), (0x202F, 0x202F), (0x205F, 0x205F), (0x3000, 0x3000)]

def isWhiteSpace (character : Char) : Bool :=
  whiteSpaceRanges.any fun range =>
    range.1 ≤ character.toNat && character.toNat ≤ range.2

-- The ranges hold twenty-five characters in all.
example : (whiteSpaceRanges.map fun range => range.2 + 1 - range.1).foldl (· + ·) 0 = 25 := by
  decide

def isBlank (text : String) : Bool :=
  text.toList.all isWhiteSpace

/-- The ASCII characters that count as white space everywhere count here too. -/
theorem isWhiteSpace_of_isWhitespace {character : Char} (white : character.isWhitespace = true) :
    isWhiteSpace character = true := by
  simp only [Char.isWhitespace, Bool.or_eq_true, decide_eq_true_eq] at white
  rcases white with ((white | white) | white) | white <;> subst white <;> decide

@[simp]
theorem isBlank_empty : isBlank "" = true :=
  rfl

end Text

end SemanticMemory
