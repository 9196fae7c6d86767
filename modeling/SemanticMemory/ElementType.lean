/-!
# Element types

A type is a set of flags kept in one sixteen-bit word: the kind of the element, whether it is a
constant or a variable, and the polarity and permanence of an access arc.  The four highest bits
have no meaning here, but they are kept.  A type also serves as a filter, which a type passes when
it carries every bit of the filter.
-/

namespace SemanticMemory

/-- A property that the type of an element can state. -/
inductive Flag where
  | node
  /-- The element is a link that stands for a value. -/
  | link
  /-- The element is an edge without a direction. -/
  | commonEdge
  /-- The element is a directed arc of no special meaning. -/
  | commonArc
  /-- The element is an access arc: a membership, a role or a marker. -/
  | accessArc
  | const
  | var
  | positive
  | negative
  /-- The access holds to a degree. -/
  | fuzzy
  | temporary
  | permanent
  deriving DecidableEq

namespace Flag

/-- The bit of a type that states the flag. -/
def position : Flag → Nat
  | node => 0
  | link => 1
  | commonEdge => 2
  | commonArc => 3
  | accessArc => 4
  | const => 5
  | var => 6
  | positive => 7
  | negative => 8
  | fuzzy => 9
  | temporary => 10
  | permanent => 11

def edgeKinds : List Flag :=
  [commonEdge, commonArc, accessArc]

/-- The flags that say what an element is. -/
def kinds : List Flag :=
  node :: link :: edgeKinds

theorem position_lt (flag : Flag) : flag.position < 12 := by
  cases flag <;> decide

theorem position_injective {first second : Flag} (positions : first.position = second.position) :
    first = second := by
  cases first <;> cases second <;> first | rfl | contradiction

end Flag

/-- The type of an element, or a filter on types. -/
structure ElementType where
  bits : BitVec 16
  deriving DecidableEq, Inhabited

namespace ElementType

/-- Whether the type states the flag. -/
def has (type : ElementType) (flag : Flag) : Bool :=
  type.bits.getLsbD flag.position

instance : OrOp ElementType :=
  ⟨fun first second => ⟨first.bits ||| second.bits⟩⟩

instance : AndOp ElementType :=
  ⟨fun first second => ⟨first.bits &&& second.bits⟩⟩

theorem bits_or (first second : ElementType) :
    (first ||| second).bits = first.bits ||| second.bits :=
  rfl

theorem bits_and (first second : ElementType) :
    (first &&& second).bits = first.bits &&& second.bits :=
  rfl

@[simp]
theorem has_or (first second : ElementType) (flag : Flag) :
    (first ||| second).has flag = (first.has flag || second.has flag) := by
  simp [has, bits_or]

@[simp]
theorem has_and (first second : ElementType) (flag : Flag) :
    (first &&& second).has flag = (first.has flag && second.has flag) := by
  simp [has, bits_and]

def ofFlag (flag : Flag) : ElementType :=
  ⟨BitVec.twoPow 16 flag.position⟩

/-- The type that states exactly the listed flags. -/
def ofFlags : List Flag → ElementType
  | [] => ⟨0⟩
  | flag :: flags => ofFlag flag ||| ofFlags flags

@[simp]
theorem has_ofFlag (stated flag : Flag) : (ofFlag stated).has flag = decide (flag = stated) := by
  cases stated <;> cases flag <;> decide

@[simp]
theorem has_ofFlags (flags : List Flag) (flag : Flag) :
    (ofFlags flags).has flag = decide (flag ∈ flags) := by
  induction flags with
  | nil => simp [ofFlags, has]
  | cons first rest ih => simp [ofFlags, ih]

/-- The filter that every type passes. -/
def any : ElementType :=
  ofFlags []

def nodeConst : ElementType :=
  ofFlags [.node, .const]

def nodeVar : ElementType :=
  ofFlags [.node, .var]

def linkConst : ElementType :=
  ofFlags [.link, .const]

def commonArcConst : ElementType :=
  ofFlags [.commonArc, .const]

/-- Every access arc, whatever its other flags. -/
def accessArc : ElementType :=
  ofFlags [.accessArc]

/-- Membership arcs: constant, positive, permanent access arcs. -/
def membershipArc : ElementType :=
  ofFlags [.accessArc, .const, .positive, .permanent]

def isAny (type : ElementType) : Bool :=
  type.bits == 0

def isNode (type : ElementType) : Bool :=
  type.has .node

def isLink (type : ElementType) : Bool :=
  type.has .link

def isEdge (type : ElementType) : Bool :=
  Flag.edgeKinds.any type.has

def isAccessArc (type : ElementType) : Bool :=
  type.has .accessArc

def hasSingleKind (type : ElementType) : Bool :=
  Flag.kinds.countP type.has == 1

/-- Whether the type carries every bit of the filter. -/
def carries (type filter : ElementType) : Bool :=
  type.bits &&& filter.bits == filter.bits

/-- A type passes a filter when no bit of the filter is missing from it. -/
theorem carries_iff {type filter : ElementType} :
    type.carries filter = true ↔
      ∀ position, filter.bits.getLsbD position = true → type.bits.getLsbD position = true := by
  simp only [carries, beq_iff_eq]
  constructor
  · intro equal position stated
    rw [← equal, BitVec.getLsbD_and, Bool.and_eq_true] at stated
    exact stated.1
  · intro stated
    apply BitVec.eq_of_getLsbD_eq
    intro position _
    rw [BitVec.getLsbD_and]
    cases statedHere : filter.bits.getLsbD position
    · simp
    · simp [stated position statedHere]

@[simp]
theorem carries_any (type : ElementType) : type.carries any = true := by
  rw [carries_iff]
  simp [any, ofFlags]

@[simp]
theorem carries_self (type : ElementType) : type.carries type = true :=
  carries_iff.mpr fun _ stated => stated

theorem carries_trans {first second third : ElementType}
    (upper : first.carries second = true) (lower : second.carries third = true) :
    first.carries third = true :=
  carries_iff.mpr fun position stated =>
    carries_iff.mp upper position (carries_iff.mp lower position stated)

theorem has_of_carries {type filter : ElementType} (carried : type.carries filter = true)
    {flag : Flag} (stated : filter.has flag = true) : type.has flag = true :=
  carries_iff.mp carried flag.position stated

/-- A type with one kind is that of a node, of a link or of an edge, and of only one of them. -/
theorem single_kind_cases {type : ElementType} (single : type.hasSingleKind = true) :
    (type.isNode = true ∧ type.isLink = false ∧ type.isEdge = false) ∨
      (type.isNode = false ∧ type.isLink = true ∧ type.isEdge = false) ∨
      (type.isNode = false ∧ type.isLink = false ∧ type.isEdge = true) := by
  revert single
  simp only [hasSingleKind, isNode, isLink, isEdge, Flag.kinds, Flag.edgeKinds, List.countP_cons,
    List.countP_nil, List.any_cons, List.any_nil]
  cases type.has .node <;> cases type.has .link <;> cases type.has .commonEdge <;>
    cases type.has .commonArc <;> cases type.has .accessArc <;> decide

/-- A type is written in hexadecimal, with a digit for every four bits. -/
def text (type : ElementType) : String :=
  "0x" ++ type.bits.toHex

end ElementType

end SemanticMemory
