import SemanticMemory.Address

/-!
# Events

What the memory reports while it works.  An event is a fact; its level, its message and its named
fields are read off the fact.
-/

namespace SemanticMemory

/-- How much an event matters, the gravest level first. -/
inductive Level where
  | error
  | debug
  | trace
  deriving DecidableEq

namespace Level

def rank : Level → Nat
  | error => 0
  | debug => 1
  | trace => 2

def text : Level → String
  | error => "ERROR"
  | debug => "DEBUG"
  | trace => "TRACE"

end Level

inductive FieldValue where
  | text (value : String)
  | count (value : Nat)
  deriving DecidableEq

/-- A fact that is reported. -/
inductive Event where
  /-- An element was erased, and edges went with it. -/
  | cascadeErased (root : Address) (erased : Nat)
  | memberAdded (set element arc : Address)
  | memberRemoved (set element : Address)
  | catalogResolved (orderRoleRelation operatorAtomicType : Address)
  | orderRoleResolved (edge role : Address)
  | operatorTypeResolved (operator type : Address)
  | operatorTypeUnknown (label : String)
  /-- An interpreter of the network reports an error about an element. -/
  | interpreterError (description label : String)
  deriving DecidableEq

namespace Event

def level : Event → Level
  | cascadeErased .. => .debug
  | catalogResolved .. => .debug
  | memberAdded .. => .trace
  | memberRemoved .. => .trace
  | orderRoleResolved .. => .trace
  | operatorTypeResolved .. => .trace
  | operatorTypeUnknown .. => .error
  | interpreterError .. => .error

def message : Event → String
  | cascadeErased .. => "Erased element with incident edges"
  | memberAdded .. => "Added set member"
  | memberRemoved .. => "Removed set member"
  | catalogResolved .. => "Keynode catalog resolved"
  | orderRoleResolved .. => "Resolved order role"
  | operatorTypeResolved .. => "Resolved operator type"
  | operatorTypeUnknown _ => "SCP Error: Unknown scp-operator type"
  | interpreterError description _ => "SCP Error: " ++ description

def fields : Event → List (String × FieldValue)
  | cascadeErased root erased => [("addr", .text root.text), ("erased", .count erased)]
  | memberAdded set element arc =>
      [("set", .text set.text), ("element", .text element.text), ("arc", .text arc.text)]
  | memberRemoved set element => [("set", .text set.text), ("element", .text element.text)]
  | catalogResolved orderRoleRelation operatorAtomicType =>
      [("order_role_relation", .text orderRoleRelation.text),
        ("operator_atomic_type", .text operatorAtomicType.text)]
  | orderRoleResolved edge role => [("edge", .text edge.text), ("role", .text role.text)]
  | operatorTypeResolved operator type =>
      [("operator", .text operator.text), ("ty", .text type.text)]
  | operatorTypeUnknown label => [("element", .text label)]
  | interpreterError _ label => [("element", .text label)]

/-- Whether a reader who wants events down to the threshold sees this one. -/
def isShownAt (event : Event) (threshold : Level) : Bool :=
  event.level.rank ≤ threshold.rank

end Event

end SemanticMemory
