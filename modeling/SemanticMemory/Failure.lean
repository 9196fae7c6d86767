import SemanticMemory.Address
import SemanticMemory.ElementType

/-!
# Failures

Three kinds of failure, from the inside out: what a store refuses, what is wrong with a setting,
and what can go wrong with a helper that works on a store.  Each cause is a constructor, and each
kind has one function that words it.
-/

namespace SemanticMemory

/-- A call that can be made to fail on purpose. -/
inductive GuardedCall where
  | createEdge
  | erase
  deriving DecidableEq

/-- Why a store refuses a call. -/
inductive StoreError where
  | elementNotFound (address : Address)
  | notAnEdge (address : Address)
  | notANodeType (type : ElementType)
  | notAnEdgeType (type : ElementType)
  | capacityExceeded
  | identifierInUse (identifier : String) (owner : Address)
  | injected (call : GuardedCall)
  deriving DecidableEq

inductive Parameter where
  | segmentSize
  | maxSegments
  | orderRoles
  | orderRoleRelation
  | operatorAtomicType
  deriving DecidableEq

/-- Why a setting is refused. -/
inductive ConfigError where
  | belowOne (parameter : Parameter)
  | missing (parameter : Parameter)
  | wrongRoleCount (expected given : Nat)
  | blankIdentifier (parameter : Parameter)
  | duplicateIdentifier (parameter : Parameter) (identifier : String)
  deriving DecidableEq

/-- Why a helper that works on a store fails. -/
inductive Failure where
  | store (cause : StoreError)
  | config (cause : ConfigError)
  | elementNotFound (address : Address)
  /-- No element carries an identifier of the catalog. -/
  | keynodeNotFound (identifier : String)
  | outputFull
  /-- An edge does not come after both of its ends, so its text has no end. -/
  | endlessEdge (edge : Address)
  deriving DecidableEq

def GuardedCall.text : GuardedCall → String
  | createEdge => "create_edge"
  | erase => "erase_element"

def Parameter.text : Parameter → String
  | segmentSize => "segment_size"
  | maxSegments => "max_segments"
  | orderRoles => "order_roles"
  | orderRoleRelation => "order_role_relation"
  | operatorAtomicType => "operator_atomic_type"

def StoreError.message : StoreError → String
  | elementNotFound address => "Element not found: " ++ address.text
  | notAnEdge address => "Element " ++ address.text ++ " is not an edge"
  | notANodeType type => "Invalid element type " ++ type.text ++ ": not a node type"
  | notAnEdgeType type => "Invalid element type " ++ type.text ++ ": not an edge type"
  | capacityExceeded => "Store capacity exceeded"
  | identifierInUse identifier owner =>
      "System identifier '" ++ identifier ++ "' is already assigned to " ++ owner.text
  | injected call => "I/O error: Injected " ++ call.text ++ " failure"

def ConfigError.parameter : ConfigError → Parameter
  | belowOne parameter => parameter
  | missing parameter => parameter
  | wrongRoleCount _ _ => .orderRoles
  | blankIdentifier parameter => parameter
  | duplicateIdentifier parameter _ => parameter

def ConfigError.message (error : ConfigError) : String :=
  match error with
  | missing parameter => "Missing required parameter: " ++ parameter.text
  | belowOne _ => invalid "must be >= 1"
  | wrongRoleCount expected given =>
      invalid ("expected " ++ toString expected ++ " identifiers, got " ++ toString given)
  | blankIdentifier _ => invalid "identifier must not be empty"
  | duplicateIdentifier _ identifier => invalid ("duplicate identifier '" ++ identifier ++ "'")
where
  invalid (reason : String) : String :=
    "Invalid parameter '" ++ error.parameter.text ++ "': " ++ reason

def Failure.message : Failure → String
  | store cause => "Store error: " ++ cause.message
  | config cause => "Configuration error: " ++ cause.message
  | elementNotFound address => "Element not found: " ++ address.text
  | keynodeNotFound identifier => "Keynode not found: " ++ identifier
  | outputFull => "Output error: failed to write whole buffer"
  | endlessEdge edge => "Edge " ++ edge.text ++ " does not come after its ends"

end SemanticMemory
