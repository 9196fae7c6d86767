import SemanticMemory.Catalog.Basic

/-!
# Setting up a network

Building blocks for small networks.  Each is a fixed sequence of calls, and it stops at the first
call that fails; what was done before stays done.
-/

namespace SemanticMemory

namespace Setup

open TripleStore

variable {σ α ε : Type} [TripleStore σ]

/-- The call at which a set-up stopped. -/
inductive Stage where
  | createNode
  | assignIdentifier
  | markOrderRole
  | resolveCatalog
  /-- The position of an argument has to have a role. -/
  | findOrderRole
  | tagArc
  | markAtomicType
  | createOperator
  | classifyOperator
  deriving DecidableEq

/-- What the stage was about to do, or what it relied on. -/
def Stage.text : Stage → String
  | createNode => "create node"
  | assignIdentifier => "assign identifier"
  | markOrderRole => "mark order role"
  | resolveCatalog => "resolve keynodes"
  | findOrderRole => "order in 1..=10"
  | tagArc => "tag arc with role"
  | markAtomicType => "mark atomic type"
  | createOperator => "create operator"
  | classifyOperator => "classify operator"

/-- Lets the failure of an action stand for the stage that it belongs to. -/
def atStage (stage : Stage) (action : Action σ ε α) : Action σ Stage α :=
  action.mapError fun _ => stage

omit [TripleStore σ] in
theorem succeeds_atStage_iff {stage : Stage} {action : Action σ ε α} {state reached : σ}
    {value : α} :
    (atStage stage action).Succeeds state value reached ↔ action.Succeeds state value reached :=
  Action.succeeds_mapError_iff

omit [TripleStore σ] in
theorem run_atStage {stage : Stage} {action : Action σ ε α} {state next : σ}
    {result : Except ε α} {events : List Event}
    (reply : action.run state = ⟨result, next, events⟩) :
    (atStage stage action).run state = ⟨result.mapError fun _ => stage, next, events⟩ := by
  rw [atStage, Action.run_mapError, reply]

def namedNode (name : String) : Action σ Stage Address := do
  let node ← atStage .createNode (createNode .nodeConst)
  atStage .assignIdentifier (assignIdentifier node name)
  return node

/-- Creates the named ordinal roles and marks each by an arc from the relation. -/
def createOrderRoles (relation : Address) : List String → Action σ Stage Unit
  | [] => return ()
  | name :: names => do
      let role ← namedNode name
      let _ ← atStage .markOrderRole (createEdge .membershipArc relation role)
      createOrderRoles relation names

/-- Creates every element of the catalog under its usual name and looks the catalog up. -/
def bootstrap : Action σ Stage Catalog := do
  let relation ← namedNode CatalogNames.standard.orderRoleRelation
  let _ ← namedNode CatalogNames.standard.operatorAtomicType
  createOrderRoles relation CatalogNames.standard.orderRoles
  atStage .resolveCatalog (Catalog.resolve .standard)

/-- Tags an arc with the ordinal role of a position and gives the tag. -/
def attachOrderRole (catalog : Catalog) (arc : Address) (position : Nat) :
    Action σ Stage Address :=
  match catalog.orderRole? position with
  | none => .fail .findOrderRole
  | some role => atStage .tagArc (createEdge .membershipArc role arc)

/-- Creates an operator of a new type with the given name, and gives the operator and the type. -/
def makeOperator (catalog : Catalog) (typeName : String) : Action σ Stage (Address × Address) := do
  let atomicType ← namedNode typeName
  let _ ← atStage .markAtomicType
    (createEdge .membershipArc catalog.operatorAtomicType atomicType)
  let operator ← atStage .createOperator (createNode .nodeConst)
  let _ ← atStage .classifyOperator (createEdge .membershipArc atomicType operator)
  return (operator, atomicType)

end Setup

end SemanticMemory
