import SemanticMemory.Failure
import SemanticMemory.Text.Blank

/-!
# Names of the catalog

The catalog of well-known elements is looked up by identifier.  Its names are fit for use when
there are ten ordinal roles, no identifier is blank, and no two are equal.
-/

namespace SemanticMemory

structure CatalogNames where
  /-- The identifiers of the ordinal roles, that of position one first. -/
  orderRoles : List String
  orderRoleRelation : String
  operatorAtomicType : String
  deriving DecidableEq

namespace CatalogNames

def roleCount : Nat :=
  10

/-- The identifiers under which the well-known elements are usually found. -/
def standard : CatalogNames where
  orderRoles := (List.range roleCount).map fun index => "rrel_" ++ toString (index + 1)
  orderRoleRelation := "order_role_relation"
  operatorAtomicType := "scp_operator_atomic_type"

/-- Every identifier with the setting that gives it, in the order in which they are checked. -/
def entries (names : CatalogNames) : List (Parameter × String) :=
  names.orderRoles.map (Prod.mk .orderRoles) ++
    [(.orderRoleRelation, names.orderRoleRelation),
      (.operatorAtomicType, names.operatorAtomicType)]

/-- The first entry that is blank or repeats an identifier, where `seen` was read before. -/
def firstFault (seen : List String) : List (Parameter × String) → Option ConfigError
  | [] => none
  | (parameter, identifier) :: entries =>
      if Text.isBlank identifier then some (.blankIdentifier parameter)
      else if identifier ∈ seen then some (.duplicateIdentifier parameter identifier)
      else firstFault (identifier :: seen) entries

/-- Refuses names that are not fit for use.  The number of roles is looked at first, then the
entries in order. -/
def validate (names : CatalogNames) : Except ConfigError Unit :=
  if names.orderRoles.length = 0 then .error (.missing .orderRoles)
  else if names.orderRoles.length = roleCount then
    match firstFault [] names.entries with
    | none => .ok ()
    | some fault => .error fault
  else .error (.wrongRoleCount roleCount names.orderRoles.length)

theorem length_of_validate {names : CatalogNames} (valid : names.validate = .ok ()) :
    names.orderRoles.length = roleCount := by
  revert valid
  unfold validate
  split
  · simp
  · split <;> simp [*]

end CatalogNames

end SemanticMemory
