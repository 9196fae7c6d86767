import SemanticMemory.Catalog.Names
import SemanticMemory.TripleStore

/-!
# The catalog of well-known elements

Helpers that read operators and their arguments need twelve elements: ten ordinal roles, the
relation that marks ordinal roles, and the class that marks operator types.  A catalog holds their
addresses, which are looked up once.
-/

namespace SemanticMemory

/-- The addresses of the well-known elements. -/
structure Catalog where
  /-- The ordinal roles, that of position one first. -/
  orderRoles : List Address
  length_orderRoles : orderRoles.length = CatalogNames.roleCount
  orderRoleRelation : Address
  operatorAtomicType : Address
  deriving DecidableEq

namespace Catalog

variable {σ : Type} [TripleStore σ]

def orderRole? (catalog : Catalog) (position : Nat) : Option Address :=
  match position with
  | 0 => none
  | index + 1 => catalog.orderRoles[index]?

def locate (store : σ) (identifier : String) : Except Failure Address :=
  match TripleStore.owner? store identifier with
  | none => .error (.keynodeNotFound identifier)
  | some address => .ok address

/-- The elements that carry the identifiers, up to the first that no element carries. -/
def locateAll (store : σ) : List String → Except Failure (List Address)
  | [] => .ok []
  | identifier :: identifiers => do
      let address ← locate store identifier
      let addresses ← locateAll store identifiers
      return address :: addresses

theorem length_locateAll {store : σ} {identifiers : List String} {addresses : List Address}
    (located : locateAll store identifiers = .ok addresses) :
    addresses.length = identifiers.length := by
  induction identifiers generalizing addresses with
  | nil =>
      cases located
      rfl
  | cons identifier identifiers ih =>
      unfold locateAll at located
      cases here : locate store identifier with
      | error failure => simp [here, bind, Except.bind] at located
      | ok address =>
          cases rest : locateAll store identifiers with
          | error failure => simp [here, rest, bind, Except.bind] at located
          | ok others =>
              simp only [here, rest, bind, Except.bind, pure, Except.pure,
                Except.ok.injEq] at located
              rw [← located, List.length_cons, List.length_cons, ih rest]

/-- The catalog of the elements that carry the names, which must be fit for use. -/
def lookUp (store : σ) (names : CatalogNames) : Except Failure Catalog :=
  match valid : names.validate with
  | .error cause => .error (.config cause)
  | .ok () =>
      match located : locateAll store names.orderRoles with
      | .error failure => .error failure
      | .ok orderRoles => do
          let orderRoleRelation ← locate store names.orderRoleRelation
          let operatorAtomicType ← locate store names.operatorAtomicType
          return {
            orderRoles
            length_orderRoles :=
              (length_locateAll located).trans (CatalogNames.length_of_validate valid)
            orderRoleRelation
            operatorAtomicType }

/-- Looks the catalog up and reports that it was found. -/
def resolve (names : CatalogNames) : Action σ Failure Catalog := do
  let catalog ← Action.query fun store => lookUp store names
  Action.emit (.catalogResolved catalog.orderRoleRelation catalog.operatorAtomicType)
  return catalog

/-- A position has a role exactly when it is one of the ten. -/
theorem isSome_orderRole?_iff (catalog : Catalog) (position : Nat) :
    (catalog.orderRole? position).isSome = true ↔
      1 ≤ position ∧ position ≤ CatalogNames.roleCount := by
  cases position with
  | zero => simp [orderRole?]
  | succ index =>
      have found : (catalog.orderRole? (index + 1)).isSome = true ↔
          index < catalog.orderRoles.length := by
        rw [orderRole?, Option.isSome_iff_exists]
        exact ⟨fun ⟨_, role⟩ => (List.getElem?_eq_some_iff.mp role).1,
          fun inRange => ⟨_, List.getElem?_eq_getElem inRange⟩⟩
      rw [found, catalog.length_orderRoles]
      omega

end Catalog

end SemanticMemory
