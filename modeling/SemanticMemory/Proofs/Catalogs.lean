import SemanticMemory.Proofs.Building
import SemanticMemory.Proofs.Ownership
import SemanticMemory.Proofs.Wiring

/-!
# Catalogs that were looked up

A catalog is found exactly when its names are fit for use and every one of them has an owner.  Its
addresses are then those of twelve different elements, since an element carries one identifier at
most.  Otherwise the first thing that is wrong is reported: a name that is not fit, or else the
first name without an owner.
-/

namespace SemanticMemory

namespace CatalogNames

/-- The identifiers in the order in which they are checked and looked up. -/
def identifiers (names : CatalogNames) : List String :=
  names.orderRoles ++ [names.orderRoleRelation, names.operatorAtomicType]

variable {names : CatalogNames}

theorem map_snd_entries (names : CatalogNames) :
    names.entries.map Prod.snd = names.identifiers := by
  simp [entries, identifiers, Function.comp_def]

/-- Entries are without fault when no identifier is blank, was seen before, or comes again. -/
theorem firstFault_eq_none_iff {seen : List String} {entries : List (Parameter × String)} :
    firstFault seen entries = none ↔
      (∀ identifier ∈ entries.map Prod.snd,
        Text.isBlank identifier = false ∧ identifier ∉ seen) ∧
      (entries.map Prod.snd).Nodup := by
  induction entries generalizing seen with
  | nil => simp [firstFault]
  | cons entry entries ih =>
      obtain ⟨parameter, identifier⟩ := entry
      rw [firstFault, List.map_cons, List.forall_mem_cons, List.nodup_cons]
      split
      · next blank => simp [blank]
      · next filled =>
          split
          · next repeated => simp [repeated]
          · next isNew =>
              -- Neither seen nor among the rest is the same as not among what the rest has seen.
              have apart : (∀ other ∈ entries.map Prod.snd,
                  Text.isBlank other = false ∧ other ∉ identifier :: seen) ↔
                  (∀ other ∈ entries.map Prod.snd, Text.isBlank other = false ∧ other ∉ seen) ∧
                    identifier ∉ entries.map Prod.snd := by
                simp only [List.mem_cons, not_or]
                constructor
                · exact fun each => ⟨fun other member => ⟨(each other member).1,
                    (each other member).2.2⟩, fun member => (each identifier member).2.1 rfl⟩
                · rintro ⟨each, isNot⟩ other member
                  exact ⟨(each other member).1, fun same => isNot (same ▸ member),
                    (each other member).2⟩
              rw [ih, apart, Bool.eq_false_iff.mpr filled]
              simp only [isNew, not_false_eq_true, and_self, true_and, and_assoc]

theorem validate_eq_ok_iff :
    names.validate = .ok () ↔
      names.orderRoles.length = roleCount ∧
        (∀ identifier ∈ names.identifiers, Text.isBlank identifier = false) ∧
        names.identifiers.Nodup := by
  have faultless : firstFault [] names.entries = none ↔
      (∀ identifier ∈ names.identifiers, Text.isBlank identifier = false) ∧
        names.identifiers.Nodup := by
    rw [firstFault_eq_none_iff, map_snd_entries]
    simp
  rw [← faultless]
  unfold validate
  split
  · next noRoles => simp [noRoles, roleCount]
  · split
    · next count => cases firstFault [] names.entries <;> simp [count]
    · next miscounted => simp [miscounted]

end CatalogNames

namespace Catalog

/-- The addresses in the order of the identifiers that lead to them. -/
def addresses (catalog : Catalog) : List Address :=
  catalog.orderRoles ++ [catalog.orderRoleRelation, catalog.operatorAtomicType]

section LookUp

open TripleStore

variable {σ : Type} [TripleStore σ] {store : σ} {names : CatalogNames}

theorem locateAll_append (earlier later : List String) :
    locateAll store (earlier ++ later) =
      (locateAll store earlier).bind fun first => (locateAll store later).map (first ++ ·) := by
  induction earlier with
  | nil =>
      rw [List.nil_append]
      cases locateAll store later <;> rfl
  | cons identifier identifiers ih =>
      rw [List.cons_append, locateAll, locateAll, ih]
      cases locate store identifier with
      | error failure => rfl
      | ok address =>
          cases locateAll store identifiers with
          | error failure => rfl
          | ok first => cases locateAll store later <;> rfl

/-- Nothing is looked up under names that are not fit for use. -/
theorem lookUp_of_invalid {cause : ConfigError} (invalid : names.validate = .error cause) :
    lookUp store names = .error (.config cause) := by
  unfold lookUp
  split
  · next other =>
      rw [invalid] at other
      cases other
      rfl
  · next valid =>
      rw [invalid] at valid
      cases valid

theorem valid_of_lookUp {catalog : Catalog} (found : lookUp store names = .ok catalog) :
    names.validate = .ok () := by
  cases valid : names.validate with
  | error cause =>
      rw [lookUp_of_invalid valid] at found
      cases found
  | ok => rfl

/-- Under names that are fit for use, the identifiers are looked up one after the other. -/
theorem map_addresses_lookUp (valid : names.validate = .ok ()) :
    (lookUp store names).map addresses = locateAll store names.identifiers := by
  have appended : locateAll store names.identifiers = _ := locateAll_append _ _
  unfold lookUp
  split
  · next invalid =>
      rw [valid] at invalid
      cases invalid
  · split
    · next located =>
        rw [appended, located]
        rfl
    · next located =>
        rw [located] at appended
        rw [appended, locateAll, locateAll]
        cases locate store names.orderRoleRelation with
        | error failure => rfl
        | ok relation => cases locate store names.operatorAtomicType <;> rfl

theorem locateAll_eq_error_iff {identifiers : List String} {failure : Failure} :
    locateAll store identifiers = .error failure ↔
      ∃ missing, identifiers.find? (fun identifier => (owner? store identifier).isNone) =
        some missing ∧ failure = .keynodeNotFound missing := by
  induction identifiers with
  | nil => simp [locateAll]
  | cons identifier identifiers ih =>
      unfold locateAll
      cases owned : owner? store identifier with
      | none => simp [locate, owned, bind, Except.bind, eq_comm]
      | some address =>
          rw [List.find?_cons_of_neg (by simp [owned]), ← ih]
          cases rest : locateAll store identifiers <;>
            simp [locate, owned, bind, Except.bind, pure, Except.pure]

theorem exists_locateAll_iff {identifiers : List String} :
    (∃ addresses, locateAll store identifiers = .ok addresses) ↔
      ∀ identifier ∈ identifiers, ∃ address, owner? store identifier = some address := by
  have owned_iff : (∀ identifier ∈ identifiers, ∃ address,
        owner? store identifier = some address) ↔
      identifiers.find? (fun identifier => (owner? store identifier).isNone) = none := by
    simp [← Option.ne_none_iff_exists']
  rw [owned_iff]
  cases located : locateAll store identifiers with
  | error failure =>
      obtain ⟨missing, first, _⟩ := locateAll_eq_error_iff.mp located
      simp [first]
  | ok addresses =>
      refine iff_of_true ⟨addresses, rfl⟩ (Option.eq_none_iff_forall_ne_some.mpr ?_)
      intro missing first
      rw [locateAll_eq_error_iff.mpr ⟨missing, first, rfl⟩] at located
      cases located

theorem exists_lookUp_iff :
    (∃ catalog, lookUp store names = .ok catalog) ↔
      names.validate = .ok () ∧
        ∀ identifier ∈ names.identifiers, ∃ address, owner? store identifier = some address := by
  constructor
  · rintro ⟨catalog, found⟩
    have valid := valid_of_lookUp found
    have located : (lookUp store names).map addresses = locateAll store names.identifiers :=
      map_addresses_lookUp valid
    rw [found] at located
    exact ⟨valid, exists_locateAll_iff.mp ⟨_, located.symm⟩⟩
  · rintro ⟨valid, owned⟩
    obtain ⟨addresses, located⟩ := exists_locateAll_iff.mpr owned
    rw [← map_addresses_lookUp valid] at located
    cases found : lookUp store names with
    | error failure =>
        rw [found] at located
        cases located
    | ok catalog => exact ⟨catalog, rfl⟩

/-- Under names that are fit for use, the first identifier without an owner is reported. -/
theorem lookUp_eq_error_iff (valid : names.validate = .ok ()) {failure : Failure} :
    lookUp store names = .error failure ↔
      ∃ missing, names.identifiers.find? (fun identifier => (owner? store identifier).isNone) =
        some missing ∧ failure = .keynodeNotFound missing := by
  rw [← locateAll_eq_error_iff, ← map_addresses_lookUp valid]
  cases lookUp store names <;> simp [Except.map]

/-- A look-up changes nothing, and its result is that of the question. -/
theorem run_resolve (store : σ) (names : CatalogNames) :
    ((resolve names).run store).result = lookUp store names ∧
      ((resolve names).run store).state = store := by
  have asked : (Action.query fun store => lookUp store names).run store =
      ⟨lookUp store names, store, []⟩ := rfl
  cases found : lookUp store names with
  | error failure =>
      rw [found] at asked
      rw [resolve, Action.run_bind_of_error asked]
      exact ⟨rfl, rfl⟩
  | ok catalog =>
      rw [found] at asked
      rw [resolve, Action.run_bind_of_ok asked]
      exact ⟨rfl, rfl⟩

end LookUp

end Catalog

namespace Memory

variable {memory : Memory} {names : CatalogNames} {catalog : Catalog}

/-- The addresses of the catalog are those of different elements, which carry the names. -/
structure Resolves (memory : Memory) (names : CatalogNames) (catalog : Catalog) : Prop where
  length_addresses : catalog.addresses.length = 12
  isElement {address : Address} : address ∈ catalog.addresses → memory.isElement address = true
  nodup : catalog.addresses.Nodup
  orderRole {position : Nat} : 1 ≤ position → position ≤ 10 →
    ∃ identifier role, names.orderRoles[position - 1]? = some identifier ∧
      catalog.orderRole? position = some role ∧ memory.identifier role = .ok (some identifier)
  orderRole?_inj {first second : Nat} {role : Address} : catalog.orderRole? first = some role →
    catalog.orderRole? second = some role → first = second
  orderRole?_eq_none {position : Nat} : ¬(1 ≤ position ∧ position ≤ 10) →
    catalog.orderRole? position = none
  orderRoleRelation :
    memory.identifier catalog.orderRoleRelation = .ok (some names.orderRoleRelation)
  operatorAtomicType :
    memory.identifier catalog.operatorAtomicType = .ok (some names.operatorAtomicType)

theorem Named.map_identifier (named : memory.Named) {identifiers : List String}
    {addresses : List Address}
    (owned : List.Forall₂ (fun identifier address => memory.owner? identifier = some address)
      identifiers addresses) :
    addresses.map memory.identifier = identifiers.map fun identifier => .ok (some identifier) := by
  induction owned with
  | nil => rfl
  | cons owned _ ih =>
      rw [List.map_cons, List.map_cons, named.owner?_eq_some_iff.mp owned, ih]

/-- Different names lead to different elements, since an element carries one identifier at most. -/
theorem Named.resolves_of_lookUp (named : memory.Named)
    (found : Catalog.lookUp memory names = .ok catalog) : memory.Resolves names catalog := by
  obtain ⟨_, _, distinct⟩ := CatalogNames.validate_eq_ok_iff.mp (Catalog.valid_of_lookUp found)
  obtain ⟨rolesOwned, relationOwned, operatorOwned⟩ := Catalog.owners_of_lookUp found
  have rolesCarried := named.map_identifier rolesOwned
  have relationCarried := named.owner?_eq_some_iff.mp relationOwned
  have operatorCarried := named.owner?_eq_some_iff.mp operatorOwned
  have carried : catalog.addresses.map memory.identifier =
      names.identifiers.map fun identifier => .ok (some identifier) := by
    simp only [Catalog.addresses, CatalogNames.identifiers, List.map_append, List.map_cons,
      List.map_nil, rolesCarried, relationCarried, operatorCarried]
  have nodup : catalog.addresses.Nodup := by
    refine List.Nodup.of_map memory.identifier (carried ▸ distinct.map ?_)
    exact fun first second same => by simpa using same
  constructor
  case length_addresses =>
    rw [Catalog.addresses, List.length_append, catalog.length_orderRoles]
    rfl
  case isElement =>
    intro address member
    have carries : memory.identifier address ∈ catalog.addresses.map memory.identifier :=
      List.mem_map_of_mem member
    rw [carried] at carries
    obtain ⟨identifier, _, carries⟩ := List.mem_map.mp carries
    exact named.isElement_of_owner? (named.owner?_eq_some_iff.mpr carries.symm)
  case nodup => exact nodup
  case orderRole =>
    intro position positive within
    obtain ⟨role, atPosition⟩ := Option.isSome_iff_exists.mp
      ((catalog.isSome_orderRole?_iff position).mpr ⟨positive, within⟩)
    obtain ⟨index, rfl⟩ := Nat.exists_eq_add_of_le' positive
    have carries := congrArg (·[index]?) rolesCarried
    simp only [List.getElem?_map] at carries
    rw [show catalog.orderRoles[index]? = some role from atPosition, Option.map_some] at carries
    obtain ⟨identifier, isName, carries⟩ := Option.map_eq_some_iff.mp carries.symm
    exact ⟨identifier, role, isName, atPosition, carries.symm⟩
  case orderRole?_inj =>
    exact Catalog.orderRole?_injective (List.Nodup.of_append_left nodup)
  case orderRole?_eq_none =>
    intro position outside
    exact Option.not_isSome_iff_eq_none.mp (mt (catalog.isSome_orderRole?_iff position).mp outside)
  case orderRoleRelation => exact relationCarried
  case operatorAtomicType => exact operatorCarried

/-- In a memory that calls lead to, a catalog is found exactly when its names are fit for use and
all of them have owners, and otherwise the first thing that is wrong is reported. -/
theorem Reachable.catalog_found (reachable : Reachable memory) (names : CatalogNames) :
    let reply := (Catalog.resolve names).run memory
    reply.state = memory ∧
    ((∃ catalog, reply.result = .ok catalog) ↔
      names.validate = .ok () ∧
        ∀ identifier ∈ names.identifiers, ∃ address, memory.owner? identifier = some address) ∧
    (∀ catalog, reply.result = .ok catalog → memory.Resolves names catalog) ∧
    (∀ cause, names.validate = .error cause → reply.result = .error (.config cause)) ∧
    (names.validate = .ok () → ∀ failure, reply.result = .error failure ↔
      ∃ missing, names.identifiers.find? (fun identifier => (memory.owner? identifier).isNone) =
        some missing ∧ failure = .keynodeNotFound missing) := by
  intro reply
  obtain ⟨result_eq, state_eq⟩ := Catalog.run_resolve memory names
  have result_eq : reply.result = Catalog.lookUp memory names := result_eq
  rw [result_eq]
  exact ⟨state_eq, Catalog.exists_lookUp_iff,
    fun _ found => reachable.sound.named.resolves_of_lookUp found,
    fun _ invalid => Catalog.lookUp_of_invalid invalid,
    fun valid _ => Catalog.lookUp_eq_error_iff valid⟩

/-- The nodes of the standard catalog, each with its name. -/
def namedNodes : Memory :=
  (Memory.empty ⟨64, 1⟩).after <| CatalogNames.standard.identifiers.zipIdx.flatMap
    fun (identifier, index) => [.createNode .nodeConst,
      .assignIdentifier ⟨0, .ofNat (index + 1)⟩ identifier]

theorem catalog_found_namedNodes :
    Reachable namedNodes ∧ CatalogNames.standard.validate = .ok () ∧
      (∃ catalog, ((Catalog.resolve .standard).run namedNodes).result = .ok catalog ∧
        namedNodes.Resolves .standard catalog) ∧
      ((Catalog.resolve .standard).run (namedNodes.after [.assignIdentifier ⟨0, 5⟩ ""])).result =
        .error (.keynodeNotFound "rrel_5") := by
  have reachable : Reachable namedNodes := .after (.empty rfl) _
  have valid : CatalogNames.standard.validate = .ok () := by decide +kernel
  have owned : ∀ identifier ∈ CatalogNames.standard.identifiers,
      (namedNodes.owner? identifier).isSome = true := by
    decide +kernel
  obtain ⟨_, found_iff, resolves, _⟩ := reachable.catalog_found .standard
  obtain ⟨catalog, found⟩ := found_iff.mpr
    ⟨valid, fun identifier member => Option.isSome_iff_exists.mp (owned identifier member)⟩
  obtain ⟨_, _, _, _, missing_iff⟩ :=
    (reachable.after [.assignIdentifier ⟨0, 5⟩ ""]).catalog_found .standard
  exact ⟨reachable, valid, ⟨catalog, found, resolves catalog found⟩,
    (missing_iff valid _).mpr ⟨"rrel_5", by decide +kernel, rfl⟩⟩

end Memory

end SemanticMemory
