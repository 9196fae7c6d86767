import SemanticMemory.Proofs.Catalogs
import SemanticMemory.Proofs.Progress

/-!
# Setting up the catalog

The catalog takes 22 elements: twelve nodes with the standard identifiers, and an arc to each role.
Its set-up makes all of them when there are places enough and the identifiers are free.
-/

namespace SemanticMemory

namespace Draft

/-- A named node for each name and an arc to it from the relation, where `place` gives the addresses
in order and `index` of them are taken. -/
def orderRoles (place : Nat → Address) (relation : Address) : Nat → List String → List Draft
  | _, [] => []
  | index, name :: names =>
      namedNode (place index) name :: membershipArc (place (index + 1)) relation (place index) ::
        orderRoles place relation (index + 2) names

/-- What the set-up of the standard catalog makes, where `place` gives the addresses in order. -/
def catalog (place : Nat → Address) : List Draft :=
  namedNode (place 0) CatalogNames.standard.orderRoleRelation ::
    namedNode (place 1) CatalogNames.standard.operatorAtomicType ::
      orderRoles place (place 0) 2 CatalogNames.standard.orderRoles

variable {place : Nat → Address} {relation : Address}

theorem length_catalog (place : Nat → Address) : (catalog place).length = 22 :=
  rfl

theorem countP_catalog (place : Nat → Address) :
    (catalog place).countP (fun draft => draft.type = .nodeConst) = 12 ∧
      (catalog place).countP (fun draft => draft.type = .membershipArc) = 10 :=
  ⟨rfl, rfl⟩

theorem filterMap_identifier_orderRoles (index : Nat) (names : List String) :
    (orderRoles place relation index names).filterMap identifier = names := by
  induction names generalizing index with
  | nil => rfl
  | cons name names ih => exact congrArg (name :: ·) (ih (index + 2))

theorem exists_mem_catalog_iff {name : String} :
    (∃ draft ∈ catalog place, draft.identifier = some name) ↔
      name ∈ CatalogNames.standard.identifiers := by
  have identifiers : (catalog place).filterMap identifier =
      CatalogNames.standard.orderRoleRelation :: CatalogNames.standard.operatorAtomicType ::
        CatalogNames.standard.orderRoles :=
    congrArg (_ :: _ :: ·) (filterMap_identifier_orderRoles 2 _)
  rw [← List.mem_filterMap, identifiers, CatalogNames.identifiers]
  simp only [List.mem_cons, List.mem_append, List.not_mem_nil, or_false]
  tauto

/-- The role at a position and its arc, among what is made for all roles. -/
theorem mem_orderRoles (place : Nat → Address) (relation : Address) {names : List String}
    {position : Nat} {name : String} (atPosition : names[position]? = some name) (index : Nat) :
    namedNode (place (index + 2 * position)) name ∈ orderRoles place relation index names ∧
      membershipArc (place (index + 2 * position + 1)) relation (place (index + 2 * position)) ∈
        orderRoles place relation index names := by
  induction names generalizing index position with
  | nil => simp at atPosition
  | cons first names ih =>
      cases position with
      | zero =>
          obtain rfl : first = name := by simpa using atPosition
          simp [orderRoles]
      | succ position =>
          obtain ⟨node, arc⟩ := ih (by simpa using atPosition) (index + 2)
          have later : index + 2 * (position + 1) = index + 2 + 2 * position := by omega
          rw [later]
          exact ⟨List.mem_cons_of_mem _ (List.mem_cons_of_mem _ node),
            List.mem_cons_of_mem _ (List.mem_cons_of_mem _ arc)⟩

/-- The role at a position of the standard catalog and its arc. -/
theorem mem_catalog {index : Nat} {name : String}
    (atPosition : CatalogNames.standard.orderRoles[index]? = some name) :
    namedNode (place (2 + 2 * index)) name ∈ catalog place ∧
      membershipArc (place (2 + 2 * index + 1)) (place 0) (place (2 + 2 * index)) ∈
        catalog place := by
  obtain ⟨node, arc⟩ := mem_orderRoles place (place 0) atPosition 2
  exact ⟨List.mem_cons_of_mem _ (List.mem_cons_of_mem _ node),
    List.mem_cons_of_mem _ (List.mem_cons_of_mem _ arc)⟩

end Draft

namespace Catalog

/-- The catalog of the nodes that its set-up makes. -/
def placed (place : Nat → Address) : Catalog where
  orderRoles := (List.range CatalogNames.roleCount).map fun index => place (2 + 2 * index)
  length_orderRoles := by rw [List.length_map, List.length_range]
  orderRoleRelation := place 0
  operatorAtomicType := place 1

theorem addresses_injective : Function.Injective addresses := by
  rintro ⟨firstRoles, firstLength, _, _⟩ ⟨secondRoles, secondLength, _, _⟩ same
  obtain ⟨rfl, others⟩ := List.append_inj same (firstLength.trans secondLength.symm)
  cases others
  rfl

theorem lookUp_of_locateAll {σ : Type} [TripleStore σ] {store : σ} {names : CatalogNames}
    {catalog : Catalog} (valid : names.validate = .ok ())
    (located : locateAll store names.identifiers = .ok catalog.addresses) :
    lookUp store names = .ok catalog := by
  rw [← map_addresses_lookUp valid] at located
  cases found : lookUp store names with
  | error failure =>
      rw [found] at located
      cases located
  | ok other =>
      rw [found] at located
      exact congrArg Except.ok (addresses_injective (Except.ok.inj located))

end Catalog

namespace Memory

variable {memory left : Memory} {place : Nat → Address}

/-- When the set-up of the catalog is done, the role at each position is marked. -/
theorem Builds.orderRole_marked (builds : memory.Builds left (Draft.catalog place))
    (linked : left.Linked) {position : Nat} (positive : 1 ≤ position)
    (within : position ≤ CatalogNames.roleCount) :
    ∃ role, (Catalog.placed place).orderRole? position = some role ∧
      (place 0, role) ∈ left.memberPairs := by
  obtain ⟨index, rfl⟩ := Nat.exists_eq_add_of_le' positive
  obtain ⟨name, atPosition⟩ : ∃ name, CatalogNames.standard.orderRoles[index]? = some name :=
    ⟨_, List.getElem?_eq_getElem within⟩
  obtain ⟨_, arc⟩ := Draft.mem_catalog atPosition
  refine ⟨place (2 + 2 * index), ?_, builds.mem_memberPairs linked arc⟩
  rw [Catalog.orderRole?, Catalog.placed, List.getElem?_map, List.getElem?_range within]
  rfl

/-- When the set-up of the catalog is done, the catalog is found. -/
theorem Builds.lookUp_standard (builds : memory.Builds left (Draft.catalog place))
    (namedLeft : left.Named) : Catalog.lookUp left .standard = .ok (.placed place) := by
  have valid : CatalogNames.standard.validate = .ok () := by decide +kernel
  have owned {name : String} {node : Address}
      (member : .namedNode node name ∈ Draft.catalog place) : left.owner? name = some node :=
    builds.owner?_of_mem namedLeft member rfl
  have rolesOwned : List.Forall₂ (fun name role => left.owner? name = some role)
      CatalogNames.standard.orderRoles (Catalog.placed place).orderRoles := by
    refine List.forall₂_map_left_iff.mpr (List.forall₂_map_right_iff.mpr (List.forall₂_same.mpr ?_))
    intro index inRange
    have atPosition : CatalogNames.standard.orderRoles[index]? =
        some ("rrel_" ++ toString (index + 1)) := by
      rw [CatalogNames.standard, List.getElem?_map, List.getElem?_range (List.mem_range.mp inRange)]
      rfl
    exact owned (Draft.mem_catalog atPosition).1
  have relationOwned := owned List.mem_cons_self
  have operatorOwned := owned (List.mem_cons_of_mem _ List.mem_cons_self)
  exact Catalog.lookUp_of_locateAll valid (Catalog.locateAll_eq_ok_iff.mpr
    (List.rel_append rolesOwned (.cons relationOwned (.cons operatorOwned .nil))))

end Memory

namespace Ledger

open Memory Setup

variable {limits : Limits} {ledger : Ledger} {made : List Draft} {left : Memory}

/-- The names that are still to come are carried by nothing that was made, so each stays free until
its turn. -/
theorem Progress.createOrderRoles (valid : limits.validate = .ok ()) (start : ledger.memory.Named)
    {relation : Address} {names : List String} (progress : Progress limits ledger made left)
    (relationMade : relation ∈ made.map Draft.address) (filled : ∀ name ∈ names, name ≠ "")
    (distinct : (made.filterMap Draft.identifier ++ names).Nodup) :
    Outcome limits ledger
      (made ++ Draft.orderRoles (ledger.following limits) relation made.length names) ()
      ((Setup.createOrderRoles relation names).run left) := by
  induction names generalizing made left with
  | nil =>
      rw [Draft.orderRoles, List.append_nil]
      exact .completed progress
  | cons name names ih =>
      rw [List.forall_mem_cons] at filled
      have unused : name ∉ made.filterMap Draft.identifier :=
        fun used => (List.nodup_append.mp distinct).2.2 name used name List.mem_cons_self rfl
      rw [Draft.orderRoles, List.append_cons]
      refine (progress.namedNode valid start filled.1 unused).bind fun middle progress => ?_
      have relationStays := Draft.mem_addresses_append relationMade
        [.namedNode (ledger.following limits made.length) name]
      have roleMade : ledger.following limits made.length ∈ (made ++
          [Draft.namedNode (ledger.following limits made.length) name]).map Draft.address :=
        List.mem_map_of_mem List.mem_concat_self
      have arc := progress.markOrderRole valid relationStays roleMade
      rw [List.length_append, List.length_singleton] at arc
      rw [List.append_cons]
      refine arc.bind fun middle progress => ?_
      have rest := ih progress (Draft.mem_addresses_append relationStays _) filled.2 (by
        rw [List.append_cons] at distinct
        rw [List.append_assoc, List.filterMap_append]
        exact distinct)
      simpa only [List.length_append, List.length_singleton] using rest

/-- The set-up of the catalog goes through its drafts, and when all elements are made nothing stops
the catalog from being looked up. -/
theorem Numbered.bootstrap (numbered : Numbered limits ledger) (valid : limits.validate = .ok ()) :
    Outcome limits ledger (Draft.catalog (ledger.following limits))
      (Catalog.placed (ledger.following limits)) (Setup.bootstrap.run ledger.memory) := by
  have start := numbered.sound.named
  have listed : Draft.catalog (ledger.following limits) =
      [Draft.namedNode (ledger.following limits 0) CatalogNames.standard.orderRoleRelation] ++
        ([Draft.namedNode (ledger.following limits 1) CatalogNames.standard.operatorAtomicType] ++
          (Draft.orderRoles (ledger.following limits) (ledger.following limits 0) 2
            CatalogNames.standard.orderRoles ++ [])) := by
    rw [List.append_nil]
    rfl
  rw [listed]
  refine (numbered.progress.namedNode valid start (by decide) List.not_mem_nil).bind
    fun middle progress => ?_
  rw [← List.append_assoc]
  have unused : CatalogNames.standard.operatorAtomicType ∉
      [CatalogNames.standard.orderRoleRelation] := by
    decide
  refine (progress.namedNode valid start (by decide) unused).bind fun middle progress => ?_
  rw [← List.append_assoc]
  refine (progress.createOrderRoles valid start List.mem_cons_self (by decide) ?_).bind
    fun middle progress => ?_
  · change (CatalogNames.standard.orderRoleRelation :: CatalogNames.standard.operatorAtomicType ::
      CatalogNames.standard.orderRoles).Nodup
    decide +kernel
  · have found := progress.builds.lookUp_standard progress.numbered.sound.named
    obtain ⟨events, ran⟩ :=
      succeeds_atStage_iff.mpr (Catalog.succeeds_resolve_iff.mpr ⟨found, rfl⟩)
    rw [ran, List.append_nil]
    exact .completed progress

/-- In a memory that calls lead to, the catalog is set up exactly when its identifiers are free and
22 elements can still be created.  It is then the catalog of the nodes that were made, and every
role is marked.  Otherwise the elements made are the first of those 22, up to the first that finds
no place or no free identifier.  Either way, what was there before is as it was. -/
theorem catalog_bootstrapped (valid : limits.validate = .ok ()) (calls : List Call) :
    let ledger := ofCalls limits calls
    let memory := ledger.memory
    let drafts := Draft.catalog (ledger.following limits)
    let reply := Setup.bootstrap.run memory
    memory = (Memory.empty limits).after calls ∧
    ((∃ catalog, reply.result = .ok catalog) ↔
      (∀ name ∈ CatalogNames.standard.identifiers, memory.owner? name = none) ∧
        ledger.handedOut.length + 22 ≤ limits.capacity) ∧
    (∀ catalog, reply.result = .ok catalog →
      Progress limits ledger drafts reply.state ∧
      drafts.countP (fun draft => draft.type = .nodeConst) = 12 ∧
      drafts.countP (fun draft => draft.type = .membershipArc) = 10 ∧
      catalog = .placed (ledger.following limits) ∧
      reply.state.Resolves .standard catalog ∧
      ∀ position, 1 ≤ position → position ≤ 10 →
        ∃ role, catalog.orderRole? position = some role ∧
          (Membership.add catalog.orderRoleRelation role).run reply.state =
            ⟨.ok false, reply.state, []⟩) ∧
    (∀ stage, reply.result = .error stage →
      ∃ made, Stops limits ledger drafts stage made ∧ Progress limits ledger made reply.state) ∧
    (∃ made, made.map Draft.nameless <+: drafts.map Draft.nameless ∧
      Progress limits ledger made reply.state) ∧
    (∀ address, memory.isElement address = true →
      reply.state.isElement address = true ∧
      reply.state.elementType address = memory.elementType address ∧
      reply.state.endpoints address = memory.endpoints address ∧
      reply.state.identifier address = memory.identifier address) ∧
    ∀ name owner, memory.owner? name = some owner → reply.state.owner? name = some owner := by
  intro ledger memory drafts reply
  have numbered : Numbered limits ledger := numbered_ofCalls valid calls
  have start := numbered.sound.named
  have outcome : Outcome limits ledger drafts (.placed (ledger.following limits)) reply :=
    numbered.bootstrap valid
  obtain ⟨made, isPrefix, progress⟩ := outcome.progress
  refine ⟨memory_ofCalls limits calls, ?_, ?_, fun stage => outcome.of_error,
    ⟨made, isPrefix, progress⟩, fun address => progress.builds.keeps,
    fun name owner => progress.builds.owner?_eq start progress.numbered.sound.named⟩
  · rw [outcome.exists_ok_iff start]
    simp only [drafts, Draft.exists_mem_catalog_iff, Draft.length_catalog]
    rfl
  · intro catalog got
    obtain ⟨rfl, completed⟩ := outcome.of_ok got
    have sound := completed.numbered.sound
    have found := completed.builds.lookUp_standard sound.named
    obtain ⟨nodes, arcs⟩ := Draft.countP_catalog (ledger.following limits)
    refine ⟨completed, nodes, arcs, rfl, sound.named.resolves_of_lookUp found, ?_⟩
    intro position positive within
    obtain ⟨role, atPosition, marked⟩ :=
      completed.builds.orderRole_marked sound.linked positive within
    exact ⟨role, atPosition, (sound.linked.run_add _ role).trans (if_pos marked)⟩

/-- There are 25 places.  After two elements there is room for the catalog, unless one of them has
the name of a role; after four there is no room. -/
theorem catalog_bootstrapped_after_two :
    (⟨5, 5⟩ : Limits).validate = .ok () ∧
      (∃ catalog,
        (Setup.bootstrap.run (ofCalls ⟨5, 5⟩ [.createLink, .createLink]).memory).result =
          .ok catalog ∧ catalog.orderRoleRelation = ⟨0, 3⟩ ∧ catalog.orderRole? 10 = some ⟨4, 3⟩) ∧
      (∀ name, name ∈ CatalogNames.standard.orderRoles →
        ¬∃ catalog, (Setup.bootstrap.run (ofCalls ⟨5, 5⟩
          [.createLink, .createLink, .assignIdentifier ⟨0, 2⟩ name]).memory).result =
            .ok catalog) ∧
      ¬∃ catalog, (Setup.bootstrap.run
        (ofCalls ⟨5, 5⟩ (List.replicate 4 .createLink)).memory).result = .ok catalog := by
  have valid : (⟨5, 5⟩ : Limits).validate = .ok () := rfl
  have free : ∀ name ∈ CatalogNames.standard.identifiers,
      (ofCalls ⟨5, 5⟩ [.createLink, .createLink]).memory.owner? name = none := by
    decide +kernel
  have used : (ofCalls ⟨5, 5⟩ [.createLink, .createLink]).handedOut.length = 2 := by cbv
  have usedMore : (ofCalls ⟨5, 5⟩ (List.replicate 4 .createLink)).handedOut.length = 4 := by cbv
  have owned : ∀ name ∈ CatalogNames.standard.orderRoles,
      ((ofCalls ⟨5, 5⟩ [.createLink, .createLink, .assignIdentifier ⟨0, 2⟩ name]).memory.owner?
        name).isSome = true := by
    decide +kernel
  obtain ⟨_, succeeds_iff, succeeded, _⟩ := catalog_bootstrapped valid [.createLink, .createLink]
  obtain ⟨catalog, got⟩ := succeeds_iff.mpr ⟨free, by rw [used]; decide⟩
  obtain ⟨_, _, _, placed, _⟩ := succeeded catalog got
  refine ⟨valid, ⟨catalog, got, ?_, ?_⟩, ?_, ?_⟩
  · rw [placed]
    cbv
  · rw [placed]
    cbv
  · intro name isRole got
    obtain ⟨_, succeeds_iff, _⟩ := catalog_bootstrapped valid
      [.createLink, .createLink, .assignIdentifier ⟨0, 2⟩ name]
    have isFree := (succeeds_iff.mp got).1 name (List.mem_append_left _ isRole)
    have isOwned := owned name isRole
    rw [isFree] at isOwned
    exact Bool.false_ne_true isOwned
  · intro got
    obtain ⟨_, succeeds_iff, _⟩ := catalog_bootstrapped valid (List.replicate 4 .createLink)
    have room := (succeeds_iff.mp got).2
    rw [usedMore] at room
    exact absurd room (by decide)

end Ledger

end SemanticMemory
