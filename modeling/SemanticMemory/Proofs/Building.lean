import SemanticMemory.Setup
import SemanticMemory.Proofs.Answers
import SemanticMemory.Proofs.Renaming

/-!
# What set-ups add

A set-up that succeeds adds constant nodes and membership arcs.  Whatever lived before keeps its
type and its identifier, and the new arcs come last in every answer that they belong to.
-/

namespace SemanticMemory

namespace Catalog

variable {σ : Type} [TripleStore σ] {store : σ}

theorem locate_eq_ok_iff {identifier : String} {address : Address} :
    locate store identifier = .ok address ↔
      TripleStore.owner? store identifier = some address := by
  unfold locate
  cases TripleStore.owner? store identifier <;> simp

theorem locateAll_eq_ok_iff {identifiers : List String} {addresses : List Address} :
    locateAll store identifiers = .ok addresses ↔
      List.Forall₂ (fun identifier address => TripleStore.owner? store identifier = some address)
        identifiers addresses := by
  induction identifiers generalizing addresses with
  | nil => simp [locateAll, eq_comm]
  | cons identifier identifiers ih =>
      rw [List.forall₂_cons_left_iff]
      unfold locateAll
      cases owned : TripleStore.owner? store identifier with
      | none => simp [locate, owned, bind, Except.bind]
      | some address =>
          cases rest : locateAll store identifiers with
          | error failure => simp [locate, owned, rest, bind, Except.bind, ← ih]
          | ok others =>
              simp only [locate, owned, rest, bind, Except.bind, pure, Except.pure, ← ih,
                Except.ok.injEq, Option.some.injEq, exists_and_left, exists_eq_left']
              exact eq_comm

/-- A catalog that was looked up holds the owners of the names. -/
theorem owners_of_lookUp {names : CatalogNames} {catalog : Catalog}
    (found : lookUp store names = .ok catalog) :
    List.Forall₂ (fun identifier address => TripleStore.owner? store identifier = some address)
        names.orderRoles catalog.orderRoles ∧
      TripleStore.owner? store names.orderRoleRelation = some catalog.orderRoleRelation ∧
      TripleStore.owner? store names.operatorAtomicType = some catalog.operatorAtomicType := by
  unfold lookUp at found
  split at found
  · cases found
  · split at found
    · cases found
    · next located =>
        cases relation : locate store names.orderRoleRelation with
        | error failure => simp [relation, bind, Except.bind] at found
        | ok relationAddress =>
            cases marker : locate store names.operatorAtomicType with
            | error failure => simp [relation, marker, bind, Except.bind] at found
            | ok markerAddress =>
                simp only [relation, marker, bind, Except.bind, pure, Except.pure,
                  Except.ok.injEq] at found
                subst found
                exact ⟨locateAll_eq_ok_iff.mp located, locate_eq_ok_iff.mp relation,
                  locate_eq_ok_iff.mp marker⟩

theorem succeeds_resolve_iff {names : CatalogNames} {catalog : Catalog} {next : σ} :
    (resolve names).Succeeds store catalog next ↔
      lookUp store names = .ok catalog ∧ next = store := by
  simp only [resolve, Action.succeeds_bind_iff, Action.succeeds_query_iff, Action.succeeds_emit_iff,
    Action.succeeds_pure_iff]
  constructor
  · rintro ⟨middle, between, ⟨found, rfl⟩, _, _, rfl, rfl, rfl⟩
    exact ⟨found, rfl⟩
  · rintro ⟨found, rfl⟩
    exact ⟨_, _, ⟨found, rfl⟩, (), _, rfl, rfl, rfl⟩

end Catalog

namespace Memory

variable {memory next last : Memory}

/-- Constant nodes and membership arcs were added, and perhaps other nodes and links; nothing else
is different. -/
structure Gains (memory next : Memory) (nodes : List Address) (arcs : List Triple) : Prop where
  sound : next.Sound
  typeAt?_eq {address : Address} : memory.isElement address = true →
    next.typeAt? address = memory.typeAt? address
  owner?_eq {identifier : String} {owner : Address} : memory.owner? identifier = some owner →
    next.owner? identifier = some owner
  new {node : Address} : node ∈ nodes → memory.isElement node = false
  nodeConst {node : Address} : node ∈ nodes → next.typeAt? node = some .nodeConst
  nodup : nodes.Nodup
  scan_eq {type : ElementType} : ElementType.membershipArc.carries type = true →
    next.scan ⟨.any, type, .any⟩ = memory.scan ⟨.any, type, .any⟩ ++ arcs

section Gains

variable {nodes more : List Address} {arcs others : List Triple}

theorem Gains.refl (sound : memory.Sound) : memory.Gains memory [] [] where
  sound := sound
  typeAt?_eq _ := rfl
  owner?_eq owned := owned
  new member := nomatch member
  nodeConst member := nomatch member
  nodup := List.nodup_nil
  scan_eq _ := (List.append_nil _).symm

theorem Gains.isElement (gains : memory.Gains next nodes arcs) {address : Address}
    (lives : memory.isElement address = true) : next.isElement address = true := by
  rw [isElement_eq_isSome_typeAt?] at lives ⊢
  rwa [gains.typeAt?_eq (by rwa [isElement_eq_isSome_typeAt?])]

theorem Gains.isElement_of_mem (gains : memory.Gains next nodes arcs) {node : Address}
    (member : node ∈ nodes) : next.isElement node = true := by
  rw [isElement_eq_isSome_typeAt?, gains.nodeConst member]
  rfl

theorem Gains.trans (first : memory.Gains next nodes arcs) (second : next.Gains last more others) :
    memory.Gains last (nodes ++ more) (arcs ++ others) := by
  constructor
  case sound => exact second.sound
  case typeAt?_eq =>
    exact fun lives => (second.typeAt?_eq (first.isElement lives)).trans (first.typeAt?_eq lives)
  case owner?_eq => exact fun owned => second.owner?_eq (first.owner?_eq owned)
  case new =>
    intro node member
    rcases List.mem_append.mp member with early | late
    · exact first.new early
    · have missing := second.new late
      by_contra lives
      rw [first.isElement (Bool.not_eq_false _ ▸ lives)] at missing
      contradiction
  case nodeConst =>
    intro node member
    rcases List.mem_append.mp member with early | late
    · rw [second.typeAt?_eq (first.isElement_of_mem early), first.nodeConst early]
    · exact second.nodeConst late
  case nodup =>
    refine List.nodup_append.mpr ⟨first.nodup, second.nodup, ?_⟩
    rintro node early _ late rfl
    have missing := second.new late
    rw [first.isElement_of_mem early] at missing
    contradiction
  case scan_eq =>
    intro type carried
    rw [second.scan_eq carried, first.scan_eq carried, List.append_assoc]

/-- A constant node that is new may be counted among what was added. -/
theorem Gains.count (gains : memory.Gains next [] arcs) {node : Address}
    (new : memory.isElement node = false) (typed : next.typeAt? node = some .nodeConst) :
    memory.Gains next [node] arcs where
  sound := gains.sound
  typeAt?_eq := gains.typeAt?_eq
  owner?_eq := gains.owner?_eq
  new member := List.mem_singleton.mp member ▸ new
  nodeConst member := List.mem_singleton.mp member ▸ typed
  nodup := List.nodup_singleton node
  scan_eq := gains.scan_eq

end Gains

theorem succeeds_insert {type : ElementType} {ends : Option (Address × Address)}
    {place : Address} (made : (insert type ends).Succeeds memory place next) :
    memory.limits.settle memory.cursor = some place ∧ next = memory.extended place type ends := by
  obtain ⟨events, reply⟩ := made
  rcases run_insert_cases memory type ends with ⟨other, settled, created⟩ | ⟨_, refused, _⟩
  · rw [created] at reply
    cases reply
    exact ⟨settled, rfl⟩
  · rw [refused] at reply
    cases reply

/-- A new element adds what it would answer by itself. -/
theorem Sound.gains_extended (sound : memory.Sound) {place : Address} {type : ElementType}
    {ends : Option (Address × Address)} (fits : memory.Fits place type ends)
    {arcs : List Triple}
    (answers : ∀ asked, ElementType.membershipArc.carries asked = true →
      (memory.tripleFor ⟨.any, asked, .any⟩ (place, .fresh type ends)).toList = arcs) :
    memory.Gains (memory.extended place type ends) [] arcs where
  sound := sound.extended fits
  typeAt?_eq lives := typeAt?_extended_of_isElement sound.ahead fits.settled lives
  owner?_eq owned := owned
  new member := nomatch member
  nodeConst member := nomatch member
  nodup := List.nodup_nil
  scan_eq carried := by rw [sound.scan_extended fits, answers _ carried]

theorem Sound.gains_insert (sound : memory.Sound) {type : ElementType} {place : Address}
    (single : type.hasSingleKind = true) (notEdge : type.isEdge = false)
    (made : (Memory.insert type none).Succeeds memory place next) :
    memory.Gains next [] [] ∧ memory.isElement place = false ∧
      next.elements[place]? = some (.fresh type none) := by
  obtain ⟨settled, rfl⟩ := succeeds_insert made
  refine ⟨sound.gains_extended (fits_leaf single notEdge settled) fun _ _ => rfl,
    sound.ahead.isElement_place settled, ?_⟩
  rw [getElem?_extended, if_pos rfl]
  rfl

theorem Sound.gains_createNode (sound : memory.Sound) {type : ElementType} {node : Address}
    (made : (Memory.createNode type).Succeeds memory node next) :
    memory.Gains next [] [] ∧ memory.isElement node = false ∧
      next.elements[node]? = some (.fresh type none) := by
  by_cases fits : type.fitsNode = true
  · obtain ⟨single, notEdge⟩ := isEdge_of_fitsNode fits
    rw [Memory.createNode, if_pos fits] at made
    exact sound.gains_insert single notEdge made
  · rw [Memory.createNode, if_neg fits] at made
    exact absurd made Action.not_succeeds_fail

/-- A membership arc that is made is all that is added. -/
theorem Sound.gains_createEdge (sound : memory.Sound) {source target arc : Address}
    (made : (Memory.createEdge .membershipArc source target).Succeeds memory arc next) :
    memory.Gains next [] [⟨source, arc, target⟩] := by
  obtain ⟨events, reply⟩ := made
  rcases run_createEdge_cases memory .membershipArc source target with
    ⟨error, refused⟩ | ⟨fits, sourceLives, targetLives, created⟩
  · rw [refused] at reply
    cases reply
  · obtain ⟨settled, rfl⟩ := succeeds_insert ⟨events, created ▸ reply⟩
    refine sound.gains_extended (fits_edge fits sourceLives targetLives settled) ?_
    intro asked carried
    have answers : memory.tripleFor ⟨.any, asked, .any⟩
        (arc, .fresh .membershipArc (some (source, target))) = some ⟨source, arc, target⟩ :=
      tripleFor_eq_some_iff.mpr
        ⟨rfl, rfl, carried, fits_any_iff.mpr sourceLives, fits_any_iff.mpr targetLives⟩
    rw [answers, Option.toList_some]

/-- An element that carried no identifier takes none away by being given one. -/
theorem Sound.gains_assignIdentifier (sound : memory.Sound) {node : Address} {element : Element}
    (found : memory.elements[node]? = some element) (nameless : element.identifier = none)
    {text : String} (assigned : (Memory.assignIdentifier node text).Succeeds memory () next) :
    memory.Gains next [] [] ∧ (text ≠ "" → next.owner? text = some node) := by
  obtain ⟨events, reply⟩ := assigned
  have sound_next := sound.assignIdentifier node text
  rw [reply] at sound_next
  rw [run_assignIdentifier, found] at reply
  cases owned : memory.owner? text with
  | some owner =>
      rw [owned] at reply
      dsimp only at reply
      split at reply
      · next same =>
          cases reply
          exact ⟨.refl sound, fun _ => same ▸ owned⟩
      · cases reply
  | none =>
      rw [owned] at reply
      cases reply
      have same := memory.sameGraph_renamed node element.identifier text
      constructor
      · exact
          { sound := sound_next
            typeAt?_eq := fun _ => same.typeAt?_eq _
            owner?_eq := by
              intro identifier owner ownedBefore
              have notNew : carried text ≠ some identifier := by
                intro new
                rw [(carried_eq_some_iff.mp new).1, ownedBefore] at owned
                contradiction
              rw [owner?_renamed, if_neg notNew, nameless, if_neg nofun, ownedBefore]
            new := nofun
            nodeConst := nofun
            nodup := List.nodup_nil
            scan_eq := fun _ => by rw [same.scan_eq, List.append_nil] }
      · intro nonempty
        rw [owner?_renamed, if_pos (carried_eq_some_iff.mpr ⟨rfl, nonempty⟩)]

section Setup

open Setup

theorem Sound.gains_namedNode (sound : memory.Sound) {name : String} {node : Address}
    (made : (namedNode name).Succeeds memory node next) :
    memory.Gains next [node] [] ∧ (name ≠ "" → next.owner? name = some node) := by
  simp only [namedNode, Action.succeeds_bind_iff, succeeds_atStage_iff, Action.succeeds_pure_iff] at made
  obtain ⟨created, between, nodeMade, _, _, assigned, rfl, rfl⟩ := made
  obtain ⟨gains, missing, found⟩ := sound.gains_createNode nodeMade
  obtain ⟨named, owned⟩ := gains.sound.gains_assignIdentifier found rfl assigned
  have typed : between.typeAt? node = some .nodeConst :=
    typeAt?_eq_some_iff.mpr ⟨_, found, rfl⟩
  have counted := (gains.count missing typed).trans named
  exact ⟨counted, owned⟩

theorem Sound.gains_createOrderRoles (sound : memory.Sound) {relation : Address}
    {names : List String} (nonempty : ∀ name ∈ names, name ≠ "") {done : Unit}
    (made : (createOrderRoles relation names).Succeeds memory done next) :
    ∃ roles arcs, memory.Gains next roles arcs ∧
      arcs.map (fun triple => (triple.source, triple.target)) = roles.map (Prod.mk relation) ∧
      List.Forall₂ (fun name role => next.owner? name = some role) names roles := by
  induction names generalizing memory with
  | nil =>
      obtain ⟨_, rfl⟩ := Action.succeeds_pure_iff.mp made
      exact ⟨[], [], .refl sound, rfl, .nil⟩
  | cons name names ih =>
      rw [List.forall_mem_cons] at nonempty
      simp only [createOrderRoles, Action.succeeds_bind_iff, succeeds_atStage_iff] at made
      obtain ⟨role, _, roleMade, arc, _, marked, rest⟩ := made
      obtain ⟨named, owned⟩ := sound.gains_namedNode roleMade
      have linked := named.sound.gains_createEdge marked
      obtain ⟨roles, arcs, gains, pairs, owners⟩ := ih linked.sound nonempty.2 rest
      refine ⟨role :: roles, ⟨relation, arc, role⟩ :: arcs, (named.trans linked).trans gains,
        ?_, ?_⟩
      · rw [List.map_cons, List.map_cons, pairs]
      · exact .cons (gains.owner?_eq (linked.owner?_eq (owned nonempty.1))) owners

/-- The catalog is made of new nodes, and the relation of roles has an arc to each role. -/
theorem Sound.gains_bootstrap (sound : memory.Sound) {catalog : Catalog}
    (made : bootstrap.Succeeds memory catalog next) :
    ∃ arcs, memory.Gains next
        (catalog.orderRoleRelation :: catalog.operatorAtomicType :: catalog.orderRoles) arcs ∧
      arcs.map (fun triple => (triple.source, triple.target)) =
        catalog.orderRoles.map (Prod.mk catalog.orderRoleRelation) := by
  simp only [bootstrap, Action.succeeds_bind_iff, succeeds_atStage_iff,
    Catalog.succeeds_resolve_iff] at made
  obtain ⟨relation, _, relationMade, marker, _, markerMade, _, _, rolesMade, found, rfl⟩ := made
  obtain ⟨relationGains, relationOwned⟩ := sound.gains_namedNode relationMade
  obtain ⟨markerGains, markerOwned⟩ := relationGains.sound.gains_namedNode markerMade
  obtain ⟨roles, arcs, rolesGains, pairs, rolesOwned⟩ :=
    markerGains.sound.gains_createOrderRoles (by decide) rolesMade
  obtain ⟨rolesFound, relationFound, markerFound⟩ := Catalog.owners_of_lookUp found
  have sameRelation : catalog.orderRoleRelation = relation :=
    Option.some.inj (relationFound.symm.trans
      (rolesGains.owner?_eq (markerGains.owner?_eq (relationOwned (by decide)))))
  have sameMarker : catalog.operatorAtomicType = marker :=
    Option.some.inj (markerFound.symm.trans (rolesGains.owner?_eq (markerOwned (by decide))))
  have sameRoles : catalog.orderRoles = roles :=
    List.right_unique_forall₂' (fun _ _ _ first second =>
      Option.some.inj (first.symm.trans second)) rolesFound rolesOwned
  rw [sameRelation, sameMarker, sameRoles]
  exact ⟨arcs, (relationGains.trans markerGains).trans rolesGains, pairs⟩

/-- A new operator and its new type are constant nodes; the type is marked and has an arc to the
operator. -/
theorem Sound.gains_makeOperator (sound : memory.Sound) {catalog : Catalog} {name : String}
    {operator atomicType : Address}
    (made : (makeOperator catalog name).Succeeds memory (operator, atomicType) next) :
    ∃ marking classifying, memory.Gains next [atomicType, operator]
      [⟨catalog.operatorAtomicType, marking, atomicType⟩,
        ⟨atomicType, classifying, operator⟩] := by
  simp only [makeOperator, Action.succeeds_bind_iff, succeeds_atStage_iff,
    Action.succeeds_pure_iff, Prod.mk.injEq] at made
  obtain ⟨_, _, typeMade, marking, _, marked, _, _, operatorMade, classifying, _, classified,
    ⟨rfl, rfl⟩, rfl⟩ := made
  obtain ⟨typeGains, _⟩ := sound.gains_namedNode typeMade
  have markingGains := typeGains.sound.gains_createEdge marked
  obtain ⟨operatorGains, missing, found⟩ := markingGains.sound.gains_createNode operatorMade
  have counted := operatorGains.count missing (typeAt?_eq_some_iff.mpr ⟨_, found, rfl⟩)
  have classifyingGains := counted.sound.gains_createEdge classified
  exact ⟨marking, classifying,
    ((typeGains.trans markingGains).trans counted).trans classifyingGains⟩

theorem Sound.gains_attachOrderRole (sound : memory.Sound) {catalog : Catalog}
    {arc tag : Address} {position : Nat}
    (made : (attachOrderRole catalog arc position).Succeeds memory tag next) :
    ∃ role, catalog.orderRole? position = some role ∧
      memory.Gains next [] [⟨role, tag, arc⟩] := by
  unfold attachOrderRole at made
  cases atPosition : catalog.orderRole? position with
  | none =>
      rw [atPosition] at made
      exact absurd made Action.not_succeeds_fail
  | some role =>
      rw [atPosition] at made
      exact ⟨role, rfl, sound.gains_createEdge (succeeds_atStage_iff.mp made)⟩

end Setup

end Memory

end SemanticMemory
