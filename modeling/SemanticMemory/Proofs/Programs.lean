import SemanticMemory.Proofs.Building
import SemanticMemory.Proofs.Marking
import SemanticMemory.Proofs.Wiring

/-!
# Programs in a store

Operators, types, roles and arcs may themselves be arguments, so an element may have many access
arcs from constant nodes.  The resolvers still find the type of an operator and the role of an arc,
because the two markers have arcs to nothing but types and roles.
-/

namespace SemanticMemory

open TripleStore

/-- Reads the arguments of an operator with their positions, in the order of the store. -/
def Marker.readArguments {σ : Type} [TripleStore σ] (catalog : Catalog) (operator : Address) :
    Action σ Failure (List (Option Nat × Address)) := do
  let triples ← ask fun store => matching store ⟨operator, .accessArc, .any⟩
  triples.mapM fun triple => do
    let role ← resolveOrderRole catalog triple.edge
    return (role.bind catalog.position?, triple.target)

/-- A store that successful calls lead to, with the program that the calls built. -/
inductive Built {σ : Type} [TripleStore σ] (start : σ) (catalog : Catalog) : σ → Program → Prop where
  | bootstrap {store : σ} (ready : Setup.bootstrap.Succeeds start catalog store) :
      Built start catalog store .empty
  | createNode {store next : σ} {program : Program} {type : ElementType} {node : Address}
      (built : Built start catalog store program)
      (made : (createNode type).Succeeds store node next) : Built start catalog next program
  | createLink {store next : σ} {program : Program} {link : Address}
      (built : Built start catalog store program)
      (made : createLink.Succeeds store link next) : Built start catalog next program
  | makeOperator {store next : σ} {program : Program} {name : String}
      {operator atomicType : Address} (built : Built start catalog store program)
      (made : (Setup.makeOperator catalog name).Succeeds store (operator, atomicType) next) :
      Built start catalog next (program.withOperator operator atomicType)
  | attach {store between next : σ} {program : Program} {argument : Argument}
      {atomicType tag : Address} (built : Built start catalog store program)
      (made : (argument.operator, atomicType) ∈ program.operators)
      (attached : (createEdge .membershipArc argument.operator argument.argument).Succeeds store
        argument.arc between)
      (tagged : (Setup.attachOrderRole catalog argument.arc argument.position).Succeeds between
        tag next) :
      Built start catalog next (program.withArgument argument)

/-- The answers of the store give the program back. -/
structure Tells {σ : Type} [TripleStore σ] (store : σ) (catalog : Catalog) (program : Program) :
    Prop where
  operatorType {operator atomicType : Address} : (operator, atomicType) ∈ program.operators →
    (Marker.resolveOperatorType catalog operator).Succeeds store (some atomicType) store
  orderRole {argument : Argument} : argument ∈ program.arguments →
    ∃ role, catalog.orderRole? argument.position = some role ∧
      (Marker.resolveOrderRole catalog argument.arc).Succeeds store (some role) store
  matching_eq {operator atomicType : Address} : (operator, atomicType) ∈ program.operators →
    matching store ⟨operator, .accessArc, .any⟩ =
      .ok ((program.argumentsOf operator).map Argument.triple)
  readArguments {operator atomicType : Address} : (operator, atomicType) ∈ program.operators →
    (Marker.readArguments catalog operator).Succeeds store
      ((program.argumentsOf operator).map fun argument =>
        (some argument.position, argument.argument)) store

/-- Building over a layer that reverses answers is building under it. -/
theorem Built.inner {σ : Type} [TripleStore σ] {start store : Reversed σ} {catalog : Catalog}
    {program : Program} (built : Built start catalog store program) :
    Built start.inner catalog store.inner program := by
  induction built with
  | bootstrap ready =>
      rw [Setup.bootstrap_reversed] at ready
      exact .bootstrap (Reversed.succeeds_within_iff.mp ready)
  | createNode _ made ih => exact ih.createNode (Reversed.succeeds_within_iff.mp made)
  | createLink _ made ih => exact ih.createLink (Reversed.succeeds_within_iff.mp made)
  | makeOperator _ made ih =>
      rw [Setup.makeOperator_reversed] at made
      exact ih.makeOperator (Reversed.succeeds_within_iff.mp made)
  | attach _ made attached tagged ih =>
      rw [Setup.attachOrderRole_reversed] at tagged
      exact ih.attach made (Reversed.succeeds_within_iff.mp attached)
        (Reversed.succeeds_within_iff.mp tagged)

variable {memory next : Memory} {catalog : Catalog} {program later : Program}
  {arcs more : List Triple}

namespace Memory

/-- All arcs of the memory are those of the program. -/
structure Layout (memory : Memory) (catalog : Catalog) (program : Program) (arcs : List Triple) :
    Prop where
  sound : memory.Sound
  wired : program.Wired catalog arcs
  scan_eq {type : ElementType} : ElementType.membershipArc.carries type = true →
    memory.scan ⟨.any, type, .any⟩ = arcs
  distinct : (program.nodes catalog).Nodup
  nodeConst {node : Address} : node ∈ program.nodes catalog →
    memory.typeAt? node = some .nodeConst

theorem Layout.isElement_of_mem (layout : memory.Layout catalog program arcs) {node : Address}
    (member : node ∈ program.nodes catalog) : memory.isElement node = true := by
  rw [isElement_eq_isSome_typeAt?, layout.nodeConst member]
  rfl

/-- A program grows with the memory. -/
theorem Layout.grown (layout : memory.Layout catalog program arcs) {nodes : List Address}
    (gains : memory.Gains next nodes more) (wired : later.Wired catalog (arcs ++ more))
    (same : (later.nodes catalog).Perm (program.nodes catalog ++ nodes)) :
    next.Layout catalog later (arcs ++ more) := by
  constructor
  case sound => exact gains.sound
  case wired => exact wired
  case scan_eq => exact fun carried => by rw [gains.scan_eq carried, layout.scan_eq carried]
  case distinct =>
    refine same.nodup_iff.mpr (List.nodup_append.mpr ⟨layout.distinct, gains.nodup, ?_⟩)
    rintro node old _ new rfl
    have lives := layout.isElement_of_mem old
    rw [gains.new new] at lives
    contradiction
  case nodeConst =>
    intro node member
    rcases List.mem_append.mp (same.mem_iff.mp member) with old | new
    · rw [gains.typeAt?_eq (layout.isElement_of_mem old), layout.nodeConst old]
    · exact gains.nodeConst new

theorem exists_layout_of_built {limits : Limits}
    (built : Built (Memory.empty limits) catalog memory program) :
    ∃ arcs, memory.Layout catalog program arcs := by
  induction built with
  | bootstrap ready =>
      obtain ⟨arcs, gains, pairs⟩ := (Sound.empty limits).gains_bootstrap ready
      have nodes_eq : Program.empty.nodes catalog =
          catalog.orderRoleRelation :: catalog.operatorAtomicType :: catalog.orderRoles := by
        simp [Program.nodes, Program.empty]
      exact ⟨arcs,
        { sound := gains.sound
          wired := .bootstrap pairs
          scan_eq := fun carried => by rw [gains.scan_eq carried, scan_empty, List.nil_append]
          distinct := nodes_eq ▸ gains.nodup
          nodeConst := fun member => gains.nodeConst (nodes_eq ▸ member) }⟩
  | createNode _ made ih =>
      obtain ⟨arcs, layout⟩ := ih
      obtain ⟨gains, _⟩ := layout.sound.gains_createNode made
      exact ⟨_, layout.grown gains (by simpa using layout.wired) (by simp)⟩
  | createLink _ made ih =>
      obtain ⟨arcs, layout⟩ := ih
      obtain ⟨gains, _⟩ := layout.sound.gains_insert (by decide) (by decide) made
      exact ⟨_, layout.grown gains (by simpa using layout.wired) (by simp)⟩
  | makeOperator _ made ih =>
      obtain ⟨arcs, layout⟩ := ih
      obtain ⟨marking, classifying, gains⟩ := layout.sound.gains_makeOperator made
      exact ⟨_, layout.grown gains (layout.wired.withOperator _ _ marking classifying)
        (Program.nodes_withOperator _ _)⟩
  | attach _ made attached tagged ih =>
      obtain ⟨arcs, layout⟩ := ih
      have joined := layout.sound.gains_createEdge attached
      obtain ⟨role, atPosition, gains⟩ := joined.sound.gains_attachOrderRole tagged
      exact ⟨_, layout.grown (joined.trans gains) (layout.wired.withArgument made atPosition _)
        (by simp [Program.nodes, Program.withArgument])⟩

end Memory

namespace Marker

variable {σ : Type} [TripleStore σ] {store : σ} {marker source element : Address}
  {triples : List Triple}

/-- A resolver answers with the marked source and changes nothing. -/
theorem succeeds_resolve {report : Address → Event}
    (found : markedSource store marker element = .ok (some source)) :
    (resolve marker element report).Succeeds store (some source) store := by
  rw [resolve, Action.succeeds_bind_iff]
  refine ⟨some source, store, succeeds_ask_iff.mpr ⟨found, rfl⟩, ?_⟩
  rw [Action.succeeds_bind_iff]
  exact ⟨(), store, Action.succeeds_emit_iff.mpr rfl, Action.succeeds_pure_iff.mpr ⟨rfl, rfl⟩⟩

theorem succeeds_readArguments {catalog : Catalog} {operator : Address}
    {arguments : List Argument} (distinct : catalog.orderRoles.Nodup)
    (answered : matching store ⟨operator, .accessArc, .any⟩ =
      .ok (arguments.map Argument.triple))
    (roles : ∀ argument ∈ arguments, ∃ role,
      catalog.orderRole? argument.position = some role ∧
        (resolveOrderRole catalog argument.arc).Succeeds store (some role) store) :
    (readArguments catalog operator).Succeeds store
      (arguments.map fun argument => (some argument.position, argument.argument)) store := by
  rw [readArguments, Action.succeeds_bind_iff]
  refine ⟨_, store, succeeds_ask_iff.mpr ⟨answered, rfl⟩, ?_⟩
  rw [List.mapM_map]
  refine Action.succeeds_mapM fun argument member => ?_
  obtain ⟨role, atPosition, resolved⟩ := roles argument member
  rw [Function.comp_apply, Action.succeeds_bind_iff]
  refine ⟨some role, store, resolved, Action.succeeds_pure_iff.mpr ⟨?_, rfl⟩⟩
  rw [Option.bind_some, Catalog.position?_eq distinct atPosition]
  rfl

end Marker

namespace Memory

theorem Layout.isMarkedSource_iff (layout : memory.Layout catalog program arcs)
    {marker element source : Address} :
    memory.IsMarkedSource marker element source ↔
      memory.fits (.typed .nodeConst) source = true ∧
        (∃ arc, ⟨source, arc, element⟩ ∈ arcs) ∧ ∃ mark, ⟨marker, mark, source⟩ ∈ arcs := by
  have access_eq : memory.scan ⟨.any, .accessArc, .any⟩ = arcs := layout.scan_eq (by decide)
  have member_eq : memory.scan memberArcs = arcs := layout.scan_eq (ElementType.carries_self _)
  simp only [isMarkedSource_iff_isMarkedEdge, layout.sound.linked.isMarkedEdge_iff,
    mem_memberPairs_iff, member_eq]
  constructor
  · rintro ⟨arc, candidate, marked⟩
    obtain ⟨listed, sourceFits, _⟩ := mem_scan_iff_mem_scan_any.mp candidate
    exact ⟨sourceFits, ⟨arc, access_eq ▸ listed⟩, marked⟩
  · rintro ⟨sourceFits, ⟨arc, isArc⟩, marked⟩
    have listed : (⟨source, arc, element⟩ : Triple) ∈ memory.scan ⟨.any, .accessArc, .any⟩ :=
      access_eq ▸ isArc
    have lives := fits_any_iff.mp (mem_scan_iff_joins.mp listed).2.2.2
    exact ⟨arc, mem_scan_iff_mem_scan_any.mpr
      ⟨listed, sourceFits, fits_fixed_iff.mpr ⟨rfl, lives⟩⟩, marked⟩

/-- An element with one marked source has it found in either order of answers. -/
theorem Layout.markedSource_eq (layout : memory.Layout catalog program arcs)
    {marker element source arc mark : Address} (isNode : source ∈ program.nodes catalog)
    (candidate : ⟨source, arc, element⟩ ∈ arcs) (marked : ⟨marker, mark, source⟩ ∈ arcs)
    (unique : ∀ {other otherArc otherMark : Address}, ⟨other, otherArc, element⟩ ∈ arcs →
      ⟨marker, otherMark, other⟩ ∈ arcs → other = source) :
    Marker.markedSource memory marker element = .ok (some source) ∧
      Marker.markedSource (Reversed.mk memory) marker element = .ok (some source) := by
  have isMarked : memory.IsMarkedSource marker element source :=
    layout.isMarkedSource_iff.mpr
      ⟨fits_typed_iff.mpr ⟨_, layout.nodeConst isNode, ElementType.carries_self _⟩,
        ⟨arc, candidate⟩, mark, marked⟩
  refine layout.sound.linked.markedSource_eq_some ?_ isMarked
  intro first second firstMarked secondMarked
  obtain ⟨_, ⟨_, firstCandidate⟩, _, firstMark⟩ := layout.isMarkedSource_iff.mp firstMarked
  obtain ⟨_, ⟨_, secondCandidate⟩, _, secondMark⟩ := layout.isMarkedSource_iff.mp secondMarked
  rw [unique firstCandidate firstMark, unique secondCandidate secondMark]

/-- The arcs that attach arguments are distinct. -/
theorem Layout.nodup_arcs (layout : memory.Layout catalog program arcs) :
    (program.arguments.map Argument.arc).Nodup := by
  have sorted : arcs.Pairwise fun first second => first.edge < second.edge :=
    layout.scan_eq (ElementType.carries_self _) ▸ memory.sorted_scan _
  have distinct : (arcs.map Triple.edge).Nodup := by
    refine List.pairwise_map.mpr (sorted.imp ?_)
    intro first second lower same
    rw [same] at lower
    exact Nat.lt_irrefl _ lower
  have attaching := layout.wired.sublist.map Triple.edge
  rw [List.map_map] at attaching
  exact attaching.nodup distinct

theorem Layout.operatorType (layout : memory.Layout catalog program arcs)
    {operator atomicType : Address} (member : (operator, atomicType) ∈ program.operators) :
    Marker.markedSource memory catalog.operatorAtomicType operator = .ok (some atomicType) ∧
      Marker.markedSource (Reversed.mk memory) catalog.operatorAtomicType operator =
        .ok (some atomicType) := by
  obtain ⟨marking, classifying, marked, classified⟩ := layout.wired.exists_marking member
  have isNode : atomicType ∈ program.nodes catalog := by
    simp only [Program.nodes, List.mem_cons, List.mem_append, List.mem_map]
    exact .inr (.inr (.inr (.inl ⟨_, member, rfl⟩)))
  refine layout.markedSource_eq isNode classified marked ?_
  intro other _ _ classifiedToo markedToo
  have distinct := layout.distinct
  obtain ⟨_, fromMarker, _, _⟩ := (layout.wired.wire markedToo).told_by_source distinct
  obtain ⟨owner, isType⟩ := fromMarker rfl
  obtain ⟨_, _, fromType, _⟩ := (layout.wired.wire classifiedToo).told_by_source distinct
  obtain rfl : operator = owner := fromType owner isType
  have samePair := List.inj_on_of_nodup_map (Program.nodup_operators distinct) isType member rfl
  exact congrArg Prod.snd samePair

theorem Layout.orderRole (layout : memory.Layout catalog program arcs) {argument : Argument}
    (member : argument ∈ program.arguments) :
    ∃ role, catalog.orderRole? argument.position = some role ∧
      Marker.markedSource memory catalog.orderRoleRelation argument.arc = .ok (some role) ∧
      Marker.markedSource (Reversed.mk memory) catalog.orderRoleRelation argument.arc =
        .ok (some role) := by
  obtain ⟨role, tag, atPosition, tagged⟩ := layout.wired.exists_tag member
  have isRole := Catalog.mem_of_orderRole? atPosition
  obtain ⟨mark, marked⟩ := layout.wired.exists_role isRole
  have isNode : role ∈ program.nodes catalog := by
    simp only [Program.nodes, List.mem_cons, List.mem_append]
    exact .inr (.inr (.inl isRole))
  refine ⟨role, atPosition, layout.markedSource_eq isNode tagged marked ?_⟩
  intro other _ _ taggedToo markedToo
  have distinct := layout.distinct
  obtain ⟨fromRelation, _, _, _⟩ := (layout.wired.wire markedToo).told_by_source distinct
  obtain ⟨_, _, _, fromRole⟩ := (layout.wired.wire taggedToo).told_by_source distinct
  obtain ⟨otherArgument, otherMember, atOther, sameArc⟩ := fromRole (fromRelation rfl)
  have same : otherArgument = argument :=
    List.inj_on_of_nodup_map layout.nodup_arcs otherMember member sameArc
  rw [same, atPosition] at atOther
  exact (Option.some.inj atOther).symm

theorem Layout.matching_eq (layout : memory.Layout catalog program arcs)
    {operator atomicType : Address} (member : (operator, atomicType) ∈ program.operators) :
    memory.matching ⟨operator, .accessArc, .any⟩ =
      .ok ((program.argumentsOf operator).map Argument.triple) := by
  have scan_eq : memory.scan ⟨.any, .accessArc, .any⟩ = arcs := layout.scan_eq (by decide)
  rw [layout.sound.linked.matching_eq_scan, scan_fixed_source, scan_eq,
    layout.wired.filter_eq (Program.not_mem_of_operator layout.distinct member)]

theorem Layout.tells (layout : memory.Layout catalog program arcs) :
    Tells memory catalog program where
  operatorType member := Marker.succeeds_resolve (layout.operatorType member).1
  orderRole member := by
    obtain ⟨role, atPosition, found, _⟩ := layout.orderRole member
    exact ⟨role, atPosition, Marker.succeeds_resolve found⟩
  matching_eq member := layout.matching_eq member
  readArguments member := by
    apply Marker.succeeds_readArguments (Program.nodup_orderRoles layout.distinct)
      (layout.matching_eq member)
    intro argument isArgument
    obtain ⟨role, atPosition, found, _⟩ := layout.orderRole (List.mem_of_mem_filter isArgument)
    exact ⟨role, atPosition, Marker.succeeds_resolve found⟩

theorem Layout.tells_reversed (layout : memory.Layout catalog program arcs) :
    Tells (Reversed.mk memory) catalog program.reversed := by
  have answered {operator atomicType : Address}
      (member : (operator, atomicType) ∈ program.operators) :
      TripleStore.matching (Reversed.mk memory) ⟨operator, .accessArc, .any⟩ =
        .ok ((program.reversed.argumentsOf operator).map Argument.triple) := by
    rw [Reversed.matching_eq, Program.argumentsOf_reversed, List.map_reverse]
    exact congrArg (Except.map List.reverse) (layout.matching_eq member)
  have resolved {argument : Argument} (member : argument ∈ program.reversed.arguments) :
      ∃ role, catalog.orderRole? argument.position = some role ∧
        (Marker.resolveOrderRole catalog argument.arc).Succeeds (Reversed.mk memory) (some role)
          (Reversed.mk memory) := by
    obtain ⟨role, atPosition, _, found⟩ := layout.orderRole (List.mem_reverse.mp member)
    exact ⟨role, atPosition, Marker.succeeds_resolve found⟩
  constructor
  case operatorType => exact fun member => Marker.succeeds_resolve (layout.operatorType member).2
  case orderRole => exact resolved
  case matching_eq => exact answered
  case readArguments =>
    intro operator atomicType member
    exact Marker.succeeds_readArguments (Program.nodup_orderRoles layout.distinct)
      (answered member) fun argument isArgument => resolved (List.mem_of_mem_filter isArgument)

end Memory

/-- Whether a network was built over a memory or over a layer that reverses answers, the memory and
the layer both give the program back, the layer with the arguments in the opposite order. -/
theorem tells_of_built {limits : Limits}
    (built : Built (Memory.empty limits) catalog memory program ∨
      Built (Reversed.mk (Memory.empty limits)) catalog (Reversed.mk memory) program) :
    Tells memory catalog program ∧ Tells (Reversed.mk memory) catalog program.reversed ∧
      ∀ first second role, catalog.orderRole? first = some role →
        catalog.orderRole? second = some role → first = second := by
  have builtUnder : Built (Memory.empty limits) catalog memory program :=
    built.elim id Built.inner
  obtain ⟨arcs, layout⟩ := Memory.exists_layout_of_built builtUnder
  exact ⟨layout.tells, layout.tells_reversed, fun _ _ _ atFirst atSecond =>
    Catalog.orderRole?_injective (Program.nodup_orderRoles layout.distinct) atFirst atSecond⟩

/-- The catalog of a network that is set up in an empty memory. -/
def firstCatalog : Catalog where
  orderRoles :=
    [⟨0, 3⟩, ⟨0, 5⟩, ⟨0, 7⟩, ⟨0, 9⟩, ⟨0, 11⟩, ⟨0, 13⟩, ⟨0, 15⟩, ⟨0, 17⟩, ⟨0, 19⟩, ⟨0, 21⟩]
  length_orderRoles := rfl
  orderRoleRelation := ⟨0, 1⟩
  operatorAtomicType := ⟨0, 2⟩

/-- An operator that is its own third argument, and whose first argument is the arc of the third. -/
def selfApplied : Program where
  operators := [(⟨0, 25⟩, ⟨0, 23⟩)]
  arguments := [⟨⟨0, 25⟩, ⟨0, 27⟩, ⟨0, 25⟩, 3⟩, ⟨⟨0, 25⟩, ⟨0, 29⟩, ⟨0, 27⟩, 1⟩]

theorem exists_built_selfApplied :
    ∃ memory, Built (Memory.empty ⟨64, 1⟩) firstCatalog memory selfApplied := by
  have ready : Setup.bootstrap.Succeeds (Memory.empty ⟨64, 1⟩) firstCatalog _ :=
    Action.succeeds_of_result (by decide +kernel)
  have operator : Built _ _ _ ⟨[(⟨0, 25⟩, ⟨0, 23⟩)], []⟩ :=
    (Built.bootstrap ready).makeOperator (Action.succeeds_of_result (by decide +kernel) :
      (Setup.makeOperator firstCatalog "type").Succeeds _ (⟨0, 25⟩, ⟨0, 23⟩) _)
  have third : Built _ _ _ ⟨[(⟨0, 25⟩, ⟨0, 23⟩)], [⟨⟨0, 25⟩, ⟨0, 27⟩, ⟨0, 25⟩, 3⟩]⟩ :=
    operator.attach (List.mem_singleton.mpr rfl)
      (Action.succeeds_of_result (by decide +kernel))
      (Action.succeeds_of_result (by decide +kernel) :
        (Setup.attachOrderRole firstCatalog ⟨0, 27⟩ 3).Succeeds _ ⟨0, 28⟩ _)
  exact ⟨_, third.attach (List.mem_singleton.mpr rfl)
    (Action.succeeds_of_result (by decide +kernel))
    (Action.succeeds_of_result (by decide +kernel) :
      (Setup.attachOrderRole firstCatalog ⟨0, 29⟩ 1).Succeeds _ ⟨0, 30⟩ _)⟩

theorem tells_of_built_selfApplied :
    ∃ memory, Built (Memory.empty ⟨64, 1⟩) firstCatalog memory selfApplied ∧
      (Marker.resolveOperatorType firstCatalog ⟨0, 25⟩).Succeeds memory (some ⟨0, 23⟩) memory ∧
      (Marker.readArguments firstCatalog ⟨0, 25⟩).Succeeds memory
        [(some 3, ⟨0, 25⟩), (some 1, ⟨0, 27⟩)] memory ∧
      (Marker.readArguments firstCatalog ⟨0, 25⟩).Succeeds (Reversed.mk memory)
        [(some 1, ⟨0, 27⟩), (some 3, ⟨0, 25⟩)] (Reversed.mk memory) := by
  obtain ⟨memory, built⟩ := exists_built_selfApplied
  obtain ⟨told, toldBack, _⟩ := tells_of_built (.inl built)
  have isOperator : ((⟨0, 25⟩, ⟨0, 23⟩) : Address × Address) ∈ selfApplied.operators :=
    List.mem_singleton.mpr rfl
  exact ⟨memory, built, told.operatorType isOperator, told.readArguments isOperator,
    toldBack.readArguments isOperator⟩

end SemanticMemory
