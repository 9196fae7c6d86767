import Mathlib.Data.List.Nodup
import SemanticMemory.Catalog.Basic
import SemanticMemory.Pattern

/-!
# The arcs of a program

A program is built of operators, each with a type, and of arguments, each attached by an arc that is
tagged with a position.  Everything is recorded by arcs between nodes, and no arc tells what it
stands for.  Where an arc starts does.
-/

namespace SemanticMemory

namespace Catalog

/-- The position that has the ordinal role, if there is one. -/
def position? (catalog : Catalog) (role : Address) : Option Nat :=
  (List.range' 1 CatalogNames.roleCount).find? fun position =>
    catalog.orderRole? position = some role

variable {catalog : Catalog} {position : Nat} {role : Address}

theorem mem_of_orderRole? (atPosition : catalog.orderRole? position = some role) :
    role ∈ catalog.orderRoles := by
  cases position with
  | zero => cases atPosition
  | succ index => exact List.mem_of_getElem? atPosition

theorem orderRole?_injective (distinct : catalog.orderRoles.Nodup) {other : Nat}
    (atPosition : catalog.orderRole? position = some role)
    (atOther : catalog.orderRole? other = some role) : position = other := by
  cases position with
  | zero => cases atPosition
  | succ index =>
      cases other with
      | zero => cases atOther
      | succ index' =>
          have inside := (List.getElem?_eq_some_iff.mp atPosition).1
          exact congrArg Nat.succ
            ((List.getElem?_inj inside distinct).mp (atPosition.trans atOther.symm))

theorem position?_eq (distinct : catalog.orderRoles.Nodup)
    (atPosition : catalog.orderRole? position = some role) :
    catalog.position? role = some position := by
  have inRange := (catalog.isSome_orderRole?_iff position).mp
    (Option.isSome_iff_exists.mpr ⟨role, atPosition⟩)
  rw [position?, List.find?_range'_eq_some]
  refine ⟨decide_eq_true atPosition, ?_, ?_⟩
  · rw [List.mem_range'_1]
    omega
  · intro other _ before
    rw [Bool.not_eq_true', decide_eq_false_iff_not]
    intro atOther
    have same := orderRole?_injective distinct atPosition atOther
    omega

end Catalog

/-- An argument of an operator, with the arc that attaches it and the position of that arc. -/
structure Argument where
  operator : Address
  arc : Address
  argument : Address
  position : Nat
  deriving DecidableEq

def Argument.triple (argument : Argument) : Triple :=
  ⟨argument.operator, argument.arc, argument.argument⟩

/-- Operators with their types, and arguments in the order in which they were attached. -/
structure Program where
  operators : List (Address × Address)
  arguments : List Argument
  deriving DecidableEq

namespace Program

def empty : Program :=
  ⟨[], []⟩

def withOperator (program : Program) (operator atomicType : Address) : Program :=
  { program with operators := program.operators ++ [(operator, atomicType)] }

def withArgument (program : Program) (argument : Argument) : Program :=
  { program with arguments := program.arguments ++ [argument] }

def argumentsOf (program : Program) (operator : Address) : List Argument :=
  program.arguments.filter fun argument => argument.operator = operator

/-- The program with its arguments in the opposite order. -/
def reversed (program : Program) : Program :=
  { program with arguments := program.arguments.reverse }

/-- The constant nodes that the program is built of. -/
def nodes (catalog : Catalog) (program : Program) : List Address :=
  catalog.orderRoleRelation :: catalog.operatorAtomicType ::
    (catalog.orderRoles ++ (program.operators.map Prod.snd ++ program.operators.map Prod.fst))

variable {catalog : Catalog} {program : Program}

theorem mem_withOperator_iff {operator atomicType : Address} {made : Address × Address} :
    made ∈ (program.withOperator operator atomicType).operators ↔
      made ∈ program.operators ∨ made = (operator, atomicType) := by
  rw [withOperator, List.mem_append, List.mem_singleton]

theorem mem_withArgument_iff {argument other : Argument} :
    other ∈ (program.withArgument argument).arguments ↔
      other ∈ program.arguments ∨ other = argument := by
  rw [withArgument, List.mem_append, List.mem_singleton]

theorem nodes_withOperator (operator atomicType : Address) :
    ((program.withOperator operator atomicType).nodes catalog).Perm
      (program.nodes catalog ++ [atomicType, operator]) := by
  rw [List.perm_iff_count]
  intro node
  simp only [nodes, withOperator, List.map_append, List.map_cons, List.map_nil, List.count_cons,
    List.count_append, List.count_nil]
  omega

theorem nodup_operators (distinct : (program.nodes catalog).Nodup) :
    (program.operators.map Prod.fst).Nodup :=
  distinct.of_cons.of_cons.of_append_right.of_append_right

theorem nodup_orderRoles (distinct : (program.nodes catalog).Nodup) : catalog.orderRoles.Nodup :=
  distinct.of_cons.of_cons.of_append_left

theorem not_mem_of_operator (distinct : (program.nodes catalog).Nodup)
    {operator atomicType : Address} (member : (operator, atomicType) ∈ program.operators) :
    operator ∉ catalog.orderRoleRelation :: catalog.operatorAtomicType ::
      (catalog.orderRoles ++ program.operators.map Prod.snd) := by
  have split_nodes : program.nodes catalog =
      (catalog.orderRoleRelation :: catalog.operatorAtomicType ::
        (catalog.orderRoles ++ program.operators.map Prod.snd)) ++
          program.operators.map Prod.fst := by
    simp [nodes]
  rw [split_nodes] at distinct
  exact fun isOther => List.disjoint_of_nodup_append distinct isOther (List.mem_map_of_mem member)

theorem argumentsOf_withArgument (argument : Argument) (operator : Address) :
    (program.withArgument argument).argumentsOf operator =
      program.argumentsOf operator ++ if argument.operator = operator then [argument] else [] := by
  simp only [argumentsOf, withArgument, List.filter_append, List.filter_cons, List.filter_nil,
    decide_eq_true_eq]

theorem argumentsOf_reversed (program : Program) (operator : Address) :
    program.reversed.argumentsOf operator = (program.argumentsOf operator).reverse :=
  List.filter_reverse

/-- What an arc can stand for. -/
inductive Wire (catalog : Catalog) (program : Program) : Triple → Prop where
  | role {arc role : Address} (member : role ∈ catalog.orderRoles) :
      Wire catalog program ⟨catalog.orderRoleRelation, arc, role⟩
  | marking {arc operator atomicType : Address}
      (member : (operator, atomicType) ∈ program.operators) :
      Wire catalog program ⟨catalog.operatorAtomicType, arc, atomicType⟩
  | classifying {arc operator atomicType : Address}
      (member : (operator, atomicType) ∈ program.operators) :
      Wire catalog program ⟨atomicType, arc, operator⟩
  | attaching {argument : Argument} {atomicType : Address}
      (member : argument ∈ program.arguments)
      (attached : (argument.operator, atomicType) ∈ program.operators) :
      Wire catalog program argument.triple
  | tagging {argument : Argument} {arc role : Address} (member : argument ∈ program.arguments)
      (atPosition : catalog.orderRole? argument.position = some role) :
      Wire catalog program ⟨role, arc, argument.arc⟩

/-- The arcs of a program, in the order in which they are made. -/
inductive Wired (catalog : Catalog) : Program → List Triple → Prop where
  | bootstrap {arcs : List Triple}
      (pairs : arcs.map (fun triple => (triple.source, triple.target)) =
        catalog.orderRoles.map (Prod.mk catalog.orderRoleRelation)) :
      Wired catalog .empty arcs
  | withOperator {program : Program} {arcs : List Triple} (wired : Wired catalog program arcs)
      (operator atomicType marking classifying : Address) :
      Wired catalog (program.withOperator operator atomicType)
        (arcs ++ [⟨catalog.operatorAtomicType, marking, atomicType⟩,
          ⟨atomicType, classifying, operator⟩])
  | withArgument {program : Program} {arcs : List Triple} (wired : Wired catalog program arcs)
      {argument : Argument} {atomicType role : Address}
      (attached : (argument.operator, atomicType) ∈ program.operators)
      (atPosition : catalog.orderRole? argument.position = some role) (tag : Address) :
      Wired catalog (program.withArgument argument)
        (arcs ++ [argument.triple, ⟨role, tag, argument.arc⟩])

section Wire

variable {triple : Triple}

theorem Wire.mono (wire : Wire catalog program triple) {larger : Program}
    (operators : ∀ made ∈ program.operators, made ∈ larger.operators)
    (arguments : ∀ argument ∈ program.arguments, argument ∈ larger.arguments) :
    Wire catalog larger triple := by
  cases wire with
  | role member => exact .role member
  | marking member => exact .marking (operators _ member)
  | classifying member => exact .classifying (operators _ member)
  | attaching member attached => exact .attaching (arguments _ member) (operators _ attached)
  | tagging member atPosition => exact .tagging (arguments _ member) atPosition

/-- Every arc stands for something. -/
theorem Wired.wire {arcs : List Triple} (wired : Wired catalog program arcs)
    (member : triple ∈ arcs) : Wire catalog program triple := by
  induction wired with
  | bootstrap pairs =>
      have listed := List.mem_map_of_mem (f := fun triple : Triple =>
        (triple.source, triple.target)) member
      rw [pairs, List.mem_map] at listed
      obtain ⟨role, isRole, same⟩ := listed
      obtain ⟨source, arc, target⟩ := triple
      cases same
      exact .role isRole
  | withOperator _ operator atomicType _ _ ih =>
      rcases List.mem_append.mp member with before | created
      · exact (ih before).mono (fun _ made => mem_withOperator_iff.mpr (.inl made))
          fun _ isArgument => isArgument
      · rcases List.mem_pair.mp created with rfl | rfl
        · exact .marking (mem_withOperator_iff.mpr (.inr rfl))
        · exact .classifying (mem_withOperator_iff.mpr (.inr rfl))
  | withArgument _ attached atPosition _ ih =>
      rcases List.mem_append.mp member with before | created
      · exact (ih before).mono (fun _ made => made)
          fun _ isArgument => mem_withArgument_iff.mpr (.inl isArgument)
      · rcases List.mem_pair.mp created with rfl | rfl
        · exact .attaching (mem_withArgument_iff.mpr (.inr rfl)) attached
        · exact .tagging (mem_withArgument_iff.mpr (.inr rfl)) atPosition

theorem Wired.exists_role {arcs : List Triple} (wired : Wired catalog program arcs)
    {role : Address} (member : role ∈ catalog.orderRoles) :
    ∃ arc, ⟨catalog.orderRoleRelation, arc, role⟩ ∈ arcs := by
  induction wired with
  | bootstrap pairs =>
      have listed := List.mem_map_of_mem (f := Prod.mk catalog.orderRoleRelation) member
      rw [← pairs, List.mem_map] at listed
      obtain ⟨⟨_, arc, _⟩, isArc, same⟩ := listed
      cases same
      exact ⟨arc, isArc⟩
  | withOperator _ _ _ _ _ ih => exact ih.imp fun _ => List.mem_append_left _
  | withArgument _ _ _ _ ih => exact ih.imp fun _ => List.mem_append_left _

theorem Wired.exists_marking {arcs : List Triple} (wired : Wired catalog program arcs)
    {operator atomicType : Address} (member : (operator, atomicType) ∈ program.operators) :
    ∃ marking classifying, ⟨catalog.operatorAtomicType, marking, atomicType⟩ ∈ arcs ∧
      ⟨atomicType, classifying, operator⟩ ∈ arcs := by
  induction wired with
  | bootstrap => cases member
  | withOperator _ _ _ marking classifying ih =>
      rcases mem_withOperator_iff.mp member with before | new
      · obtain ⟨marking, classifying, isMarking, isClassifying⟩ := ih before
        exact ⟨marking, classifying, List.mem_append_left _ isMarking,
          List.mem_append_left _ isClassifying⟩
      · cases new
        exact ⟨marking, classifying, by simp, by simp⟩
  | withArgument _ _ _ _ ih =>
      obtain ⟨marking, classifying, isMarking, isClassifying⟩ := ih member
      exact ⟨marking, classifying, List.mem_append_left _ isMarking,
        List.mem_append_left _ isClassifying⟩

theorem Wired.exists_tag {arcs : List Triple} (wired : Wired catalog program arcs)
    {argument : Argument} (member : argument ∈ program.arguments) :
    ∃ role tag, catalog.orderRole? argument.position = some role ∧
      ⟨role, tag, argument.arc⟩ ∈ arcs := by
  induction wired with
  | bootstrap => cases member
  | withOperator _ _ _ _ _ ih =>
      obtain ⟨role, tag, atPosition, isTag⟩ := ih member
      exact ⟨role, tag, atPosition, List.mem_append_left _ isTag⟩
  | withArgument _ _ atPosition tag ih =>
      rcases mem_withArgument_iff.mp member with before | rfl
      · obtain ⟨role, tag, atPosition, isTag⟩ := ih before
        exact ⟨role, tag, atPosition, List.mem_append_left _ isTag⟩
      · exact ⟨_, tag, atPosition, by simp⟩

/-- The arcs that attach arguments are in the order of the arguments. -/
theorem Wired.sublist {arcs : List Triple} (wired : Wired catalog program arcs) :
    (program.arguments.map Argument.triple).Sublist arcs := by
  induction wired with
  | bootstrap => exact List.nil_sublist _
  | withOperator _ _ _ _ _ ih => exact ih.trans (List.sublist_append_left _ _)
  | withArgument _ _ _ _ ih =>
      rw [Program.withArgument, List.map_append]
      exact ih.append (.cons_cons _ (.cons _ .slnil))

/-- What starts neither at a marker nor at a role nor at a type attaches an argument. -/
theorem Wired.filter_eq {arcs : List Triple} (wired : Wired catalog program arcs)
    {operator : Address}
    (notOther : operator ∉ catalog.orderRoleRelation :: catalog.operatorAtomicType ::
      (catalog.orderRoles ++ program.operators.map Prod.snd)) :
    (arcs.filter fun triple => triple.source = operator) =
      (program.argumentsOf operator).map Argument.triple := by
  induction wired with
  | bootstrap pairs =>
      refine List.filter_eq_nil_iff.mpr fun triple member starts => ?_
      cases (Wired.bootstrap pairs).wire member with
      | role => exact notOther (of_decide_eq_true starts ▸ List.mem_cons_self)
      | marking made | classifying made | attaching made | tagging made => cases made
  | withOperator _ made atomicType marking classifying ih =>
      simp only [Program.withOperator, List.map_append, List.mem_cons, List.mem_append, not_or,
        List.map_cons, List.map_nil] at notOther ih
      obtain ⟨notRelation, notMarker, notRole, notType, notNew, _⟩ := notOther
      rw [List.filter_append, ih ⟨notRelation, notMarker, notRole, notType⟩]
      have noneNew : [(⟨catalog.operatorAtomicType, marking, atomicType⟩ : Triple),
          ⟨atomicType, classifying, made⟩].filter (fun triple => triple.source = operator) = [] := by
        simp [Ne.symm notMarker, Ne.symm notNew]
      rw [noneNew, List.append_nil]
      rfl
  | @withArgument _ _ _ argument _ role attached atPosition tag ih =>
      have notRole : role ≠ operator := by
        rintro rfl
        exact notOther (by simp [Catalog.mem_of_orderRole? atPosition])
      rw [List.filter_append, ih notOther, argumentsOf_withArgument, List.map_append]
      congr 1
      by_cases same : argument.operator = operator
      · simp [Argument.triple, same, notRole]
      · simp [Argument.triple, same, notRole]

/-- Where an arc starts tells what it stands for. -/
theorem Wire.told_by_source (wire : Wire catalog program triple)
    (distinct : (program.nodes catalog).Nodup) :
    (triple.source = catalog.orderRoleRelation → triple.target ∈ catalog.orderRoles) ∧
    (triple.source = catalog.operatorAtomicType →
      ∃ operator, (operator, triple.target) ∈ program.operators) ∧
    (∀ operator, (operator, triple.source) ∈ program.operators → triple.target = operator) ∧
    (triple.source ∈ catalog.orderRoles → ∃ argument ∈ program.arguments,
      catalog.orderRole? argument.position = some triple.source ∧
        argument.arc = triple.target) := by
  have sameType := List.inj_on_of_nodup_map (f := Prod.snd) (l := program.operators)
  simp only [nodes, List.nodup_cons, List.nodup_append, List.mem_cons, List.mem_append,
    List.mem_map] at distinct
  -- The source is one node of the program, and the nodes are distinct.
  cases wire with
  | role member => grind
  | marking member => grind
  | classifying member => grind
  | attaching member attached => grind [Argument.triple]
  | tagging member atPosition =>
      have isRole := Catalog.mem_of_orderRole? atPosition
      grind

end Wire

end Program

end SemanticMemory
