import SemanticMemory.Proofs.Members
import SemanticMemory.Proofs.Ownership
import SemanticMemory.Proofs.Permanence
import SemanticMemory.Setup

/-!
# Drafts of elements

A draft tells an element before it is made: its address, its type, its ends, and its identifier.  A
memory builds on another when the elements of some drafts came to it and nothing else is different.
It stays so when one more element is created, and when the last is given its identifier.
-/

namespace SemanticMemory

/-- An element as it is to be made. -/
structure Draft where
  address : Address
  type : ElementType
  ends : Option (Address × Address)
  identifier : Option String
  deriving DecidableEq

namespace Draft

def namedNode (node : Address) (name : String) : Draft :=
  ⟨node, .nodeConst, none, some name⟩

def membershipArc (arc set element : Address) : Draft :=
  ⟨arc, .membershipArc, some (set, element), none⟩

/-- The element as it is created, before it is given its identifier. -/
def nameless (draft : Draft) : Draft :=
  { draft with identifier := none }

@[simp]
theorem address_nameless (draft : Draft) : draft.nameless.address = draft.address :=
  rfl

@[simp]
theorem identifier_nameless (draft : Draft) : draft.nameless.identifier = none :=
  rfl

/-- The stage at which an element of this kind is created. -/
def stage (draft : Draft) : Setup.Stage :=
  match draft.ends with
  | none => .createNode
  | some _ => .markOrderRole

/-- An identifier makes no difference to the addresses. -/
theorem addresses_nameless (made : List Draft) (draft : Draft) :
    (made ++ [draft.nameless]).map Draft.address = (made ++ [draft]).map Draft.address := by
  rw [List.map_append, List.map_append]
  rfl

/-- An address of some drafts is an address of any more drafts. -/
theorem mem_addresses_append {drafts : List Draft} {address : Address}
    (member : address ∈ drafts.map Draft.address) (more : List Draft) :
    address ∈ (drafts ++ more).map Draft.address := by
  rw [List.map_append]
  exact List.mem_append_left _ member

end Draft

namespace Memory

variable {memory left : Memory} {address place : Address} {type : ElementType}
  {ends : Option (Address × Address)} {made : List Draft} {draft : Draft}

/-- The element at an address, as a draft of it would have been. -/
def draft? (memory : Memory) (address : Address) : Option Draft :=
  memory.elements[address]?.map fun element =>
    ⟨address, element.type, element.ends, element.identifier⟩

theorem isElement_eq_isSome_draft? (memory : Memory) (address : Address) :
    memory.isElement address = (memory.draft? address).isSome := by
  rw [isElement_eq_isSome, draft?, Option.isSome_map]

theorem outline?_eq_map_draft? (memory : Memory) (address : Address) :
    memory.outline? address =
      (memory.draft? address).map fun draft => (draft.type, draft.ends) := by
  rw [outline?, draft?, Option.map_map]
  rfl

theorem identifier_eq_of_draft?_eq (same : left.draft? address = memory.draft? address) :
    left.identifier address = memory.identifier address := by
  have known (memory : Memory) : memory.identifier address =
      match memory.draft? address with
      | none => .error (.elementNotFound address)
      | some draft => .ok draft.identifier := by
    rw [identifier, element, draft?]
    cases memory.elements[address]? <;> rfl
  rw [known, known, same]

theorem Named.owner?_eq_some_iff_draft? (named : memory.Named) {name : String} :
    memory.owner? name = some address ↔
      ∃ draft, memory.draft? address = some draft ∧ draft.identifier = some name := by
  rw [named.owner_iff, draft?]
  cases memory.elements[address]? <;> simp

theorem draft?_extended :
    (memory.extended place type ends).draft? address =
      if place = address then some ⟨place, type, ends, none⟩ else memory.draft? address := by
  rw [draft?, draft?, getElem?_extended, Option.map_map]
  split
  · next same =>
      rw [Option.map_some, same]
      simp [Element.fresh]
  · exact congrArg (Option.map · _) (by funext element; simp)

theorem draft?_renamed {previous : Option String} {text : String} (other : Address) :
    (memory.renamed address previous text).draft? other =
      if address = other then
        (memory.draft? other).map fun draft => { draft with identifier := carried text }
      else memory.draft? other := by
  rw [draft?, draft?, getElem?_renamed]
  split
  · rw [Option.map_map, Option.map_map]
    rfl
  · rfl

/-- The elements of the drafts were made and no others, and what lived before has the type, the ends
and the identifier that it had. -/
structure Builds (memory left : Memory) (made : List Draft) : Prop where
  nodup : (made.map Draft.address).Nodup
  vacant {draft : Draft} : draft ∈ made → memory.isElement draft.address = false
  draft?_eq {draft : Draft} : draft ∈ made → left.draft? draft.address = some draft
  kept {address : Address} : memory.isElement address = true →
    left.draft? address = memory.draft? address
  isElement_cases {address : Address} : left.isElement address = true →
    memory.isElement address = true ∨ address ∈ made.map Draft.address

theorem builds_nil (memory : Memory) : memory.Builds memory [] where
  nodup := List.nodup_nil
  vacant := nofun
  draft?_eq := nofun
  kept _ := rfl
  isElement_cases := .inl

theorem Builds.isElement (builds : memory.Builds left made)
    (lives : memory.isElement address = true) : left.isElement address = true := by
  rwa [isElement_eq_isSome_draft?, builds.kept lives, ← isElement_eq_isSome_draft?]

theorem Builds.isElement_of_mem (builds : memory.Builds left made)
    (member : address ∈ made.map Draft.address) : left.isElement address = true := by
  obtain ⟨draft, isMade, rfl⟩ := List.mem_map.mp member
  rw [isElement_eq_isSome_draft?, builds.draft?_eq isMade]
  rfl

theorem Builds.exists_element (builds : memory.Builds left made) (member : draft ∈ made) :
    ∃ element, left.elements[draft.address]? = some element ∧ element.type = draft.type ∧
      element.ends = draft.ends ∧ element.identifier = draft.identifier := by
  have drafted := builds.draft?_eq member
  obtain ⟨element, found, same⟩ := Option.map_eq_some_iff.mp drafted
  exact ⟨element, found, congrArg Draft.type same, congrArg Draft.ends same,
    congrArg Draft.identifier same⟩

/-- An owner stays the owner of its identifier. -/
theorem Builds.owner?_eq (builds : memory.Builds left made) (named : memory.Named)
    (namedLeft : left.Named) {name : String} {owner : Address}
    (owned : memory.owner? name = some owner) : left.owner? name = some owner := by
  rw [namedLeft.owner?_eq_some_iff_draft?, builds.kept (named.isElement_of_owner? owned)]
  exact named.owner?_eq_some_iff_draft?.mp owned

/-- An identifier that was free and is in no draft is still free. -/
theorem Builds.owner?_eq_none (builds : memory.Builds left made) (named : memory.Named)
    (namedLeft : left.Named) {name : String} (free : memory.owner? name = none)
    (unused : name ∉ made.filterMap Draft.identifier) : left.owner? name = none := by
  rw [Option.eq_none_iff_forall_ne_some]
  intro owner owned
  obtain ⟨draft, found, carries⟩ := namedLeft.owner?_eq_some_iff_draft?.mp owned
  rcases builds.isElement_cases (namedLeft.isElement_of_owner? owned) with before | new
  · rw [builds.kept before] at found
    rw [named.owner?_eq_some_iff_draft?.mpr ⟨draft, found, carries⟩] at free
    contradiction
  · obtain ⟨other, member, rfl⟩ := List.mem_map.mp new
    rw [builds.draft?_eq member, Option.some.injEq] at found
    exact unused (List.mem_filterMap.mpr ⟨other, member, found ▸ carries⟩)

theorem Builds.owner?_of_mem (builds : memory.Builds left made) (namedLeft : left.Named)
    {name : String} (member : draft ∈ made) (carries : draft.identifier = some name) :
    left.owner? name = some draft.address :=
  namedLeft.owner?_eq_some_iff_draft?.mpr ⟨draft, builds.draft?_eq member, carries⟩

/-- The identifier of a draft that was made had been free. -/
theorem Builds.free_of_mem (builds : memory.Builds left made) (named : memory.Named)
    (namedLeft : left.Named) {name : String} (member : draft ∈ made)
    (carries : draft.identifier = some name) : memory.owner? name = none := by
  rw [Option.eq_none_iff_forall_ne_some]
  intro owner owned
  have still := builds.owner?_eq named namedLeft owned
  rw [builds.owner?_of_mem namedLeft member carries, Option.some.injEq] at still
  have lives := named.isElement_of_owner? owned
  rw [← still, builds.vacant member] at lives
  contradiction

/-- What lived before lives on as the element that it was. -/
theorem Builds.keeps (builds : memory.Builds left made) (lives : memory.isElement address = true) :
    left.isElement address = true ∧ left.elementType address = memory.elementType address ∧
      left.endpoints address = memory.endpoints address ∧
      left.identifier address = memory.identifier address := by
  have same := builds.kept lives
  have sameOutline : left.outline? address = memory.outline? address := by
    rw [outline?_eq_map_draft?, outline?_eq_map_draft?, same]
  exact ⟨builds.isElement lives, elementType_eq_of_outline?_eq sameOutline,
    endpoints_eq_of_outline?_eq sameOutline, identifier_eq_of_draft?_eq same⟩

/-- An arc that was made has made its target a member of its source. -/
theorem Builds.mem_memberPairs (builds : memory.Builds left made) (linked : left.Linked)
    {arc set element : Address} (member : .membershipArc arc set element ∈ made) :
    (set, element) ∈ left.memberPairs := by
  obtain ⟨joined, found, isArc, ends, _⟩ := builds.exists_element member
  have carries : ElementType.membershipArc.carries .membershipArc = true := by decide
  refine mem_memberPairs_iff.mpr ⟨arc, linked.mem_scan_memberArcs_iff.mpr ?_⟩
  exact ⟨⟨joined, found, ends⟩, .membershipArc, typeAt?_eq_some_iff.mpr ⟨joined, found, isArc⟩,
    carries⟩

theorem Builds.extended (builds : memory.Builds left made) (vacant : left.isElement place = false) :
    memory.Builds (left.extended place type ends) (made ++ [⟨place, type, ends, none⟩]) := by
  have old {address : Address} (lives : left.isElement address = true) : place ≠ address := by
    rintro rfl
    rw [vacant] at lives
    contradiction
  constructor
  case nodup =>
    rw [List.map_append, List.map_singleton, ← List.concat_eq_append]
    exact builds.nodup.concat fun member => old (builds.isElement_of_mem member) rfl
  case vacant =>
    intro draft member
    rcases List.mem_append.mp member with before | new
    · exact builds.vacant before
    · rw [List.mem_singleton.mp new]
      by_contra lives
      exact old (builds.isElement (Bool.not_eq_false _ ▸ lives)) rfl
  case draft?_eq =>
    intro draft member
    rw [draft?_extended]
    rcases List.mem_append.mp member with before | new
    · have lives := builds.isElement_of_mem (List.mem_map_of_mem before)
      rw [if_neg (old lives), builds.draft?_eq before]
    · rw [List.mem_singleton.mp new, if_pos rfl]
  case kept =>
    intro address lives
    rw [draft?_extended, if_neg (old (builds.isElement lives)), builds.kept lives]
  case isElement_cases =>
    intro address lives
    rw [List.map_append, List.mem_append]
    rcases isElement_extended.mp lives with rfl | before
    · exact .inr (.inr List.mem_cons_self)
    · exact (builds.isElement_cases before).imp id .inl

/-- The element that was made last takes the identifier of its draft. -/
theorem Builds.renamed (builds : memory.Builds left (made ++ [draft.nameless])) {name : String}
    (named : draft.identifier = some name) (filled : name ≠ "") :
    memory.Builds (left.renamed draft.address none name) (made ++ [draft]) := by
  have last : draft.nameless ∈ made ++ [draft.nameless] := List.mem_concat_self
  have vacant := builds.vacant last
  have found := builds.draft?_eq last
  rw [Draft.address_nameless] at vacant found
  have completed : { draft.nameless with identifier := carried name } = draft := by
    rw [carried, if_neg filled, ← named]
    rfl
  have distinct := builds.nodup
  rw [Draft.addresses_nameless] at distinct
  constructor
  case nodup => exact distinct
  case vacant =>
    intro other member
    rcases List.mem_append.mp member with before | new
    · exact builds.vacant (List.mem_append_left _ before)
    · exact List.mem_singleton.mp new ▸ vacant
  case draft?_eq =>
    intro other member
    rw [draft?_renamed]
    rcases List.mem_append.mp member with before | new
    · rw [List.map_append, List.map_singleton, ← List.concat_eq_append] at distinct
      obtain ⟨apart, _⟩ := (List.nodup_concat _ _).mp distinct
      rw [if_neg fun same => apart (List.mem_map.mpr ⟨other, before, same.symm⟩),
        builds.draft?_eq (List.mem_append_left _ before)]
    · rw [List.mem_singleton.mp new, if_pos rfl, found, Option.map_some, completed]
  case kept =>
    intro address lives
    have old : draft.address ≠ address := by
      rintro rfl
      rw [vacant] at lives
      contradiction
    rw [draft?_renamed, if_neg old, builds.kept lives]
  case isElement_cases =>
    intro address lives
    rw [(left.sameGraph_renamed draft.address none name).isElement_eq] at lives
    rw [← Draft.addresses_nameless]
    exact builds.isElement_cases lives

end Memory

end SemanticMemory
