import SemanticMemory.Memory.Dependence
import SemanticMemory.Proofs.Removal

/-!
# The cascade of an erasure

Erasing works through a stack of addresses.  Whatever the stack looks like on the way, the memory is
the one at the start without the elements erased so far: their edges have left the lists of the ends
that are still there, and the edges that are still to follow wait on the stack.  When the stack is
empty, the erased elements are the cascade of the element that was to be erased.
-/

namespace SemanticMemory

namespace Element

/-- What becomes of the element at an address when an element with the given ends is erased. -/
def detached (erased : Address) (ends : Option (Address × Address)) (address : Address)
    (element : Element) : Element :=
  match ends with
  | none => element
  | some (source, target) => element.unlinked erased source target address

variable {erased address : Address} {ends : Option (Address × Address)} {element : Element}

theorem detached_eq (erased : Address) (ends : Option (Address × Address)) (address : Address)
    (element : Element) :
    element.detached erased ends address =
      { element with
        incoming :=
          if ends.map Prod.snd = some address then element.incoming.filter (· != erased)
          else element.incoming
        outgoing :=
          if ends.map Prod.fst = some address then element.outgoing.filter (· != erased)
          else element.outgoing } := by
  unfold detached unlinked
  split
  · simp
  · next source target =>
      by_cases starts : source = address <;> by_cases stops : target = address <;>
        simp [starts, stops, dropOutgoing, dropIncoming]

end Element

namespace Memory

variable {memory : Memory} {gone : Finset Address}

theorem getElem?_withdraw (table : ElementTable) (address other : Address)
    (ends : Option (Address × Address)) :
    (withdraw table address ends)[other]? =
      if address = other then none
      else table[other]?.map (Element.detached address ends other) := by
  cases ends with
  | none =>
      rw [getElem?_withdraw_none]
      split
      · rfl
      · exact Option.map_id'.symm
  | some ends => exact getElem?_withdraw_some table address ends.1 ends.2 other

/-- Dropping an edge from the list of its end drops it from every list. -/
theorem Listed.filter_insert {side : Address × Address → Address}
    {list : Element → List Address} (listed : memory.Listed side list)
    {address other : Address} {element otherElement : Element}
    (found : memory.elements[address]? = some element)
    (foundOther : memory.elements[other]? = some otherElement) :
    (if element.ends.map side = some other then
        ((list otherElement).filter (· ∉ gone)).filter (· != address)
      else (list otherElement).filter (· ∉ gone)) =
      (list otherElement).filter (· ∉ Insert.insert address gone) := by
  have atEnd : memory.endOn side address = element.ends.map side := by
    rw [endOn, found, Option.bind_some]
  split
  · rw [List.filter_filter]
    refine List.filter_congr fun edge _ => ?_
    by_cases same : edge = address <;> simp [same]
  · next notEnd =>
      refine List.filter_congr fun edge member => ?_
      have distinct : edge ≠ address := by
        rintro rfl
        rw [listed.mem_iff foundOther, atEnd] at member
        exact notEnd member
      simp [distinct]

/-- Taking one more element out of what is left leaves what is left without it. -/
theorem detach_without (linked : memory.Linked) (named : memory.Named) {address : Address}
    {element : Element} (found : memory.elements[address]? = some element) :
    (memory.without gone).detach address (element.without gone) =
      memory.without (Insert.insert address gone) := by
  ext1
  case limits => rfl
  case cursor => rfl
  case elements =>
    ext1 other
    rw [detach, getElem?_withdraw, getElem?_without, getElem?_without]
    by_cases same : address = other
    · simp [same]
    · by_cases isGone : other ∈ gone
      · simp [same, isGone]
      · rw [if_neg same, if_neg isGone, if_neg (by simp [isGone, Ne.symm same])]
        cases foundOther : memory.elements[other]? with
        | none => rfl
        | some otherElement =>
            simp only [Option.map_some, Element.detached_eq, Element.without,
              linked.incoming.filter_insert found foundOther,
              linked.outgoing.filter_insert found foundOther]
  case identifiers =>
    ext1 identifier
    change (release (memory.without gone).identifiers element.identifier)[identifier]? =
      (memory.without (Insert.insert address gone)).owner? identifier
    rw [getElem?_release]
    change (if element.identifier = some identifier then none
      else (memory.without gone).owner? identifier) = _
    rw [owner?_without, owner?_without]
    cases owned : memory.owner? identifier with
    | none => simp
    | some owner =>
        obtain ⟨ownerElement, foundOwner, carried⟩ := named.owner_iff.mp owned
        by_cases same : owner = address
        · subst same
          rw [found, Option.some.injEq] at foundOwner
          simp [foundOwner, carried, Option.filter_some]
        · have notCarried : element.identifier ≠ some identifier := by
            intro carriedHere
            have ownedHere := named.owner_iff.mpr ⟨element, found, carriedHere⟩
            rw [owned, Option.some.injEq] at ownedHere
            exact same ownedHere
          simp [notCarried, same, Option.filter_some]

/-- How far the erasure of a root has come: what is gone and what waits on the stack belongs to the
cascade of the root, and every edge with an end that is gone is gone or waits. -/
structure Pruning (memory : Memory) (root : Address) (gone : Finset Address)
    (pending : List Address) : Prop where
  gone_cascade {address : Address} : address ∈ gone → memory.Cascade root address
  pending_cascade {address : Address} : address ∈ pending → memory.Cascade root address
  root_reached : root ∈ gone ∨ root ∈ pending
  frontier {edge source target : Address} : memory.Joins edge source target →
    source ∈ gone ∨ target ∈ gone → edge ∈ gone ∨ edge ∈ pending

namespace Pruning

variable {root address : Address} {pending : List Address}

theorem start (memory : Memory) (root : Address) : memory.Pruning root ∅ [root] where
  gone_cascade isGone := absurd isGone (Finset.notMem_empty _)
  pending_cascade waiting := List.mem_singleton.mp waiting ▸ .root
  root_reached := .inr (List.mem_singleton.mpr rfl)
  frontier _ endGone := by simp at endGone

/-- An address at which nothing lives any more is passed over. -/
theorem skip (pruning : memory.Pruning root gone (address :: pending))
    (rootLives : memory.isElement root = true)
    (missing : (memory.without gone).isElement address = false) :
    memory.Pruning root gone pending := by
  have passed {other : Address} (lives : memory.isElement other = true)
      (reached : other ∈ gone ∨ other ∈ address :: pending) : other ∈ gone ∨ other ∈ pending := by
    rcases reached with isGone | waiting
    · exact .inl isGone
    · rcases List.mem_cons.mp waiting with rfl | waiting
      · left
        by_contra kept
        rw [isElement_without.mpr ⟨lives, kept⟩] at missing
        contradiction
      · exact .inr waiting
  exact
    { gone_cascade := pruning.gone_cascade
      pending_cascade := fun waiting => pruning.pending_cascade (List.mem_cons_of_mem _ waiting)
      root_reached := passed rootLives pruning.root_reached
      frontier := fun joins endGone => passed joins.isElement (pruning.frontier joins endGone) }

/-- An element that is taken out leaves the edges that start or end at it on the stack. -/
theorem take (pruning : memory.Pruning root gone (address :: pending)) (linked : memory.Linked)
    {element : Element} (found : memory.elements[address]? = some element) :
    memory.Pruning root (Insert.insert address gone)
      ((element.without gone).incident.reverse ++ pending) := by
  have reached : memory.Cascade root address := pruning.pending_cascade List.mem_cons_self
  constructor
  case gone_cascade =>
    intro other isGone
    rcases Finset.mem_insert.mp isGone with rfl | isGone
    · exact reached
    · exact pruning.gone_cascade isGone
  case pending_cascade =>
    intro other waiting
    simp only [Element.incident, Element.without, List.mem_append, List.mem_reverse,
      List.mem_filter] at waiting
    rcases waiting with (⟨listed, _⟩ | ⟨listed, _⟩) | waiting
    · obtain ⟨source, joins⟩ := (linked.mem_incoming_iff found).mp listed
      exact .fromTarget joins reached
    · obtain ⟨target, joins⟩ := (linked.mem_outgoing_iff found).mp listed
      exact .fromSource joins reached
    · exact pruning.pending_cascade (List.mem_cons_of_mem _ waiting)
  case root_reached =>
    rcases pruning.root_reached with isGone | waiting
    · exact .inl (Finset.mem_insert_of_mem isGone)
    · rcases List.mem_cons.mp waiting with rfl | waiting
      · exact .inl (Finset.mem_insert_self _ _)
      · exact .inr (List.mem_append_right _ waiting)
  case frontier =>
    intro edge source target joins endGone
    by_cases isGone : edge ∈ gone
    · exact .inl (Finset.mem_insert_of_mem isGone)
    -- An edge whose end is gone only now is still listed at that end, so it goes on the stack.
    by_cases earlier : source ∈ gone ∨ target ∈ gone
    · rcases pruning.frontier joins earlier with isGone | waiting
      · exact .inl (Finset.mem_insert_of_mem isGone)
      · rcases List.mem_cons.mp waiting with rfl | waiting
        · exact .inl (Finset.mem_insert_self _ _)
        · exact .inr (List.mem_append_right _ waiting)
    · right
      apply List.mem_append_left
      simp only [Element.incident, Element.without, List.mem_reverse, List.mem_append,
        List.mem_filter, linked.mem_incoming_iff found, linked.mem_outgoing_iff found]
      rw [not_or] at earlier
      rcases endGone with isGoneSource | isGoneTarget
      · have starts : source = address := by simpa [earlier.1] using isGoneSource
        exact .inr ⟨⟨target, starts ▸ joins⟩, by simpa using isGone⟩
      · have stops : target = address := by simpa [earlier.2] using isGoneTarget
        exact .inl ⟨⟨source, stops ▸ joins⟩, by simpa using isGone⟩

/-- When the stack is empty, exactly the cascade is gone. -/
theorem finish (pruning : memory.Pruning root gone []) :
    address ∈ gone ↔ memory.Cascade root address := by
  have closed {edge source target : Address} (joins : memory.Joins edge source target)
      (endGone : source ∈ gone ∨ target ∈ gone) : edge ∈ gone := by
    simpa using pruning.frontier joins endGone
  constructor
  · exact pruning.gone_cascade
  · intro cascade
    induction cascade with
    | root => simpa using pruning.root_reached
    | fromSource joins _ ih => exact closed joins (.inl ih)
    | fromTarget joins _ ih => exact closed joins (.inr ih)

end Pruning

/-- The loop of an erasure: from what is left without some elements, it goes on until the whole
cascade is gone, and counts every element that it erases once. -/
theorem eraseAll_without (linked : memory.Linked) (named : memory.Named) {root : Address}
    (rootLives : memory.isElement root = true) {pending : List Address}
    (pruning : memory.Pruning root gone pending) :
    ∃ (all : Finset Address) (erased : Nat),
      (memory.without gone).eraseAll pending = (memory.without all, erased) ∧
      gone.card + erased = all.card ∧
      ∀ address, address ∈ all ↔ memory.Cascade root address := by
  -- The induction follows the loop, from any memory that lacks what is gone so far.
  generalize current_eq : memory.without gone = current
  induction current, pending using Memory.eraseAll.induct generalizing gone with
  | case1 current =>
      exact ⟨gone, 0, by rw [eraseAll_nil, current_eq], rfl, fun _ => pruning.finish⟩
  | case2 current address pending missing ih =>
      subst current_eq
      rw [eraseAll_cons_of_missing missing]
      refine ih (pruning.skip rootLives ?_) rfl
      rw [isElement_eq_isSome, missing]
      rfl
  | case3 current address pending remaining found ih =>
      subst current_eq
      obtain ⟨kept, element, foundElement, rfl⟩ := getElem?_without_eq_some_iff.mp found
      have detached : (memory.without gone).detach address (element.without gone) =
          memory.without (Insert.insert address gone) := detach_without linked named foundElement
      obtain ⟨all, erased, left, counted, members⟩ :=
        ih (pruning.take linked foundElement) detached.symm
      refine ⟨all, erased + 1, ?_, ?_, members⟩
      · rw [eraseAll_cons_of_found found, left]
      · rw [Finset.card_insert_of_notMem kept] at counted
        omega

/-- Every element that the loop counts is one element less in the memory. -/
theorem elementCount_eraseAll (memory : Memory) (pending : List Address) :
    (memory.eraseAll pending).1.elementCount + (memory.eraseAll pending).2 =
      memory.elementCount := by
  induction memory, pending using Memory.eraseAll.induct with
  | case1 memory => rw [eraseAll_nil, Nat.add_zero]
  | case2 memory address pending missing ih => rw [eraseAll_cons_of_missing missing, ih]
  | case3 memory address pending element found ih =>
      have oneLess : (memory.detach address element).elementCount + 1 = memory.elementCount :=
        size_withdraw found element.ends
      rw [eraseAll_cons_of_found found]
      dsimp only
      omega

theorem Cascade.isElement {root address : Address} (cascade : memory.Cascade root address)
    (rootLives : memory.isElement root = true) : memory.isElement address = true := by
  cases cascade with
  | root => exact rootLives
  | fromSource joins _ => exact joins.isElement
  | fromTarget joins _ => exact joins.isElement

theorem cascade_iff_of_joins {root edge source target : Address}
    (joins : memory.Joins edge source target) :
    memory.Cascade root edge ↔
      edge = root ∨ memory.Cascade root source ∨ memory.Cascade root target := by
  constructor
  · intro cascade
    cases cascade with
    | root => exact .inl rfl
    | fromSource joinsAgain member => exact .inr (.inl ((joinsAgain.ends_inj joins).1 ▸ member))
    | fromTarget joinsAgain member => exact .inr (.inr ((joinsAgain.ends_inj joins).2 ▸ member))
  · rintro (rfl | member | member)
    · exact .root
    · exact .fromSource joins member
    · exact .fromTarget joins member

theorem cascade_iff_of_not_joins {root address : Address}
    (noEnds : ∀ source target, ¬memory.Joins address source target) :
    memory.Cascade root address ↔ address = root := by
  constructor
  · intro cascade
    cases cascade with
    | root => rfl
    | fromSource joins _ => exact absurd joins (noEnds _ _)
    | fromTarget joins _ => exact absurd joins (noEnds _ _)
  · rintro rfl
    exact .root

/-- A set that is the cascade of an element holds every edge with an end in it. -/
theorem closedUpwards_of_cascade {root : Address}
    (members : ∀ address, address ∈ gone ↔ memory.Cascade root address) :
    memory.ClosedUpwards gone := by
  intro edge source target joins endGone
  rw [members] at endGone ⊢
  rw [members] at endGone
  rcases endGone with sourceGone | targetGone
  · exact .fromSource joins sourceGone
  · exact .fromTarget joins targetGone

/-- Erasing an element leaves the memory without its cascade, and reports the size of the cascade
when it has more than one member. -/
theorem run_erase_of_isElement (linked : memory.Linked) (named : memory.Named) {root : Address}
    (rootLives : memory.isElement root = true) :
    ∃ gone : Finset Address,
      (∀ address, address ∈ gone ↔ memory.Cascade root address) ∧
      (memory.without gone).elementCount + gone.card = memory.elementCount ∧
      (erase root).run memory = ⟨.ok true, memory.without gone,
        if 1 < gone.card then [.cascadeErased root gone.card] else []⟩ := by
  obtain ⟨gone, erased, left, counted, members⟩ :=
    eraseAll_without linked named rootLives (Pruning.start memory root)
  rw [without_empty] at left
  rw [Finset.card_empty, Nat.zero_add] at counted
  have size := memory.elementCount_eraseAll [root]
  rw [left, counted] at size
  refine ⟨gone, members, size, ?_⟩
  simp only [erase, Action.run, rootLives, if_true, left, counted]

theorem run_erase_of_not_isElement {root : Address} (missing : memory.isElement root = false) :
    (erase root).run memory = ⟨.ok false, memory, []⟩ := by
  simp only [erase, Action.run, missing, Bool.false_eq_true, if_false]

theorem Sound.erase (sound : memory.Sound) (root : Address) :
    ((erase root).run memory).state.Sound := by
  cases lives : memory.isElement root with
  | false =>
      rw [run_erase_of_not_isElement lives]
      exact sound
  | true =>
      obtain ⟨gone, members, _, erased⟩ :=
        run_erase_of_isElement sound.linked sound.named lives
      rw [erased]
      exact sound.without (closedUpwards_of_cascade members)

end Memory

end SemanticMemory
