import SemanticMemory.Proofs.Clearing
import SemanticMemory.Proofs.Effects
import SemanticMemory.Proofs.Refusals

/-!
# Undoing a session

A session may add to a memory without touching what was there before.  Whatever it adds can be taken
away again: the memory without the additions is the memory at the start, but for the cursor.  New
edges may hang on old elements, but no old edge hangs on a new element, so the cascade of an
addition is made of additions.
-/

namespace SemanticMemory

open TripleStore

namespace Memory

variable {memory start : Memory} {gone extra : Finset Address} {place : Address}
  {type : ElementType} {ends : Option (Address × Address)}

/-- A list loses what was just appended to it, and whatever is gone otherwise. -/
theorem filter_append_created {listed : List Address} (fresh : place ∉ listed) (isEnd : Prop)
    [Decidable isEnd] :
    (listed ++ if isEnd then [place] else []).filter (· ∉ Insert.insert place gone) =
      listed.filter (· ∉ gone) := by
  have dropped : (if isEnd then [place] else []).filter (· ∉ Insert.insert place gone) = [] := by
    split <;> simp
  rw [List.filter_append, dropped, List.append_nil]
  refine List.filter_congr fun edge member => ?_
  have distinct : edge ≠ place := fun same => fresh (same ▸ member)
  simp [distinct]

/-- Without a new element, the memory is the one from before its creation. -/
theorem Sound.extended_without (sound : memory.Sound)
    (settled : memory.limits.settle memory.cursor = some place) :
    (memory.extended place type ends).without (Insert.insert place gone) =
      { memory.without gone with cursor := place.nextOffset } := by
  have vacant := sound.ahead.getElem?_place settled
  have notLive {address : Address} (lives : memory.isElement address = true) : address ≠ place :=
    fun same => Nat.lt_irrefl _ (same ▸ sound.ahead place settled address lives)
  ext1
  case limits => rfl
  case cursor => rfl
  case elements =>
    ext1 address
    change _ = (memory.without gone).elements[address]?
    rw [getElem?_without, getElem?_without, getElem?_extended]
    by_cases isPlace : address = place
    · subst isPlace
      simp [vacant]
    · by_cases isGone : address ∈ gone
      · simp [isGone]
      · rw [if_neg (by simp [isPlace, isGone]), if_neg (Ne.symm isPlace), if_neg isGone]
        cases found : memory.elements[address]? with
        | none => rfl
        | some element =>
            have freshIncoming : place ∉ element.incoming := fun member =>
              notLive (isElement_of_endOn ((sound.linked.incoming.mem_iff found).mp member)) rfl
            have freshOutgoing : place ∉ element.outgoing := fun member =>
              notLive (isElement_of_endOn ((sound.linked.outgoing.mem_iff found).mp member)) rfl
            simp only [Option.map_some, Element.without, Element.attached_eq,
              filter_append_created freshIncoming, filter_append_created freshOutgoing]
  case identifiers =>
    ext1 identifier
    change Memory.owner? (Memory.without _ _) identifier = (memory.without gone).owner? identifier
    rw [owner?_without, owner?_without]
    change (memory.owner? identifier).filter _ = _
    cases owned : memory.owner? identifier with
    | none => rfl
    | some owner =>
        obtain ⟨element, found, _⟩ := sound.named.owner_iff.mp owned
        have distinct := notLive (isElement_iff_exists_element.mpr ⟨element, found⟩)
        simp [Option.filter_some, distinct]

/-- Without an element, it does not matter what identifier it was given. -/
theorem Named.renamed_without (named : memory.Named) {address : Address} {element : Element}
    {text : String} (found : memory.elements[address]? = some element)
    (free : memory.owner? text = none) (isGone : address ∈ gone) :
    (memory.renamed address element.identifier text).without gone = memory.without gone := by
  ext1
  case limits => rfl
  case cursor => rfl
  case elements =>
    ext1 other
    rw [getElem?_without, getElem?_without, getElem?_renamed]
    by_cases same : address = other
    · subst same
      simp [isGone]
    · rw [if_neg same]
  case identifiers =>
    ext1 identifier
    change ((memory.renamed address element.identifier text).without gone).owner? identifier =
      (memory.without gone).owner? identifier
    rw [owner?_without, owner?_without, owner?_renamed]
    split
    · next given =>
        obtain ⟨rfl, _⟩ := carried_eq_some_iff.mp given
        simp [free, isGone, Option.filter_some]
    · split
      · next released =>
          rw [named.owner_iff.mpr ⟨element, found, released⟩]
          simp [isGone, Option.filter_some]
      · rfl

end Memory

/-- A call leaves alone what lives in a memory: it may add to it, but it neither erases an element
of it nor names one anew. -/
def Call.Spares (start : Memory) : Call → Prop
  | erase address | assignIdentifier address _ => start.isElement address = false
  | clear => False
  | _ => True

namespace Memory

variable {memory start : Memory} {gone extra : Finset Address} {place : Address}
  {type : ElementType} {ends : Option (Address × Address)}

/-- The memory is the one at the start with something added.  What was added has no address that
was in use at the start, and without it the two differ in nothing but the cursor. -/
structure Surplus (start memory : Memory) (extra : Finset Address) : Prop where
  sound : memory.Sound
  new {address : Address} : address ∈ extra → start.isElement address = false
  closed : memory.ClosedUpwards extra
  without_eq : memory.without extra = { start with cursor := memory.cursor }

theorem Sound.surplus (sound : start.Sound) : start.Surplus start ∅ where
  sound := sound
  new isNew := absurd isNew (Finset.notMem_empty _)
  closed _ _ _ _ endNew := by simp at endNew
  without_eq := without_empty start

namespace Surplus

variable (surplus : start.Surplus memory extra)

include surplus

theorem isElement_iff {address : Address} :
    start.isElement address = true ↔ memory.isElement address = true ∧ address ∉ extra := by
  rw [← isElement_without, surplus.without_eq]
  rfl

theorem mem_of_new {address : Address} (lives : memory.isElement address = true)
    (isNew : start.isElement address = false) : address ∈ extra := by
  by_contra old
  rw [surplus.isElement_iff.mpr ⟨lives, old⟩] at isNew
  contradiction

/-- When nothing that was added is left, the memory is back at the start. -/
theorem eq_of_vacant
    (vacant : ∀ address, memory.isElement address = true → start.isElement address = true) :
    memory = { start with cursor := memory.cursor } := by
  rw [← surplus.without_eq]
  refine (surplus.sound.without_eq_self fun address isExtra => ?_).symm
  by_contra lives
  have old := vacant address (Bool.not_eq_false _ ▸ lives)
  rw [surplus.new isExtra] at old
  contradiction

/-- What falls with an addition is an addition. -/
theorem mem_of_cascade {root address : Address} (lives : memory.isElement root = true)
    (isNew : start.isElement root = false) (cascade : memory.Cascade root address) :
    address ∈ extra :=
  cascade.mem_of_closedUpwards surplus.closed (surplus.mem_of_new lives isNew)

theorem moved {cursor : Address} (sound : Sound { memory with cursor }) :
    start.Surplus { memory with cursor } extra where
  sound := sound
  new := surplus.new
  closed := surplus.closed
  without_eq := congrArg (fun memory : Memory => { memory with cursor }) surplus.without_eq

/-- A new element is one more addition. -/
theorem extended (fits : memory.Fits place type ends) :
    start.Surplus (memory.extended place type ends) (Insert.insert place extra) := by
  have sound := surplus.sound
  have vacant : ¬memory.isElement place = true := fun lives =>
    Nat.lt_irrefl _ (sound.ahead place fits.settled place lives)
  have isExtra {address : Address} (lives : memory.isElement address = true)
      (isNew : address ∈ Insert.insert place extra) : address ∈ extra :=
    (Finset.mem_insert.mp isNew).resolve_left fun same => vacant (same ▸ lives)
  refine ⟨sound.extended fits, ?_, ?_, ?_⟩
  · intro address isNew
    rcases Finset.mem_insert.mp isNew with rfl | isExtra
    · exact Bool.eq_false_iff.mpr fun old => vacant (surplus.isElement_iff.mp old).1
    · exact surplus.new isExtra
  · intro edge source target joins endNew
    rw [joins_extended] at joins
    split at joins
    · next isPlace => exact isPlace ▸ Finset.mem_insert_self place extra
    · obtain ⟨sourceLives, targetLives⟩ := sound.linked.ends_isElement joins
      have endExtra := endNew.imp (isExtra sourceLives) (isExtra targetLives)
      exact Finset.mem_insert_of_mem (surplus.closed joins endExtra)
  · rw [sound.extended_without fits.settled, surplus.without_eq]
    rfl

/-- Additions may go again, when they take nothing else along. -/
theorem without (closed : memory.ClosedUpwards gone) (gone_subset : gone ⊆ extra) :
    start.Surplus (memory.without gone) extra where
  sound := surplus.sound.without closed
  new := surplus.new
  closed _ _ _ joins endNew := surplus.closed (joins_without.mp joins).2 endNew
  without_eq := by
    rw [without_without, Finset.union_eq_right.mpr gone_subset, surplus.without_eq]
    rfl

/-- An addition may be given another identifier. -/
theorem renamed {address : Address} {element : Element} {text : String}
    (sound : (memory.renamed address element.identifier text).Sound)
    (found : memory.elements[address]? = some element) (free : memory.owner? text = none)
    (isNew : start.isElement address = false) :
    start.Surplus (memory.renamed address element.identifier text) extra where
  sound := sound
  new := surplus.new
  closed _ _ _ joins endNew :=
    surplus.closed ((memory.sameGraph_renamed address element.identifier text).joins_iff.mp joins)
      endNew
  without_eq := by
    have lives := isElement_iff_exists_element.mpr ⟨element, found⟩
    rw [surplus.sound.named.renamed_without found free (surplus.mem_of_new lives isNew),
      surplus.without_eq]
    rfl

/-- Whatever a call does that spares what was there at the start, it adds to what was added. -/
theorem apply (call : Call) (spares : call.Spares start) :
    ∃ extra, start.Surplus (call.apply memory) extra := by
  have sound := surplus.sound.apply call
  have effect := surplus.sound.effect call
  generalize call.apply memory = next at sound effect ⊢
  cases effect with
  | unchanged => exact ⟨extra, surplus⟩
  | moved => exact ⟨extra, surplus.moved sound⟩
  | extended _ fits => exact ⟨_, surplus.extended fits⟩
  | erased lives members =>
      refine ⟨extra, surplus.without (closedUpwards_of_cascade members) fun address isGone => ?_⟩
      exact surplus.mem_of_cascade lives spares ((members address).mp isGone)
  | renamed found free => exact ⟨extra, surplus.renamed sound found free spares⟩
  | cleared => exact spares.elim

/-- Erasing what was added takes nothing else away. -/
theorem after_erase {roots : List Address}
    (new : ∀ root ∈ roots, start.isElement root = false) :
    start.Surplus (memory.after (roots.map .erase)) extra := by
  obtain ⟨gone, members, left⟩ := surplus.sound.after_erase roots
  rw [left]
  refine surplus.without (closedUpwards_of_falls members) fun address isGone => ?_
  obtain ⟨root, isRoot, lives, cascade⟩ := (members address).mp isGone
  exact surplus.mem_of_cascade lives (new root isRoot) cascade

theorem addMember (set element : Address) :
    ∃ extra, start.Surplus ((Membership.add set element).run memory).state extra := by
  rcases surplus.sound.linked.state_add_cases set element with unchanged | made
  · exact ⟨extra, unchanged.symm ▸ surplus⟩
  · rw [made]
    exact surplus.apply (.createEdge .membershipArc set element) trivial

end Surplus

end Memory

/-- A request leaves alone what lives in a memory: it may add to it, but it erases no element of it,
names none of them anew and takes no member out of a set. -/
def Request.Spares (start : Memory) : Request → Prop
  | erase address | assignIdentifier address _ => start.isElement address = false
  | removeMember _ _ => False
  | _ => True

def Step.Spares (start : Memory) : Step → Prop
  | ask request => request.Spares start
  | clear => False
  | _ => True

namespace Memory

variable {memory start : Memory} {extra : Finset Address}

theorem Surplus.request (surplus : start.Surplus memory extra) {request : Request}
    (spares : request.Spares start) :
    ∃ extra, start.Surplus (request.action.run memory).state extra := by
  by_cases question : request.IsQuestion
  · rw [Request.state_of_isQuestion question]
    exact ⟨extra, surplus⟩
  cases request with
  | createNode type => exact surplus.apply (.createNode type) trivial
  | createLink => exact surplus.apply .createLink trivial
  | createEdge type source target =>
      exact surplus.apply (.createEdge type source target) trivial
  | erase address => exact surplus.apply (.erase address) spares
  | assignIdentifier address text =>
      exact surplus.apply (.assignIdentifier address text) spares
  | addMember set element => exact surplus.addMember set element
  | removeMember set element => exact spares.elim
  | _ => exact absurd trivial question

theorem Surplus.session (surplus : start.Surplus memory extra) {steps : List Step}
    (spares : ∀ step ∈ steps, step.Spares start) :
    ∃ extra, start.Surplus (Session.after memory steps) extra := by
  induction steps generalizing memory extra with
  | nil => exact ⟨extra, surplus⟩
  | cons step steps ih =>
      rw [List.forall_mem_cons] at spares
      cases step with
      | ask request =>
          obtain ⟨more, further⟩ := surplus.request spares.1
          exact ih further spares.2
      | reportUnknownOperatorType | reportError => exact ih surplus spares.2
      | clear => exact spares.1.elim

theorem sameContents_withCursor (memory : Memory) (cursor : Address) :
    memory.SameContents { memory with cursor } :=
  ⟨rfl, rfl, rfl⟩

/-- When every addition is erased, in whatever order, the memory holds what it held at the start. -/
theorem Surplus.sameContents_after_erase (surplus : start.Surplus memory extra)
    {roots : List Address} (new : ∀ root ∈ roots, start.isElement root = false)
    (all : ∀ address, memory.isElement address = true →
      start.isElement address = true ∨ address ∈ roots) :
    start.SameContents (memory.after (roots.map .erase)) := by
  have erased := surplus.after_erase new
  rw [erased.eq_of_vacant fun address lives => ?_]
  · exact start.sameContents_withCursor _
  · obtain ⟨gone, members, left⟩ := surplus.sound.after_erase roots
    rw [left] at lives
    obtain ⟨livesBefore, kept⟩ := isElement_without.mp lives
    refine (all address livesBefore).resolve_right fun isRoot => kept ?_
    exact (members address).mpr ⟨address, isRoot, livesBefore, .root⟩

/-- What an addition to a set adds to a memory is the arc to the new member, if anything. -/
theorem Sound.isMemberArc_of_new (sound : memory.Sound) {set element address : Address}
    (isNew : memory.isElement address = false)
    (lives : ((Membership.add set element).run memory).state.isElement address = true) :
    ((Membership.add set element).run memory).state.IsMemberArc address set element := by
  rw [sound.linked.run_add] at lives ⊢
  by_cases isMember : (set, element) ∈ memory.memberPairs
  · rw [if_pos isMember, isNew] at lives
    contradiction
  · rw [if_neg isMember] at lives ⊢
    rcases run_createEdge_cases memory .membershipArc set element with
      ⟨error, refused⟩ | ⟨_, _, _, created⟩
    · rw [refused, isNew] at lives
      contradiction
    · rcases run_insert_cases memory .membershipArc (some (set, element)) with
        ⟨place, settled, inserted⟩ | ⟨cursor, refused, _⟩
      · rw [created, inserted] at lives ⊢
        have isPlace : address = place := (isElement_extended.mp lives).resolve_right
          (by rw [isNew]; exact Bool.false_ne_true)
        subst isPlace
        have typed : (memory.extended address .membershipArc (some (set, element))).typeAt? address =
            some .membershipArc := by rw [typeAt?_extended, if_pos rfl]
        exact ⟨joins_extended.mpr (if_pos rfl ▸ rfl), _, typed, ElementType.carries_self _⟩
      · rw [created, refused] at lives
        exact absurd (lives.symm.trans isNew) nofun

/-- When only arcs to a member were added, they go with the member. -/
theorem Surplus.sameContents_remove (surplus : start.Surplus memory extra) {set element : Address}
    (noArcs : start.scan (Membership.arcs set element) = [])
    (onlyArcs : ∀ address, memory.isElement address = true → start.isElement address = false →
      memory.IsMemberArc address set element) :
    start.SameContents ((Membership.remove set element).run memory).state := by
  have linked := surplus.sound.linked
  have left_scan : (memory.scan (Membership.arcs set element)).filter
      (fun triple => triple.edge ∉ extra) = [] := by
    rw [← scan_without surplus.closed, surplus.without_eq]
    exact noArcs
  obtain ⟨_, removed⟩ := linked.succeeds_remove set element
  rw [removed, erasures_eq]
  refine surplus.sameContents_after_erase ?_ ?_
  · intro edge isArc
    obtain ⟨triple, listed, rfl⟩ := List.mem_map.mp isArc
    have isExtra := List.filter_eq_nil_iff.mp left_scan triple listed
    exact surplus.new (by simpa using isExtra)
  · intro address lives
    cases isNew : start.isElement address with
    | true => exact .inl rfl
    | false =>
        have listed := (isMemberArc_iff linked).mp (onlyArcs address lives isNew)
        exact .inr (List.mem_map.mpr ⟨_, listed, rfl⟩)

/-- Taking a new member out of a set again leaves the memory as it was before it was added. -/
theorem Sound.sameContents_add_remove (sound : start.Sound) {set element : Address}
    (noMember : hasEdge start set element .membershipArc = .ok false) :
    start.SameContents
      (Session.after start [.ask (.addMember set element), .ask (.removeMember set element)]) := by
  obtain ⟨extra, surplus⟩ := sound.surplus.addMember set element
  refine surplus.sameContents_remove ?_ fun address lives isNew =>
    sound.isMemberArc_of_new isNew lives
  rw [sound.linked.hasEdge_membershipArc, Except.ok.injEq, decide_eq_false_iff_not,
    mem_memberPairs_iff_scan_arcs, not_not] at noMember
  exact noMember

/-- A session that spares what lived before it can be undone: when every element that it made and
that still lives is erased, in whatever order, the memory holds what it held before.  In particular,
adding a member to a set and taking it out again changes the answer to no question. -/
theorem Reachable.session_undone (reachable : Reachable start) :
    (∀ steps : List Step, (∀ step ∈ steps, step.Spares start) →
      ∀ roots : List Address,
        (∀ root ∈ roots, start.isElement root = false) →
        (∀ address, (Session.after start steps).isElement address = true →
          start.isElement address = true ∨ address ∈ roots) →
        start.SameContents ((Session.after start steps).after (roots.map .erase))) ∧
    ∀ set element : Address, hasEdge start set element .membershipArc = .ok false →
      let left :=
        Session.after start [.ask (.addMember set element), .ask (.removeMember set element)]
      start.SameContents left ∧
      ∀ request : Request, request.IsQuestion →
        (request.action.run left).result = (request.action.run start).result ∧
        (request.action.run left).events = (request.action.run start).events := by
  constructor
  · intro steps spares roots new all
    obtain ⟨extra, surplus⟩ := reachable.sound.surplus.session spares
    exact surplus.sameContents_after_erase new all
  · intro set element noMember left
    have same := reachable.sound.sameContents_add_remove noMember
    refine ⟨same, fun request question => ?_⟩
    have sameAnswers : ∀ ⦃memory other : Memory⦄, memory.SameContents other →
        SameAnswers memory other := fun _ _ same => same.sameAnswers
    have reply := Request.like_of_isQuestion sameAnswers question same
    exact ⟨reply.result_eq.symm, reply.events_eq.symm⟩

/-- An edge on the loop and a named arc on that edge, the younger one erased last. -/
theorem session_undone_at_loopOnEdge :
    let steps : List Step :=
      [.ask (.createEdge .commonArcConst ⟨0, 4⟩ ⟨0, 1⟩), .ask (.addMember ⟨1, 2⟩ ⟨0, 2⟩),
        .ask (.assignIdentifier ⟨1, 3⟩ "marked")]
    Reachable loopOnEdge ∧
      (Session.after loopOnEdge steps).elements.keys =
        [⟨0, 1⟩, ⟨0, 2⟩, ⟨0, 3⟩, ⟨0, 4⟩, ⟨1, 1⟩, ⟨1, 2⟩, ⟨1, 3⟩] ∧
      loopOnEdge.SameContents
        ((Session.after loopOnEdge steps).after [.erase ⟨1, 2⟩, .erase ⟨1, 3⟩]) ∧
      hasEdge loopOnEdge ⟨0, 2⟩ ⟨0, 4⟩ .membershipArc = .ok false ∧
      loopOnEdge.SameContents (Session.after loopOnEdge
        [.ask (.addMember ⟨0, 2⟩ ⟨0, 4⟩), .ask (.removeMember ⟨0, 2⟩ ⟨0, 4⟩)]) := by
  intro steps
  have keys_eq : (Session.after loopOnEdge steps).elements.keys =
      [⟨0, 1⟩, ⟨0, 2⟩, ⟨0, 3⟩, ⟨0, 4⟩, ⟨1, 1⟩, ⟨1, 2⟩, ⟨1, 3⟩] := by decide
  have vacant : loopOnEdge.isElement ⟨1, 3⟩ = false := by decide
  have spares : ∀ step ∈ steps, step.Spares loopOnEdge := by
    simp only [steps, List.forall_mem_cons]
    exact ⟨trivial, trivial, vacant, nofun⟩
  have noMember : hasEdge loopOnEdge ⟨0, 2⟩ ⟨0, 4⟩ .membershipArc = .ok false := by decide
  obtain ⟨undone, removed⟩ := reachable_loopOnEdge.session_undone
  refine ⟨reachable_loopOnEdge, keys_eq, ?_, noMember, (removed _ _ noMember).1⟩
  refine undone steps spares [⟨1, 2⟩, ⟨1, 3⟩] (by decide) fun address lives => ?_
  rw [isElement_iff, ← Std.ExtTreeMap.mem_keys, keys_eq] at lives
  revert address
  decide

end Memory

end SemanticMemory
