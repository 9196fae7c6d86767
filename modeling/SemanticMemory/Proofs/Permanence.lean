import SemanticMemory.Proofs.Effects
import SemanticMemory.Proofs.Numbering
import SemanticMemory.Proofs.Requests
import SemanticMemory.Proofs.Spelling

/-!
# Addresses keep their meaning

As long as a memory is not cleared, its cursor only moves forward.  An address that the cursor has
gone past is never given to another element, so while an element lives at such an address it is the
same element, and once it is gone the address stays vacant.
-/

namespace SemanticMemory

open TripleStore

namespace Memory

variable {memory next last : Memory} {address : Address}

/-- What never changes about an element while it lives. -/
def outline? (memory : Memory) (address : Address) :
    Option (ElementType × Option (Address × Address)) :=
  memory.elements[address]?.map fun element => (element.type, element.ends)

theorem isElement_eq_isSome_outline? (memory : Memory) (address : Address) :
    memory.isElement address = (memory.outline? address).isSome := by
  rw [isElement_eq_isSome, outline?, Option.isSome_map]

theorem elementType_eq_of_outline?_eq (same : next.outline? address = memory.outline? address) :
    next.elementType address = memory.elementType address := by
  have known (memory : Memory) : memory.elementType address =
      match memory.outline? address with
      | none => .error (.elementNotFound address)
      | some (type, _) => .ok type := by
    rw [elementType, element, outline?]
    cases memory.elements[address]? <;> rfl
  rw [known, known, same]

theorem endpoints_eq_of_outline?_eq (same : next.outline? address = memory.outline? address) :
    next.endpoints address = memory.endpoints address := by
  have known (memory : Memory) : memory.endpoints address =
      match memory.outline? address with
      | none => .error (.elementNotFound address)
      | some (_, none) => .error (.notAnEdge address)
      | some (_, some ends) => .ok ends := by
    rw [endpoints, element, outline?]
    rcases memory.elements[address]? with _ | ⟨_, _ | _, _, _, _⟩ <;> rfl
  rw [known, known, same]

theorem outline?_extended {place : Address} {type : ElementType}
    {ends : Option (Address × Address)} (distinct : address ≠ place) :
    (memory.extended place type ends).outline? address = memory.outline? address := by
  rw [outline?, outline?, getElem?_extended, if_neg (Ne.symm distinct)]
  cases memory.elements[address]? <;> simp

theorem outline?_without {gone : Finset Address} :
    (memory.without gone).outline? address =
      if address ∈ gone then none else memory.outline? address := by
  rw [outline?, outline?, getElem?_without]
  split
  · rfl
  · rw [Option.map_map]
    rfl

theorem SameGraph.outline?_eq (same : next.SameGraph memory) (address : Address) :
    next.outline? address = memory.outline? address := by
  have nameless (memory : Memory) : memory.outline? address =
      (memory.elements[address]?.map (Element.withIdentifier none)).map
        fun element => (element.type, element.ends) := by
    rw [outline?, Option.map_map]
    rfl
  rw [nameless, nameless, same address]

/-- Whether the cursor has gone past the address. -/
def Spent (memory : Memory) (address : Address) : Prop :=
  ∀ place, memory.limits.settle memory.cursor = some place → address < place

theorem Sound.spent (sound : memory.Sound) (lives : memory.isElement address = true) :
    memory.Spent address :=
  fun place settled => sound.ahead place settled address lives

/-- What time does to an address that the cursor has gone past: nothing, or its element goes. -/
structure Ages (memory next : Memory) (address : Address) : Prop where
  spent : next.Spent address
  outline : next.outline? address = memory.outline? address ∨ next.outline? address = none

theorem Spent.ages_self (spent : memory.Spent address) : memory.Ages memory address :=
  ⟨spent, .inl rfl⟩

theorem Ages.trans (early : memory.Ages next address) (late : next.Ages last address) :
    memory.Ages last address := by
  refine ⟨late.spent, ?_⟩
  rcases late.outline with same | vacant
  · rw [same]
    exact early.outline
  · exact .inr vacant

theorem Ages.isElement_eq_false (ages : memory.Ages next address)
    (missing : memory.isElement address = false) : next.isElement address = false := by
  rw [isElement_eq_isSome_outline?, Option.isSome_eq_false_iff, Option.isNone_iff_eq_none] at *
  rcases ages.outline with same | vacant
  · exact same.trans missing
  · exact vacant

theorem Ages.outline?_eq (ages : memory.Ages next address) (lives : next.isElement address = true) :
    next.outline? address = memory.outline? address := by
  refine ages.outline.resolve_right fun vacant => ?_
  rw [isElement_eq_isSome_outline?, vacant] at lives
  contradiction

/-- The place that is taken next is none that the cursor has gone past. -/
theorem Spent.ne_place (spent : memory.Spent address) {place : Address}
    (settled : memory.limits.settle memory.cursor = some place) : address ≠ place :=
  fun same => Nat.lt_irrefl _ (same ▸ spent place settled)

/-- Whatever a call does but clear the memory, the cursor does not go back, and a place that it has
gone past gets no other element. -/
theorem Spent.ages (spent : memory.Spent address) {call : Call}
    (effect : memory.Effect call next) (notClear : call ≠ .clear) :
    memory.Ages next address := by
  cases effect with
  | unchanged => exact spent.ages_self
  | moved _ refused =>
      refine ⟨fun further settled => ?_, .inl rfl⟩
      obtain ⟨place, settledBefore, place_le⟩ := Limits.later_of_refused refused settled
      exact Nat.lt_of_lt_of_le (spent place settledBefore) place_le
  | extended _ fits =>
      refine ⟨fun further settled => ?_, .inl (outline?_extended (spent.ne_place fits.settled))⟩
      exact Nat.lt_trans (spent _ fits.settled) (Limits.lt_of_settle_nextOffset settled)
  | erased =>
      refine ⟨spent, ?_⟩
      rw [outline?_without]
      split
      · exact .inr rfl
      · exact .inl rfl
  | renamed => exact ⟨spent, .inl ((memory.sameGraph_renamed _ _ _).outline?_eq address)⟩
  | cleared => exact absurd rfl notClear

theorem Sound.ages_after (sound : memory.Sound) (spent : memory.Spent address)
    {calls : List Call} (noClear : .clear ∉ calls) : memory.Ages (memory.after calls) address := by
  induction calls generalizing memory with
  | nil => exact spent.ages_self
  | cons call calls ih =>
      rw [List.mem_cons, not_or] at noClear
      have ages := spent.ages (sound.effect call) (Ne.symm noClear.1)
      exact ages.trans (ih (sound.apply call) ages.spent noClear.2)

/-- No creation is given an address that the cursor has gone past. -/
theorem Sound.creation?_ne (sound : memory.Sound) (spent : memory.Spent address) (call : Call) :
    call.creation? memory ≠ some (.ok address) := by
  by_cases fit : call.IsFit memory
  · obtain ⟨type, ends, created, _⟩ := Call.insert_of_isFit fit
    rw [created]
    intro given
    rcases run_insert_cases memory type ends with ⟨place, settled, taken⟩ | ⟨_, refused, _⟩
    · rw [taken] at given
      cases given
      exact spent.ne_place settled rfl
    · rw [refused] at given
      cases given
  · by_cases isClear : call = .clear
    · subst isClear
      exact nofun
    · exact (Call.keeps_of_not_isFit sound fit isClear).1 address

/-- A pattern that asks for edges of a vacant address finds none. -/
theorem scan_eq_nil_of_fixed {pattern : Pattern} (missing : memory.isElement address = false)
    (fixed : pattern.source = .fixed address ∨ pattern.target = .fixed address) :
    memory.scan pattern = [] := by
  rw [List.eq_nil_iff_forall_not_mem]
  intro triple member
  obtain ⟨_, _, sourceFits, targetFits⟩ := mem_scan_iff_joins.mp member
  have vacant {other : Address} (fitting : memory.fits (.fixed address) other = true) : False := by
    obtain ⟨rfl, lives⟩ := fits_fixed_iff.mp fitting
    rw [missing] at lives
    contradiction
  rcases fixed with atSource | atTarget
  · exact vacant (atSource ▸ sourceFits)
  · exact vacant (atTarget ▸ targetFits)

end Memory

/-- The elements that a request cannot do without, in the order in which it looks at them.  An edge
looks at its ends only when its type is fit for one. -/
def Request.needs : Request → List Address
  | elementType address | endpoints address | identifier address | elementText address => [address]
  | assignIdentifier address _ => [address]
  | createEdge type source target => if type.fitsEdge then [source, target] else []
  | addMember set element => [set, element]
  | _ => []

namespace Memory

variable {memory : Memory} {address : Address}

theorem element_of_not_isElement (missing : memory.isElement address = false) :
    memory.element address = .error (.elementNotFound address) := by
  rw [isElement_eq_isSome, Option.isSome_eq_false_iff, Option.isNone_iff_eq_none] at missing
  exact element_eq_error_iff.mpr ⟨missing, rfl⟩

/-- An edge is refused for the first of its ends that is vacant. -/
theorem result_createEdge_of_missing {type : ElementType} {source target missing : Address}
    (fits : type.fitsEdge = true)
    (first : [source, target].find? (fun address => !memory.isElement address) = some missing) :
    ((createEdge type source target).run memory).result = .error (.elementNotFound missing) := by
  rw [run_createEdge, if_pos fits]
  cases sourceLives : memory.isElement source with
  | false =>
      simp only [List.find?_cons, sourceLives] at first
      cases first
      rfl
  | true =>
      cases targetLives : memory.isElement target with
      | false =>
          simp only [List.find?_cons, sourceLives, targetLives] at first
          cases first
          rfl
      | true => simp [sourceLives, targetLives] at first

/-- A request that needs a vacant address fails, and it names the first such address. -/
theorem Linked.result_of_needs (linked : memory.Linked) {request : Request} {missing : Address}
    (first : request.needs.find? (fun address => !memory.isElement address) = some missing) :
    (request.action.run memory).result = .error (.store (.elementNotFound missing)) := by
  have alone {address : Address}
      (found : [address].find? (fun address => !memory.isElement address) = some missing) :
      address = missing ∧ memory.isElement address = false := by
    rw [List.find?_singleton] at found
    split at found
    · next vacant =>
        cases found
        exact ⟨rfl, by simpa using vacant⟩
    · cases found
  cases request with
  | elementType address =>
      obtain ⟨rfl, vacant⟩ := alone first
      change ((memory.element address).map _).mapError _ = _
      rw [element_of_not_isElement vacant]
      rfl
  | endpoints address =>
      obtain ⟨rfl, vacant⟩ := alone first
      change ((memory.element address).bind _).mapError _ = _
      rw [element_of_not_isElement vacant]
      rfl
  | identifier address =>
      obtain ⟨rfl, vacant⟩ := alone first
      change ((memory.element address).map _).mapError _ = _
      rw [element_of_not_isElement vacant]
      rfl
  | elementText address =>
      obtain ⟨rfl, vacant⟩ := alone first
      exact elementText_of_not_isElement vacant
  | assignIdentifier address text =>
      obtain ⟨rfl, vacant⟩ := alone first
      change ((assignIdentifier address text).run memory).result.mapError _ = _
      simp only [assignIdentifier, Action.run, element_of_not_isElement vacant]
      rfl
  | createEdge type source target =>
      change ((createEdge type source target).run memory).result.mapError _ = _
      rw [Request.needs] at first
      split at first
      · next fits =>
          rw [result_createEdge_of_missing fits first]
          rfl
      · cases first
  | addMember set element =>
      have fits : ElementType.membershipArc.fitsEdge = true := by decide
      have created := result_createEdge_of_missing fits first
      have vacant : memory.isElement missing = false := by simpa using List.find?_some first
      have noMember : (set, element) ∉ memory.memberPairs := by
        rw [mem_memberPairs_iff_scan_arcs, not_not]
        refine scan_eq_nil_of_fixed vacant ?_
        rcases List.mem_pair.mp (List.mem_of_find?_eq_some first) with rfl | rfl
        · exact .inl rfl
        · exact .inr rfl
      change ((Membership.add set element).run memory).result = _
      rw [linked.run_add, if_neg noMember]
      rcases reply : (createEdge .membershipArc set element).run memory with ⟨result, next, events⟩
      rw [reply] at created
      cases created
      rfl
  | _ => cases first

theorem Linked.exists_missing_of_needs (linked : memory.Linked) {request : Request}
    (missing : memory.isElement address = false) (needed : address ∈ request.needs) :
    ∃ first, request.needs.find? (fun needed => !memory.isElement needed) = some first ∧
      (request.action.run memory).result = .error (.store (.elementNotFound first)) := by
  have anyMissing : (request.needs.find? fun needed => !memory.isElement needed).isSome := by
    rw [List.find?_isSome]
    exact ⟨address, needed, by rw [missing]; rfl⟩
  obtain ⟨first, found⟩ := Option.isSome_iff_exists.mp anyMissing
  exact ⟨first, found, linked.result_of_needs found⟩

theorem write_of_not_isElement (missing : memory.isElement address = false) :
    Neighborhood.write memory address = Action.fail (.elementNotFound address) := by
  have vacant : ¬TripleStore.isElement memory address = true := by
    change ¬memory.isElement address = true
    rw [missing]
    exact Bool.false_ne_true
  rw [Neighborhood.write, if_neg vacant]

theorem result_write_of_not_isElement (missing : memory.isElement address = false) (sink : Sink) :
    ((Neighborhood.write memory address).run sink).result = .error (.elementNotFound address) := by
  rw [write_of_not_isElement missing, Action.run_fail]

/-- In a run without a clearing, an element that lives at two moments lives in between and is the
same element at both, and an address whose element is gone stays vacant: no creation is given it,
no edge is found at it, and whatever needs an element there fails. -/
theorem Reachable.addresses_keep_meaning (reachable : Reachable memory) (earlier later : List Call)
    (noClear : .clear ∉ earlier ++ later) (lives : memory.isElement address = true) :
    let second := memory.after earlier
    let third := second.after later
    (third.isElement address = true →
      second.isElement address = true ∧
      (second.elementType address = memory.elementType address ∧
        third.elementType address = memory.elementType address) ∧
      second.endpoints address = memory.endpoints address ∧
        third.endpoints address = memory.endpoints address) ∧
    (second.isElement address = false →
      third.isElement address = false ∧
      (∀ call : Call, call.creation? third ≠ some (.ok address)) ∧
      (∀ pattern : Pattern, pattern.source = .fixed address ∨ pattern.target = .fixed address →
        third.matching pattern = .ok []) ∧
      (∀ request : Request, address ∈ request.needs →
        ∃ missing, request.needs.find? (fun needed => !third.isElement needed) = some missing ∧
          (request.action.run third).result = .error (.store (.elementNotFound missing))) ∧
      ∀ sink : Sink, ((Neighborhood.write third address).run sink).result =
        .error (.elementNotFound address)) := by
  intro second third
  rw [List.mem_append, not_or] at noClear
  have sound := reachable.sound
  have early : memory.Ages second address := sound.ages_after (sound.spent lives) noClear.1
  have late : second.Ages third address :=
    (reachable.after earlier).sound.ages_after early.spent noClear.2
  have soundThird : third.Sound := ((reachable.after earlier).after later).sound
  constructor
  · intro livesThird
    have livesSecond : second.isElement address = true := by
      by_contra missing
      rw [late.isElement_eq_false (Bool.eq_false_iff.mpr missing)] at livesThird
      contradiction
    have sameSecond := early.outline?_eq livesSecond
    have sameThird := (late.outline?_eq livesThird).trans sameSecond
    exact ⟨livesSecond,
      ⟨elementType_eq_of_outline?_eq sameSecond, elementType_eq_of_outline?_eq sameThird⟩,
      endpoints_eq_of_outline?_eq sameSecond, endpoints_eq_of_outline?_eq sameThird⟩
  · intro missingSecond
    have missing := late.isElement_eq_false missingSecond
    refine ⟨missing, soundThird.creation?_ne late.spent, fun pattern fixed => ?_, fun request => ?_,
      result_write_of_not_isElement missing⟩
    · rw [soundThird.linked.matching_eq_scan, scan_eq_nil_of_fixed missing fixed]
    · exact soundThird.linked.exists_missing_of_needs missing

/-- The loop goes with the edge that it hangs on, and the link that is made next lives elsewhere. -/
theorem addresses_keep_meaning_at_loopOnEdge :
    Reachable loopOnEdge ∧ loopOnEdge.isElement ⟨0, 4⟩ = true ∧
      (loopOnEdge.after [.erase ⟨0, 3⟩]).isElement ⟨0, 4⟩ = false ∧
      ((loopOnEdge.after [.erase ⟨0, 3⟩]).after [.createLink]).isElement ⟨0, 4⟩ = false ∧
      Call.createLink.creation? ((loopOnEdge.after [.erase ⟨0, 3⟩]).after [.createLink]) ≠
        some (.ok ⟨0, 4⟩) := by
  have lives : loopOnEdge.isElement ⟨0, 4⟩ = true := by decide
  have erased : (loopOnEdge.after [.erase ⟨0, 3⟩]).isElement ⟨0, 4⟩ = false := by cbv
  obtain ⟨missing, notGiven, _⟩ :=
    (reachable_loopOnEdge.addresses_keep_meaning [.erase ⟨0, 3⟩] [.createLink] (by decide) lives).2
      erased
  exact ⟨reachable_loopOnEdge, lives, erased, missing, notGiven .createLink⟩

end Memory

end SemanticMemory
