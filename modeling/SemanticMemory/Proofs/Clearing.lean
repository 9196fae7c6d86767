import Mathlib.Data.List.Permutation
import SemanticMemory.Proofs.Integrity

/-!
# Erasing several elements

Each erasure leaves the memory without a cascade.  Erasing several elements one after the other
leaves it without all their cascades, so the order in which they are erased does not matter, and
neither does an element that went with an earlier one.
-/

namespace SemanticMemory

namespace Memory

variable {memory : Memory} {gone more : Finset Address}

theorem without_without (memory : Memory) (gone more : Finset Address) :
    (memory.without gone).without more = memory.without (gone ∪ more) := by
  have element_eq (element : Element) :
      (element.without gone).without more = element.without (gone ∪ more) := by
    simp [Element.without, List.filter_filter, Bool.and_comm]
  ext1
  case limits => rfl
  case cursor => rfl
  case elements =>
    ext1 address
    simp only [getElem?_without, Finset.mem_union]
    by_cases isGone : address ∈ gone
    · simp [isGone]
    · by_cases isMore : address ∈ more
      · simp [isMore]
      · cases memory.elements[address]? <;> simp [isGone, isMore, element_eq]
  case identifiers =>
    ext1 identifier
    change ((memory.without gone).without more).owner? identifier =
      (memory.without (gone ∪ more)).owner? identifier
    simp only [owner?_without, Option.filter_filter, Finset.mem_union, not_or, Bool.decide_and]

theorem joins_without {edge source target : Address} :
    (memory.without gone).Joins edge source target ↔
      edge ∉ gone ∧ memory.Joins edge source target := by
  rw [joins_iff, joins_iff, getElem?_without]
  by_cases isGone : edge ∈ gone
  · simp [isGone]
  · cases memory.elements[edge]? <;> simp [isGone, Element.without]

/-- A set that is closed upwards holds the cascade of each of its elements. -/
theorem Cascade.mem_of_closedUpwards {root address : Address}
    (cascade : memory.Cascade root address) (closed : memory.ClosedUpwards gone)
    (rootGone : root ∈ gone) : address ∈ gone := by
  induction cascade with
  | root => exact rootGone
  | fromSource joins _ ih => exact closed joins (.inl ih)
  | fromTarget joins _ ih => exact closed joins (.inr ih)

/-- The cascade of an element that is left is what is left of its cascade. -/
theorem cascade_without_iff (closed : memory.ClosedUpwards gone) {root address : Address}
    (kept : root ∉ gone) :
    (memory.without gone).Cascade root address ↔
      memory.Cascade root address ∧ address ∉ gone := by
  constructor
  · intro cascade
    induction cascade with
    | root => exact ⟨.root, kept⟩
    | fromSource joins _ ih =>
        obtain ⟨edgeKept, joinsBefore⟩ := joins_without.mp joins
        exact ⟨.fromSource joinsBefore ih.1, edgeKept⟩
    | fromTarget joins _ ih =>
        obtain ⟨edgeKept, joinsBefore⟩ := joins_without.mp joins
        exact ⟨.fromTarget joinsBefore ih.1, edgeKept⟩
  · rintro ⟨cascade, edgeKept⟩
    induction cascade with
    | root => exact .root
    | fromSource joins _ ih =>
        exact .fromSource (joins_without.mpr ⟨edgeKept, joins⟩)
          (ih fun isGone => edgeKept (closed joins (.inl isGone)))
    | fromTarget joins _ ih =>
        exact .fromTarget (joins_without.mpr ⟨edgeKept, joins⟩)
          (ih fun isGone => edgeKept (closed joins (.inr isGone)))

/-- Where nothing lives in the set, nothing changes without it. -/
theorem Sound.without_eq_self (sound : memory.Sound)
    (vacant : ∀ address ∈ gone, memory.isElement address = false) :
    memory.without gone = memory := by
  have kept {address : Address} (lives : memory.isElement address = true) : address ∉ gone := by
    intro isGone
    rw [vacant address isGone] at lives
    contradiction
  ext1
  case limits => rfl
  case cursor => rfl
  case elements =>
    ext1 address
    rw [getElem?_without]
    cases found : memory.elements[address]? with
    | none => simp
    | some element =>
        have lives := isElement_iff_exists_element.mpr ⟨element, found⟩
        have incoming_eq : element.incoming.filter (· ∉ gone) = element.incoming :=
          List.filter_eq_self.mpr fun edge member => decide_eq_true
            (kept (isElement_of_endOn ((sound.linked.incoming.mem_iff found).mp member)))
        have outgoing_eq : element.outgoing.filter (· ∉ gone) = element.outgoing :=
          List.filter_eq_self.mpr fun edge member => decide_eq_true
            (kept (isElement_of_endOn ((sound.linked.outgoing.mem_iff found).mp member)))
        rw [if_neg (kept lives), Option.map_some, Element.without, incoming_eq, outgoing_eq]
  case identifiers =>
    ext1 identifier
    change (memory.without gone).owner? identifier = memory.owner? identifier
    rw [owner?_without]
    cases owned : memory.owner? identifier with
    | none => rfl
    | some owner =>
        obtain ⟨element, found, _⟩ := sound.named.owner_iff.mp owned
        have lives := isElement_iff_exists_element.mpr ⟨element, found⟩
        simp [Option.filter_some, kept lives]

/-- Whether an element belongs to the cascade of one of the roots that live. -/
def Falls (memory : Memory) (roots : List Address) (address : Address) : Prop :=
  ∃ root ∈ roots, memory.isElement root = true ∧ memory.Cascade root address

theorem falls_singleton_iff {root address : Address} :
    memory.Falls [root] address ↔ memory.isElement root = true ∧ memory.Cascade root address := by
  simp [Falls]

theorem closedUpwards_of_falls {roots : List Address}
    (members : ∀ address, address ∈ gone ↔ memory.Falls roots address) :
    memory.ClosedUpwards gone := by
  intro edge source target joins endGone
  rw [members, members] at endGone
  rw [members]
  rcases endGone with ⟨root, isRoot, lives, cascade⟩ | ⟨root, isRoot, lives, cascade⟩
  · exact ⟨root, isRoot, lives, .fromSource joins cascade⟩
  · exact ⟨root, isRoot, lives, .fromTarget joins cascade⟩

theorem Sound.apply_erase (sound : memory.Sound) (root : Address) :
    ∃ gone : Finset Address, (∀ address, address ∈ gone ↔ memory.Falls [root] address) ∧
      Call.apply memory (.erase root) = memory.without gone := by
  simp only [falls_singleton_iff]
  rw [Call.apply]
  cases lives : memory.isElement root with
  | false => exact ⟨∅, by simp, by rw [run_erase_of_not_isElement lives, without_empty]⟩
  | true =>
      obtain ⟨gone, members, _, erased⟩ :=
        run_erase_of_isElement sound.linked sound.named lives
      exact ⟨gone, by simp [members], by rw [erased]⟩

/-- What falls with the first root, and with the others after it, is what falls with all of them. -/
theorem falls_cons_iff {root address : Address} {roots : List Address}
    (members : ∀ address, address ∈ gone ↔ memory.Falls [root] address) :
    memory.Falls (root :: roots) address ↔
      address ∈ gone ∨ (memory.without gone).Falls roots address := by
  have closed := closedUpwards_of_falls members
  constructor
  · rintro ⟨other, isRoot, lives, cascade⟩
    rcases List.mem_cons.mp isRoot with rfl | isRoot
    · exact .inl ((members address).mpr (falls_singleton_iff.mpr ⟨lives, cascade⟩))
    · by_cases otherGone : other ∈ gone
      · exact .inl (cascade.mem_of_closedUpwards closed otherGone)
      · by_cases isGone : address ∈ gone
        · exact .inl isGone
        · exact .inr ⟨other, isRoot, isElement_without.mpr ⟨lives, otherGone⟩,
            (cascade_without_iff closed otherGone).mpr ⟨cascade, isGone⟩⟩
  · rintro (isGone | ⟨other, isRoot, lives, cascade⟩)
    · obtain ⟨lives, cascade⟩ := falls_singleton_iff.mp ((members address).mp isGone)
      exact ⟨root, List.mem_cons_self, lives, cascade⟩
    · obtain ⟨livesBefore, kept⟩ := isElement_without.mp lives
      exact ⟨other, List.mem_cons_of_mem _ isRoot, livesBefore,
        ((cascade_without_iff closed kept).mp cascade).1⟩

/-- Erasures leave the memory without the cascades of the roots that lived at the start. -/
theorem Sound.after_erase (sound : memory.Sound) (roots : List Address) :
    ∃ gone : Finset Address, (∀ address, address ∈ gone ↔ memory.Falls roots address) ∧
      memory.after (roots.map .erase) = memory.without gone := by
  induction roots generalizing memory with
  | nil => exact ⟨∅, by simp [Falls], (without_empty memory).symm⟩
  | cons root roots ih =>
      obtain ⟨first, firstMembers, erased⟩ := sound.apply_erase root
      obtain ⟨others, otherMembers, left⟩ :=
        ih (sound.without (closedUpwards_of_falls firstMembers))
      refine ⟨first ∪ others, fun address => ?_, ?_⟩
      · rw [Finset.mem_union, otherMembers, falls_cons_iff firstMembers]
      · rw [List.map_cons, after_cons, erased, left, without_without]

/-- The order of erasures does not matter. -/
theorem Sound.after_erase_congr (sound : memory.Sound) {roots others : List Address}
    (same : ∀ root, root ∈ roots ↔ root ∈ others) :
    memory.after (roots.map .erase) = memory.after (others.map .erase) := by
  obtain ⟨gone, members, left⟩ := sound.after_erase roots
  obtain ⟨otherGone, otherMembers, otherLeft⟩ := sound.after_erase others
  have gone_eq : gone = otherGone := by
    ext address
    simp only [members, otherMembers, Falls, same]
  rw [left, otherLeft, gone_eq]

theorem result_erase (memory : Memory) (address : Address) :
    ((erase address).run memory).result = .ok (memory.isElement address) := by
  simp only [erase, Action.run]
  split
  · next lives => rw [lives]
  · next missing => rw [Bool.eq_false_iff.mpr missing]

/-- What the erasures of elements one after the other are answered: whether each element was still
there when its turn came. -/
def erasureAnswers : Memory → List Address → List Bool
  | _, [] => []
  | memory, root :: roots =>
      memory.isElement root :: erasureAnswers (Call.apply memory (.erase root)) roots

theorem succeeds_mapM_erase (memory : Memory) (roots : List Address) :
    (roots.mapM erase).Succeeds memory (memory.erasureAnswers roots)
      (memory.after (roots.map .erase)) := by
  induction roots generalizing memory with
  | nil => exact Action.succeeds_pure_iff.mpr ⟨rfl, rfl⟩
  | cons root roots ih =>
      rw [List.mapM_cons, Action.succeeds_bind_iff]
      refine ⟨_, _, Action.succeeds_of_result (memory.result_erase root), ?_⟩
      rw [Action.succeeds_bind_iff]
      exact ⟨_, _, ih _, Action.succeeds_pure_iff.mpr ⟨rfl, rfl⟩⟩

theorem length_erasureAnswers (memory : Memory) (roots : List Address) :
    (memory.erasureAnswers roots).length = roots.length := by
  induction roots generalizing memory with
  | nil => rfl
  | cons root roots ih => rw [erasureAnswers, List.length_cons, List.length_cons, ih]

theorem erasureAnswers_append (memory : Memory) (earlier later : List Address) :
    memory.erasureAnswers (earlier ++ later) =
      memory.erasureAnswers earlier ++
        (memory.after (earlier.map .erase)).erasureAnswers later := by
  induction earlier generalizing memory with
  | nil => rfl
  | cons root earlier ih =>
      rw [List.cons_append, erasureAnswers, ih]
      rfl

theorem getElem?_erasureAnswers (memory : Memory) (earlier later : List Address)
    (root : Address) :
    (memory.erasureAnswers (earlier ++ root :: later))[earlier.length]? =
      some ((memory.after (earlier.map .erase)).isElement root) := by
  rw [erasureAnswers_append, ← memory.length_erasureAnswers earlier,
    List.getElem?_append_right (Nat.le_refl _), Nat.sub_self]
  rfl

/-- What is left after erasures is what did not fall with any of the roots. -/
theorem Sound.isElement_after_erase (sound : memory.Sound) {roots : List Address}
    {address : Address} :
    (memory.after (roots.map .erase)).isElement address = true ↔
      memory.isElement address = true ∧ ¬memory.Falls roots address := by
  obtain ⟨gone, members, left⟩ := sound.after_erase roots
  rw [left, isElement_without, members]

theorem Falls.isElement {roots : List Address} {address : Address}
    (falls : memory.Falls roots address) : memory.isElement address = true := by
  obtain ⟨root, _, lives, cascade⟩ := falls
  exact cascade.isElement lives

/-- An erasure is answered with no when there was nothing at the start, or when the element went
with one that was erased before. -/
theorem Sound.erasureAnswer_eq_false_iff (sound : memory.Sound) {earlier later : List Address}
    {root : Address} :
    (memory.erasureAnswers (earlier ++ root :: later))[earlier.length]? = some false ↔
      memory.isElement root = false ∨ memory.Falls earlier root := by
  rw [getElem?_erasureAnswers, Option.some.injEq, ← Bool.not_eq_true, sound.isElement_after_erase,
    not_and_not_right, ← Bool.not_eq_true, imp_iff_not_or]

/-- In a memory that calls lead to, erasing the listed elements one after the other leaves the same
memory in every order: the one at the start without the cascades of the elements that lived.  An
erasure finds nothing to erase when there was nothing at the start, or when the element went with
one that was erased before. -/
theorem Reachable.erasures_commute (reachable : Reachable memory) (roots : List Address) :
    ∃ gone : Finset Address,
      (∀ address, address ∈ gone ↔
        ∃ root ∈ roots, memory.isElement root = true ∧ memory.Cascade root address) ∧
      (memory.without gone).elementCount + gone.card = memory.elementCount ∧
      ∀ order : List Address, order.Perm roots →
        ∃ answers : List Bool,
          (order.mapM erase).Succeeds memory answers (memory.without gone) ∧
          answers.length = order.length ∧
          ∀ (earlier later : List Address) (root : Address), order = earlier ++ root :: later →
            (answers[earlier.length]? = some false ↔
              memory.isElement root = false ∨
                ∃ other ∈ earlier, memory.isElement other = true ∧ memory.Cascade other root) := by
  have sound := reachable.sound
  obtain ⟨gone, members, left⟩ := sound.after_erase roots
  refine ⟨gone, members, elementCount_without fun address isGone =>
    ((members address).mp isGone).isElement, fun order perm => ?_⟩
  have sameLeft : memory.after (order.map .erase) = memory.without gone :=
    (sound.after_erase_congr fun _ => perm.mem_iff).trans left
  refine ⟨memory.erasureAnswers order, sameLeft ▸ memory.succeeds_mapM_erase order,
    memory.length_erasureAnswers order, ?_⟩
  rintro earlier later root rfl
  exact sound.erasureAnswer_eq_false_iff

/-- The link takes everything along that hangs on the edge; erased before it, the edge takes the
rest. -/
theorem erasures_commute_at_loopOnEdge :
    let roots : List Address := [⟨0, 2⟩, ⟨0, 3⟩, ⟨0, 3⟩, ⟨0, 9⟩]
    let order : List Address := [⟨0, 3⟩, ⟨0, 2⟩, ⟨0, 9⟩, ⟨0, 3⟩]
    Reachable loopOnEdge ∧ order.Perm roots ∧
      ∃ left : Memory,
        (roots.mapM erase).Succeeds loopOnEdge [true, false, false, false] left ∧
        (order.mapM erase).Succeeds loopOnEdge [true, true, false, false] left := by
  intro roots order
  have perm : order.Perm roots := by decide
  obtain ⟨gone, _, _, same⟩ := reachable_loopOnEdge.erasures_commute roots
  obtain ⟨answers, first, _, _⟩ := same roots (.refl roots)
  obtain ⟨otherAnswers, second, _, _⟩ := same order perm
  have answers_eq : ((roots.mapM erase).run loopOnEdge).result =
      .ok [true, false, false, false] := by cbv
  have otherAnswers_eq : ((order.mapM erase).run loopOnEdge).result =
      .ok [true, true, false, false] := by cbv
  obtain ⟨_, firstReply⟩ := first
  obtain ⟨_, secondReply⟩ := second
  rw [firstReply] at answers_eq
  rw [secondReply] at otherAnswers_eq
  cases answers_eq
  cases otherAnswers_eq
  exact ⟨reachable_loopOnEdge, perm, _, ⟨_, firstReply⟩, ⟨_, secondReply⟩⟩

end Memory

end SemanticMemory
