import SemanticMemory.Layer.Faulty
import SemanticMemory.Proofs.Departure
import SemanticMemory.Proofs.OrderFreedom

/-!
# Removals that are stopped

Over a layer that makes erasures fail, taking a member out of a set may stop between two of the
arcs.  The arcs that were erased before are the first ones of the list, and nothing is lost but them
and what hung on them.  So the removal can be taken up again: it goes on with the arcs that are left
and ends where it would have ended at once.
-/

namespace SemanticMemory

open TripleStore

variable {σ τ : Type}

namespace Tripwire

variable {wire : Tripwire} {calls : Nat}

/-- How many more calls come through before the first one that fails, if any is to fail. -/
def spare (wire : Tripwire) : Nat :=
  wire.threshold.toNat - 1 - wire.calls.toNat

/-- Whether so many more calls come through. -/
def Admits (wire : Tripwire) (calls : Nat) : Prop :=
  wire.threshold = 0 ∨ calls ≤ wire.spare

theorem not_admits_iff : ¬wire.Admits calls ↔ wire.threshold ≠ 0 ∧ wire.spare < calls := by
  rw [Admits, not_or, Nat.not_le]

/-- As long as calls come through, the count is far from its end. -/
theorem lt_size_of_spare_pos (spared : 0 < wire.spare) : wire.calls.toNat + 2 < UInt64.size := by
  have bound := wire.threshold.toNat_lt_size
  rw [spare] at spared
  omega

theorem toNat_calls_count (bounded : wire.calls.toNat + 1 < UInt64.size) :
    wire.count.calls.toNat = wire.calls.toNat + 1 := by
  rw [count, UInt64.toNat_add]
  exact Nat.mod_eq_of_lt bounded

theorem spare_count (spared : 0 < wire.spare) : wire.count.spare + 1 = wire.spare := by
  have bounded := lt_size_of_spare_pos spared
  rw [spare, toNat_calls_count (by omega)]
  rw [spare] at spared ⊢
  change wire.threshold.toNat - 1 - _ + 1 = _
  omega

theorem threshold_eq_zero_iff : wire.threshold = 0 ↔ wire.threshold.toNat = 0 :=
  UInt64.toNat_inj.symm

theorem threshold_ne_zero_of_spare_pos (spared : 0 < wire.spare) : wire.threshold ≠ 0 := by
  rw [spare] at spared
  rw [ne_eq, threshold_eq_zero_iff]
  omega

/-- The next call trips when its number has come to the threshold. -/
theorem trips_count_iff_le (bounded : wire.calls.toNat + 1 < UInt64.size) :
    wire.count.trips = true ↔
      wire.threshold ≠ 0 ∧ wire.threshold.toNat ≤ wire.calls.toNat + 1 := by
  rw [trips, Bool.and_eq_true, decide_eq_true_iff, decide_eq_true_iff, UInt64.le_iff_toNat_le,
    toNat_calls_count bounded]
  rfl

theorem trips_count_iff (armed : wire.threshold ≠ 0)
    (bounded : wire.calls.toNat + 1 < UInt64.size) :
    wire.count.trips = true ↔ wire.spare = 0 := by
  have positive : wire.threshold.toNat ≠ 0 := mt threshold_eq_zero_iff.mpr armed
  rw [trips_count_iff_le bounded, and_iff_right armed, spare]
  omega

theorem trips_count_of_spare_pos (spared : 0 < wire.spare) : wire.count.trips = false := by
  have bounded := lt_size_of_spare_pos spared
  rw [← Bool.not_eq_true,
    trips_count_iff (threshold_ne_zero_of_spare_pos spared) (by omega)]
  omega

/-- The next call comes through, and the others after it. -/
theorem Admits.count (admits : wire.Admits (calls + 1)) :
    wire.count.trips = false ∧ wire.count.Admits calls := by
  rcases admits with disarmed | enough
  · refine ⟨?_, .inl disarmed⟩
    rw [trips, Tripwire.count, disarmed]
    rfl
  · have spared : 0 < wire.spare := by omega
    have counted := spare_count spared
    exact ⟨trips_count_of_spare_pos spared, .inr (by omega)⟩

end Tripwire

namespace Faulty

variable [TripleStore τ] {calls : Nat} {layer : Faulty τ} {store : τ}

theorem run_erase (layer : Faulty τ) (address : Address) :
    (TripleStore.erase address).run layer =
      if layer.eraseWire.count.trips then
        ⟨.error (.injected .erase), { layer with eraseWire := layer.eraseWire.count }, []⟩
      else
        (within (TripleStore.erase address)).run
          { layer with eraseWire := layer.eraseWire.count } :=
  rfl

theorem run_erase_of_spare_pos {layer : Faulty Memory} (spared : 0 < layer.eraseWire.spare)
    (address : Address) :
    ∃ events, (TripleStore.erase address).run layer =
      ⟨.ok (layer.inner.isElement address),
        { layer with
          inner := Call.apply layer.inner (.erase address)
          eraseWire := layer.eraseWire.count }, events⟩ := by
  rw [run_erase, Tripwire.trips_count_of_spare_pos spared, ← layer.inner.result_erase address]
  exact ⟨_, rfl⟩

/-- The layer stands over the store and lets so many erasures through. -/
structure Affords (calls : Nat) (layer : Faulty τ) (store : τ) : Prop where
  inner_eq : layer.inner = store
  admits : layer.eraseWire.Admits calls

theorem Affords.erase (affords : Affords (calls + 1) layer store) (address : Address) :
    ((TripleStore.erase address).run layer).Like (Affords calls)
      ((TripleStore.erase address).run store) := by
  obtain ⟨rfl, admits⟩ := affords
  obtain ⟨silent, admitsRest⟩ := admits.count
  rw [run_erase, silent]
  exact ⟨rfl, rfl, rfl, admitsRest⟩

/-- A layer that lets all of the erasures through is not noticed. -/
theorem Affords.eraseEdges {triples : List Triple} (affords : Affords triples.length layer store) :
    ((Membership.eraseEdges triples).run layer).Like (fun layer store => layer.inner = store)
      ((Membership.eraseEdges triples).run store) := by
  induction triples generalizing layer store with
  | nil => exact ⟨rfl, rfl, affords.inner_eq⟩
  | cons triple triples ih =>
      exact ((affords.erase triple.edge).mapError _).bind (fun _ _ => Affords.inner_eq)
        fun erased _ _ reached => (ih reached).bind (fun _ _ => id)
          fun others _ _ left => ⟨rfl, rfl, left⟩

/-- A layer that does not let all of the erasures through stops them after those that it lets
through. -/
theorem run_eraseEdges_of_not_admits {layer : Faulty Memory} {triples : List Triple}
    (bounded : layer.eraseWire.calls.toNat + 1 < UInt64.size)
    (refuses : ¬layer.eraseWire.Admits triples.length) :
    ∃ (left : Faulty Memory) (events : List Event),
      (Membership.eraseEdges triples).run layer =
        ⟨.error (.store (.injected .erase)), left, events⟩ ∧
      left.inner =
        layer.inner.after (Memory.erasures (triples.take layer.eraseWire.spare)) := by
  obtain ⟨armed, short⟩ := Tripwire.not_admits_iff.mp refuses
  clear refuses
  induction triples generalizing layer with
  | nil => contradiction
  | cons triple triples ih =>
      rw [Membership.eraseEdges]
      cases spent : layer.eraseWire.spare with
      | zero =>
          have stopped := run_erase layer triple.edge
          rw [if_pos ((Tripwire.trips_count_iff armed bounded).mpr spent)] at stopped
          exact ⟨_, _, Action.run_bind_of_error (run_change stopped) _, rfl⟩
      | succ rest =>
          have spared : 0 < layer.eraseWire.spare := by omega
          have counted := Tripwire.spare_count spared
          have bounded := Tripwire.lt_size_of_spare_pos spared
          have rest_eq : layer.eraseWire.count.spare = rest := by omega
          have boundedRest : layer.eraseWire.count.calls.toNat + 1 < UInt64.size := by
            rw [Tripwire.toNat_calls_count] <;> omega
          have shortRest : layer.eraseWire.count.spare < triples.length := by
            rw [List.length_cons] at short
            omega
          obtain ⟨earlier, erased⟩ := run_erase_of_spare_pos spared triple.edge
          obtain ⟨left, later, stopped, left_eq⟩ :=
            @ih { layer with
              inner := Call.apply layer.inner (.erase triple.edge)
              eraseWire := layer.eraseWire.count } boundedRest armed shortRest
          refine ⟨left, earlier ++ later, ?_, ?_⟩
          · rw [Action.run_bind_of_ok (run_change erased), Action.run_bind_of_error stopped]
          · rw [left_eq, rest_eq]
            rfl

end Faulty

/-- A way to put a layer over a store: erasures are passed on, and the edges that answer a pattern
are listed in an order of the layer's own. -/
structure Arranges [TripleStore σ] [TripleStore τ] (above : τ → σ)
    (arrange : List Triple → List Triple) : Prop where
  perm (triples : List Triple) : (arrange triples).Perm triples
  filter_eq (keep : Triple → Bool) (triples : List Triple) :
    (arrange triples).filter keep = arrange (triples.filter keep)
  matching_eq {store : τ} {pattern : Pattern} {triples : List Triple}
    (answered : matching store pattern = .ok triples) :
    matching (above store) pattern = .ok (arrange triples)
  run_eraseEdges {triples : List Triple} {store : τ} {reply : Reply τ Failure Bool}
    (erased : (Membership.eraseEdges triples).run store = reply) :
    (Membership.eraseEdges triples).run (above store) =
      ⟨reply.result, above reply.state, reply.events⟩

theorem arranges_id [TripleStore τ] : Arranges (id : τ → τ) id where
  perm := .refl
  filter_eq _ _ := rfl
  matching_eq := id
  run_eraseEdges := id

theorem Reversed.arranges_mk [TripleStore τ] :
    Arranges (Reversed.mk : τ → Reversed τ) List.reverse where
  perm := List.reverse_perm
  filter_eq _ _ := List.filter_reverse
  matching_eq answered := by
    rw [Reversed.matching_eq, answered]
    rfl
  run_eraseEdges := Reversed.run_eraseEdges

namespace Memory

variable {memory : Memory} {set element : Address}

theorem filter_take_eq_drop {triples : List Triple} (distinct : (triples.map Triple.edge).Nodup)
    (count : Nat) :
    triples.filter (fun triple => triple.edge ∉ (triples.take count).map Triple.edge) =
      triples.drop count := by
  have split := List.take_append_drop count triples
  rw [← split, List.map_append] at distinct
  obtain ⟨_, _, apart⟩ := List.nodup_append.mp distinct
  generalize triples.take count = earlier at split apart
  generalize triples.drop count = later at split apart
  rw [← split, List.filter_append, List.filter_eq_nil_iff.mpr, List.filter_eq_self.mpr,
    List.nil_append]
  · intro triple listed
    refine decide_eq_true fun isEarlier => ?_
    exact apart _ isEarlier _ (List.mem_map_of_mem listed) rfl
  · intro triple listed
    simpa using ⟨triple, listed, rfl⟩

/-- Once some of the arcs are erased the memory lists the others. -/
theorem Sound.scan_arcs_after (sound : memory.Sound) {erased : List Triple}
    (areArcs : ∀ arc ∈ erased.map Triple.edge, memory.IsMemberArc arc set element) :
    (memory.after (erasures erased)).scan (Membership.arcs set element) =
      (memory.scan (Membership.arcs set element)).filter fun triple =>
        triple.edge ∉ erased.map Triple.edge := by
  have linked := sound.linked
  obtain ⟨gone, members, left⟩ := sound.after_erase (erased.map Triple.edge)
  rw [erasures_eq, left, scan_without (closedUpwards_of_falls members)]
  refine List.filter_congr fun triple listed => ?_
  have isArc := linked.mem_edges_scan_arcs_iff.mp (List.mem_map_of_mem listed)
  rw [decide_eq_decide, members, falls_arcs_iff linked areArcs isArc]

theorem after_take_drop (memory : Memory) (triples : List Triple) (count : Nat) :
    (memory.after (erasures (triples.take count))).after (erasures (triples.drop count)) =
      memory.after (erasures triples) := by
  rw [← after_append, erasures, erasures, ← List.map_append, List.take_append_drop, erasures]

/-- The set and the member outlive the arcs between them. -/
theorem Sound.ends_after (sound : memory.Sound) {arc : Address} {erased : List Triple}
    (isArc : memory.IsMemberArc arc set element)
    (areArcs : ∀ arc ∈ erased.map Triple.edge, memory.IsMemberArc arc set element) :
    (memory.after (erasures erased)).isElement set = true ∧
      (memory.after (erasures erased)).isElement element = true := by
  obtain ⟨setLives, elementLives⟩ := sound.linked.ends_isElement isArc.1
  obtain ⟨setStays, elementStays⟩ := not_falls_arcs sound.linked areArcs
  rw [erasures_eq, sound.isElement_after_erase, sound.isElement_after_erase]
  exact ⟨⟨setLives, setStays⟩, elementLives, elementStays⟩

section Arranges

variable [TripleStore σ] [TripleStore τ] {above : Faulty Memory → σ} {bare : Memory → τ}
  {arrange : List Triple → List Triple} {layer : Faulty Memory} {triples : List Triple}

section Listing

variable (shown : Arranges above arrange)
  (triples_eq : arrange (memory.scan (Membership.arcs set element)) = triples)

include shown triples_eq

theorem perm_scan_arcs : triples.Perm (memory.scan (Membership.arcs set element)) :=
  triples_eq ▸ shown.perm _

theorem Linked.mem_edges_arranged_iff (linked : memory.Linked) {arc : Address} :
    arc ∈ triples.map Triple.edge ↔ memory.IsMemberArc arc set element :=
  ((perm_scan_arcs shown triples_eq).map _).mem_iff.trans linked.mem_edges_scan_arcs_iff

theorem nodup_edges_arranged : (triples.map Triple.edge).Nodup :=
  ((perm_scan_arcs shown triples_eq).map _).nodup_iff.mpr (memory.nodup_edges_scan _)

theorem Linked.isMemberArc_of_mem_take (linked : memory.Linked) {count : Nat} {arc : Address}
    (listed : arc ∈ (triples.take count).map Triple.edge) : memory.IsMemberArc arc set element := by
  rw [List.map_take] at listed
  exact (linked.mem_edges_arranged_iff shown triples_eq).mp (List.mem_of_mem_take listed)

/-- Once the first arcs are erased the others are listed, in the order in which they were. -/
theorem Sound.arranged_after (sound : memory.Sound) (count : Nat) :
    arrange ((memory.after (erasures (triples.take count))).scan (Membership.arcs set element)) =
      triples.drop count := by
  rw [sound.scan_arcs_after fun _ => sound.linked.isMemberArc_of_mem_take shown triples_eq,
    ← shown.filter_eq, triples_eq,
    filter_take_eq_drop (nodup_edges_arranged shown triples_eq)]

end Listing

theorem Linked.matching_above (shown : Arranges above arrange) (linked : layer.inner.Linked)
    (triples_eq : arrange (layer.inner.scan (Membership.arcs set element)) = triples) :
    TripleStore.matching (above layer) (Membership.arcs set element) = .ok triples := by
  have answered : TripleStore.matching layer (Membership.arcs set element) =
      .ok (layer.inner.scan (Membership.arcs set element)) := linked.matching_eq_scan _
  rw [shown.matching_eq answered, triples_eq]

/-- A layer that lets all of the erasures through changes nothing about a removal. -/
theorem Sound.removal_passes (layer : Faulty Memory) (shown : Arranges above arrange)
    (shownBare : Arranges bare arrange) (sound : layer.inner.Sound)
    (triples_eq : arrange (layer.inner.scan (Membership.arcs set element)) = triples)
    (admits : layer.eraseWire.Admits triples.length) :
    ∃ (left : Faulty Memory) (events : List Event),
      (Membership.remove set element).run (above layer) =
        ⟨.ok (decide (0 < triples.length)), above left, events⟩ ∧
      (Membership.remove set element).run (bare layer.inner) =
        ⟨.ok (decide (0 < triples.length)), bare left.inner, events⟩ ∧
      left.inner = layer.inner.after (erasures triples) := by
  have linked := sound.linked
  have answered := linked.matching_above shown triples_eq
  have answeredBare := shownBare.matching_eq (linked.matching_eq_scan (Membership.arcs set element))
  rw [triples_eq] at answeredBare
  have live : ∀ triple ∈ triples, layer.inner.isElement triple.edge = true := by
    intro triple listed
    exact isElement_of_mem_scan ((perm_scan_arcs shown triples_eq).mem_iff.mp listed)
  have some_eq : (!triples.isEmpty) = decide (0 < triples.length) := by
    cases triples <;> rfl
  obtain ⟨events, erased⟩ := layer.inner.succeeds_eraseEdges triples
  rw [any_erasureAnswers live, some_eq] at erased
  have affords : Faulty.Affords triples.length layer layer.inner := ⟨rfl, admits⟩
  obtain ⟨left, erasedAbove, left_eq⟩ := (erased ▸ affords.eraseEdges).exists_eq
  rw [Membership.run_remove answered, shown.run_eraseEdges erasedAbove,
    Membership.run_remove answeredBare, shownBare.run_eraseEdges erased]
  exact ⟨left, _, rfl, left_eq ▸ rfl, left_eq⟩

/-- A removal that stopped is taken up where it stopped, and it ends where it would have ended at
once. -/
theorem Reachable.removal_taken_up (shown : Arranges above arrange)
    (shownBare : Arranges bare arrange) {left : Faulty Memory} (reachable : Reachable layer.inner)
    (triples_eq : arrange (layer.inner.scan (Membership.arcs set element)) = triples)
    {count : Nat} (short : count < triples.length)
    (left_eq : left.inner = layer.inner.after (erasures (triples.take count))) :
    ∃ finished : Faulty Memory,
      (Membership.remove set element).Succeeds (above left.mend) true (above finished) ∧
      (Membership.remove set element).Succeeds (bare layer.inner) true (bare finished.inner) := by
  have leftReachable : Reachable left.inner := left_eq ▸ reachable.after _
  have leftListed : arrange (left.inner.scan (Membership.arcs set element)) = triples.drop count :=
    left_eq ▸ reachable.sound.arranged_after shown triples_eq count
  have someLeft : 0 < (triples.drop count).length := by
    rw [List.length_drop]
    omega
  -- Mended, the layer lets everything through, at the start as well as where it stopped.
  obtain ⟨finished, _, again, _, finished_eq⟩ :=
    leftReachable.sound.removal_passes left.mend shown shownBare leftListed (.inl rfl)
  obtain ⟨whole, _, _, atOnce, whole_eq⟩ :=
    reachable.sound.removal_passes layer.mend shown shownBare triples_eq (.inl rfl)
  have sameEnd : finished.inner = whole.inner := by
    calc
      finished.inner = left.inner.after (erasures (triples.drop count)) := finished_eq
      _ = layer.inner.after (erasures triples) := by rw [left_eq, after_take_drop]
      _ = whole.inner := whole_eq.symm
  rw [decide_eq_true someLeft] at again
  rw [decide_eq_true (Nat.zero_lt_of_lt short), ← sameEnd] at atOnce
  exact ⟨finished, ⟨_, again⟩, ⟨_, atOnce⟩⟩

/-- How a removal goes over a layer that makes erasures fail, if the arcs are listed in this order.
The stores with the layer are compared with the stores without it. -/
structure Resumable (above : Faulty Memory → σ) (bare : Memory → τ) (layer : Faulty Memory)
    (set element : Address) (triples : List Triple) : Prop where
  listed : TripleStore.matching (above layer) (Membership.arcs set element) = .ok triples
  distinct : (triples.map Triple.edge).Nodup
  isArc_iff (arc : Address) :
    arc ∈ triples.map Triple.edge ↔ layer.inner.IsMemberArc arc set element
  /-- When the layer lets the erasures of all arcs through, it is not noticed. -/
  passes : layer.eraseWire.Admits triples.length →
    ∃ (left : Faulty Memory) (events : List Event),
      (Membership.remove set element).run (above layer) =
        ⟨.ok (decide (0 < triples.length)), above left, events⟩ ∧
      (Membership.remove set element).run (bare layer.inner) =
        ⟨.ok (decide (0 < triples.length)), bare left.inner, events⟩
  /-- Otherwise the first arcs are erased and the others are left, and after the layer is mended a
  second removal ends where a single one would have ended. -/
  resumes : ¬layer.eraseWire.Admits triples.length →
    ∃ (left finished : Faulty Memory) (events : List Event),
      (Membership.remove set element).run (above layer) =
        ⟨.error (.store (.injected .erase)), above left, events⟩ ∧
      left.inner = layer.inner.after (erasures (triples.take layer.eraseWire.spare)) ∧
      Reachable left.inner ∧ left.inner.Sound ∧
      TripleStore.matching (above left) (Membership.arcs set element) =
        .ok (triples.drop layer.eraseWire.spare) ∧
      (∀ triple ∈ triples.drop layer.eraseWire.spare,
        left.inner.isElement triple.edge = true) ∧
      left.inner.isElement set = true ∧ left.inner.isElement element = true ∧
      (Membership.remove set element).Succeeds (above left.mend) true (above finished) ∧
      (Membership.remove set element).Succeeds (bare layer.inner) true (bare finished.inner)

theorem Reachable.resumable (shown : Arranges above arrange) (shownBare : Arranges bare arrange)
    (reachable : Reachable layer.inner)
    (bounded : layer.eraseWire.calls.toNat + 1 < UInt64.size) (set element : Address) :
    Resumable above bare layer set element
      (arrange (layer.inner.scan (Membership.arcs set element))) := by
  have sound := reachable.sound
  have linked := sound.linked
  generalize triples_eq : arrange (layer.inner.scan (Membership.arcs set element)) = triples
  have listed := linked.matching_above shown triples_eq
  have isArc_iff (arc : Address) : arc ∈ triples.map Triple.edge ↔
      layer.inner.IsMemberArc arc set element :=
    linked.mem_edges_arranged_iff shown triples_eq
  refine ⟨listed, nodup_edges_arranged shown triples_eq, isArc_iff, fun admits => ?_,
    fun refuses => ?_⟩
  · obtain ⟨left, events, removed, removedBare, _⟩ :=
      sound.removal_passes layer shown shownBare triples_eq admits
    exact ⟨left, events, removed, removedBare⟩
  · obtain ⟨_, short⟩ := Tripwire.not_admits_iff.mp refuses
    obtain ⟨left, events, erased, left_eq⟩ := Faulty.run_eraseEdges_of_not_admits bounded refuses
    have stopped : (Membership.remove set element).run (above layer) =
        ⟨.error (.store (.injected .erase)), above left, events⟩ := by
      rw [Membership.run_remove listed, shown.run_eraseEdges erased]
    obtain ⟨finished, again, atOnce⟩ :=
      reachable.removal_taken_up shown shownBare triples_eq short left_eq
    have leftReachable : Reachable left.inner := left_eq ▸ reachable.after _
    have leftSound := leftReachable.sound
    have leftListed := sound.arranged_after shown triples_eq layer.eraseWire.spare
    rw [← left_eq] at leftListed
    have live : ∀ triple ∈ triples.drop layer.eraseWire.spare,
        left.inner.isElement triple.edge = true := by
      intro triple isLeft
      exact isElement_of_mem_scan ((perm_scan_arcs shown leftListed).mem_iff.mp isLeft)
    obtain ⟨first, isFirst⟩ := List.exists_mem_of_length_pos (Nat.zero_lt_of_lt short)
    obtain ⟨setStays, elementStays⟩ :=
      sound.ends_after ((isArc_iff _).mp (List.mem_map_of_mem isFirst))
        fun _ => linked.isMemberArc_of_mem_take shown triples_eq
    exact ⟨left, finished, events, stopped, left_eq, leftReachable, leftSound,
      leftSound.linked.matching_above shown leftListed, live, left_eq ▸ setStays,
      left_eq ▸ elementStays, again, atOnce⟩

end Arranges

/-- In a memory that calls lead to, a removal over a layer that makes erasures fail is either not
disturbed, or it stops with a prefix of its arcs erased and can be taken up again.  Over a layer
that reverses answers it is the same, with the arcs in reverse. -/
theorem Reachable.removal_resumes {layer : Faulty Memory} (reachable : Reachable layer.inner)
    (bounded : layer.eraseWire.calls.toNat + 1 < UInt64.size) (set element : Address) :
    ∃ triples : List Triple,
      Resumable id id layer set element triples ∧
      Resumable Reversed.mk Reversed.mk layer set element triples.reverse ∧
      (StoreError.injected .erase).message = "I/O error: Injected erase_element failure" :=
  ⟨_, reachable.resumable arranges_id arranges_id bounded set element,
    reachable.resumable Reversed.arranges_mk Reversed.arranges_mk bounded set element, by decide⟩

/-- After one erasure that came before, the third one is to fail.  So one of the two arcs goes, the
older one or, over a layer that reverses answers, the younger one. -/
theorem removal_resumes_at_edgeWithMember :
    let layer : Faulty Memory := ⟨edgeWithMember, .idle, ⟨3, 1⟩⟩
    Reachable layer.inner ∧ layer.eraseWire.calls.toNat + 1 < UInt64.size ∧
      ∃ (left finished : Faulty Memory) (events : List Event) (leftReversed : Faulty Memory)
          (eventsReversed : List Event),
        (Membership.remove ⟨0, 3⟩ ⟨0, 1⟩).run layer =
          ⟨.error (.store (.injected .erase)), left, events⟩ ∧
        left.inner.matching (Membership.arcs ⟨0, 3⟩ ⟨0, 1⟩) = .ok [⟨⟨0, 3⟩, ⟨1, 1⟩, ⟨0, 1⟩⟩] ∧
        (Membership.remove ⟨0, 3⟩ ⟨0, 1⟩).Succeeds left.mend true finished ∧
        (Membership.remove ⟨0, 3⟩ ⟨0, 1⟩).Succeeds edgeWithMember true finished.inner ∧
        (Membership.remove ⟨0, 3⟩ ⟨0, 1⟩).run (Reversed.mk layer) =
          ⟨.error (.store (.injected .erase)), ⟨leftReversed⟩, eventsReversed⟩ ∧
        leftReversed.inner.isElement ⟨0, 4⟩ = true := by
  intro layer
  have reachable : Reachable layer.inner := reachable_edgeWithMember
  have bounded : layer.eraseWire.calls.toNat + 1 < UInt64.size := by decide
  have answered : TripleStore.matching (id layer) (Membership.arcs ⟨0, 3⟩ ⟨0, 1⟩) =
      .ok [⟨⟨0, 3⟩, ⟨0, 4⟩, ⟨0, 1⟩⟩, ⟨⟨0, 3⟩, ⟨1, 1⟩, ⟨0, 1⟩⟩] := by decide
  have refuses : ¬layer.eraseWire.Admits 2 := Tripwire.not_admits_iff.mpr (by decide)
  obtain ⟨triples, plain, reversed, _⟩ := reachable.removal_resumes bounded ⟨0, 3⟩ ⟨0, 1⟩
  obtain rfl := Except.ok.inj (plain.listed.symm.trans answered)
  obtain ⟨left, finished, events, stopped, _, _, _, arcsLeft, _, _, _, again, atOnce⟩ :=
    plain.resumes refuses
  obtain ⟨leftReversed, _, eventsReversed, stoppedReversed, _, _, _, _, live, _⟩ :=
    reversed.resumes refuses
  exact ⟨reachable, bounded, left, finished, events, leftReversed, eventsReversed, stopped,
    arcsLeft, again, atOnce, stoppedReversed, live _ List.mem_cons_self⟩

end Memory

end SemanticMemory
