import SemanticMemory.Proofs.Answers
import SemanticMemory.Proofs.Permanence
import SemanticMemory.Proofs.Writing

/-!
# What is written about a neighborhood

In a memory that calls lead to, no question that comes up while a neighborhood is written has an
error for an answer.  So the whole text is fixed before the first byte goes out: it has a line for
every edge at the element, in the order of the edges.  A sink with too little room gets the first
bytes of that text.
-/

namespace SemanticMemory

namespace Neighborhood

section Writes

variable {σ : Type} [TripleStore σ] {store : σ} {address : Address} {side : Side}
  {triples : List Triple} {line : Triple → String}

theorem writes_writeEdges
    (spelled : ∀ triple ∈ triples, edgeLine store side triple = .ok (line triple)) :
    Sink.Writes (writeEdges store side triples) (String.join (triples.map line)) (.ok ()) := by
  have asPieces : writeEdges store side triples = forM (triples.map line) Sink.write := by
    induction triples with
    | nil => rfl
    | cons triple triples ih =>
        rw [List.forall_mem_cons] at spelled
        rw [writeEdges, spelled.1, List.map_cons, List.forM_cons, ih spelled.2]
        rfl
  rw [asPieces]
  exact Sink.writes_forM _

/-- The heading of a side, its lines, and their number. -/
def Side.listing (side : Side) (lines : List String) : String :=
  side.heading ++ String.join lines ++ side.total lines.length

theorem writes_writeSide
    (matched : TripleStore.matching store (side.pattern address) = .ok triples)
    (spelled : ∀ triple ∈ triples, edgeLine store side triple = .ok (line triple)) :
    Sink.Writes (writeSide store address side) (side.listing (triples.map line))
      (.ok triples.length) := by
  have answered : (TripleStore.matching store (side.pattern address)).mapError .store =
      (.ok triples : Except Failure (List Triple)) := by
    rw [matched]
    rfl
  have inPieces : side.listing (triples.map line) =
      side.heading ++ ("" ++ (String.join (triples.map line) ++
        (side.total triples.length ++ ""))) := by
    simp only [Side.listing, List.length_map, String.empty_append, String.append_empty,
      String.append_assoc]
  rw [writeSide, answered, inPieces]
  exact (Sink.writes_write _).bind ((Sink.writes_ofExcept _).bind
    ((writes_writeEdges spelled).bind ((Sink.writes_write _).bind (Sink.writes_pure _))))

/-- The text of an element and the listings of its two sides. -/
def page (text : String) (incoming outgoing : List String) : String :=
  text ++ "\n" ++ Side.incoming.listing incoming ++ Side.outgoing.listing outgoing

theorem page_eq (text : String) (incoming outgoing : List String) :
    page text incoming outgoing =
      text ++ "\n" ++
        ("Input arcs:\n" ++ String.join incoming ++
          ("Total input arcs: " ++ toString incoming.length ++ "\n")) ++
        ("Output arcs:\n" ++ String.join outgoing ++
          ("Total output arcs: " ++ toString outgoing.length ++ "\n")) :=
  rfl

/-- The first heading alone has twelve bytes. -/
theorem size_page (text : String) (incoming outgoing : List String) :
    12 ≤ (page text incoming outgoing).toUTF8.size := by
  have heading : "Input arcs:\n".utf8ByteSize = 12 := rfl
  rw [page_eq, String.toUTF8_eq_toByteArray, String.size_toByteArray]
  simp only [String.utf8ByteSize_append, heading]
  omega

theorem writes_write {text : String} (triplesOn : Side → List Triple)
    {line : Side → Triple → String} (lives : TripleStore.isElement store address = true)
    (titled : Rendering.elementText store address = .ok text)
    (matched : ∀ side : Side,
      TripleStore.matching store (side.pattern address) = .ok (triplesOn side))
    (spelled : ∀ side, ∀ triple ∈ triplesOn side,
      edgeLine store side triple = .ok (line side triple)) :
    Sink.Writes (write store address)
      (page text ((triplesOn .incoming).map (line .incoming))
        ((triplesOn .outgoing).map (line .outgoing)))
      (.ok ⟨(triplesOn .incoming).length, (triplesOn .outgoing).length⟩) := by
  have inPieces (incoming outgoing : List String) : page text incoming outgoing =
      "" ++ ((text ++ "\n") ++ (Side.incoming.listing incoming ++
        (Side.outgoing.listing outgoing ++ ""))) := by
    simp only [page, String.empty_append, String.append_empty, String.append_assoc]
  rw [write, if_pos lives, titled, inPieces]
  exact (Sink.writes_ofExcept _).bind ((Sink.writes_write _).bind
    ((writes_writeSide (matched .incoming) (spelled .incoming)).bind
      ((writes_writeSide (matched .outgoing) (spelled .outgoing)).bind (Sink.writes_pure _))))

end Writes

/-- The end of an edge that lies at the element. -/
def Side.nearEnd : Side → Address × Address → Address
  | incoming => Prod.snd
  | outgoing => Prod.fst

end Neighborhood

namespace Memory

open Neighborhood Rendering

variable {memory : Memory} {address : Address} {side : Side} {triple : Triple}

/-- The triples on a side of an element are those of the edges with that end. -/
theorem Linked.mem_scan_pattern_iff (linked : memory.Linked) (side : Side) :
    triple ∈ memory.scan (side.pattern address) ↔
      memory.Joins triple.edge triple.source triple.target ∧
        side.nearEnd (triple.source, triple.target) = address := by
  rw [mem_scan_iff_joins]
  have typed : memory.Joins triple.edge triple.source triple.target →
      ∃ type, memory.typeAt? triple.edge = some type ∧ type.carries .any = true := by
    rintro ⟨element, found, _⟩
    exact ⟨_, typeAt?_eq_some_iff.mpr ⟨element, found, rfl⟩, ElementType.carries_any _⟩
  cases side with
  | incoming =>
      simp only [Side.pattern, Pattern.incoming, Side.nearEnd, fits_any_iff, fits_fixed_iff]
      constructor
      · rintro ⟨joins, _, _, same, _⟩
        exact ⟨joins, same.symm⟩
      · rintro ⟨joins, rfl⟩
        have lives := linked.ends_isElement joins
        exact ⟨joins, typed joins, lives.1, rfl, lives.2⟩
  | outgoing =>
      simp only [Side.pattern, Pattern.outgoing, Side.nearEnd, fits_any_iff, fits_fixed_iff]
      constructor
      · rintro ⟨joins, _, ⟨same, _⟩, _⟩
        exact ⟨joins, same.symm⟩
      · rintro ⟨joins, rfl⟩
        have lives := linked.ends_isElement joins
        exact ⟨joins, typed joins, ⟨rfl, lives.1⟩, lives.2⟩

theorem Linked.mem_edges_scan_pattern_iff (linked : memory.Linked) {edge : Address} :
    edge ∈ (memory.scan (side.pattern address)).map Triple.edge ↔
      ∃ source target, memory.Joins edge source target ∧
        side.nearEnd (source, target) = address := by
  rw [List.mem_map]
  constructor
  · rintro ⟨triple, member, rfl⟩
    exact ⟨_, _, (linked.mem_scan_pattern_iff side).mp member⟩
  · rintro ⟨source, target, found⟩
    exact ⟨⟨source, edge, target⟩, (linked.mem_scan_pattern_iff side).mpr found, rfl⟩

/-- The line about an edge is drawn for its type and ends with the text of its other end. -/
def IsLine (memory : Memory) (edge other : Address) (single double line : String) : Prop :=
  ∃ type text, memory.elementType edge = .ok type ∧ elementText memory other = .ok text ∧
    line = "\t" ++ edge.text ++ " " ++ (if type.has .accessArc then single else double) ++ " " ++
      text ++ "\n"

/-- There is no choice in how a line is drawn. -/
theorem IsLine.line_eq {edge other : Address} {single double line text : String}
    {type : ElementType} (drawn : memory.IsLine edge other single double line)
    (typed : memory.elementType edge = .ok type) (spelled : elementText memory other = .ok text) :
    line = "\t" ++ edge.text ++ " " ++ (if type.has .accessArc then single else double) ++ " " ++
      text ++ "\n" := by
  obtain ⟨drawnType, drawnText, drawnTyped, drawnSpelled, line_eq⟩ := drawn
  obtain rfl : drawnType = type := Except.ok.inj (drawnTyped.symm.trans typed)
  obtain rfl : drawnText = text := Except.ok.inj (drawnSpelled.symm.trans spelled)
  exact line_eq

/-- The line about an edge can be had, since its other end lives. -/
theorem Sound.exists_isLine (sound : memory.Sound)
    (joins : memory.Joins triple.edge triple.source triple.target) (side : Side) :
    ∃ line, edgeLine memory side triple = .ok line ∧
      memory.IsLine triple.edge (side.otherEnd triple) (side.glyph true) (side.glyph false)
        line := by
  obtain ⟨sourceLives, targetLives⟩ := sound.linked.ends_isElement joins
  obtain ⟨element, found, _⟩ := joins
  have typed : memory.elementType triple.edge = .ok element.type :=
    elementType_eq_ok_iff.mpr ⟨element, found, rfl⟩
  have otherLives : memory.isElement (side.otherEnd triple) = true := by
    cases side with
    | incoming => exact sourceLives
    | outgoing => exact targetLives
  obtain ⟨text, spelled⟩ := sound.exists_elementText otherLives
  refine ⟨side.line triple.edge element.type.isAccessArc text, ?_, element.type, text, typed,
    spelled, ?_⟩
  · have asked : TripleStore.elementType memory triple.edge = .ok element.type := typed
    rw [edgeLine, asked, spelled]
    rfl
  · rw [Side.line, ElementType.isAccessArc]
    cases element.type.has .accessArc <;> rfl

/-- Whatever the address, the lines for one side of it can be had. -/
theorem Sound.exists_line (sound : memory.Sound) (address : Address) :
    ∃ line : Side → Triple → String, ∀ side,
      ∀ triple ∈ memory.scan (side.pattern address),
        edgeLine memory side triple = .ok (line side triple) ∧
          memory.IsLine triple.edge (side.otherEnd triple) (side.glyph true) (side.glyph false)
            (line side triple) := by
  have each (side : Side) (triple : Triple) : ∃ line,
      triple ∈ memory.scan (side.pattern address) →
        edgeLine memory side triple = .ok line ∧
          memory.IsLine triple.edge (side.otherEnd triple) (side.glyph true) (side.glyph false)
            line := by
    by_cases member : triple ∈ memory.scan (side.pattern address)
    · obtain ⟨line, drawn⟩ :=
        sound.exists_isLine ((sound.linked.mem_scan_pattern_iff side).mp member).1 side
      exact ⟨line, fun _ => drawn⟩
    · exact ⟨"", fun listed => absurd listed member⟩
  choose line drawn using each
  exact ⟨line, drawn⟩

/-- What is written about an element that lives, and that no question on the way fails. -/
theorem Sound.exists_writes_write (sound : memory.Sound)
    (lives : memory.isElement address = true) :
    ∃ (text : String) (line : Side → Triple → String),
      elementText memory address = .ok text ∧
      (∀ side, ∀ triple ∈ memory.scan (side.pattern address),
        memory.IsLine triple.edge (side.otherEnd triple) (side.glyph true) (side.glyph false)
          (line side triple)) ∧
      Sink.Writes (write memory address)
        (page text ((memory.scan (Side.incoming.pattern address)).map (line .incoming))
          ((memory.scan (Side.outgoing.pattern address)).map (line .outgoing)))
        (.ok ⟨(memory.scan (Side.incoming.pattern address)).length,
          (memory.scan (Side.outgoing.pattern address)).length⟩) := by
  obtain ⟨text, titled⟩ := sound.exists_elementText lives
  obtain ⟨line, drawn⟩ := sound.exists_line address
  exact ⟨text, line, titled, fun side triple member => (drawn side triple member).2,
    writes_write (fun side => memory.scan (side.pattern address)) lives titled
      (fun side => sound.linked.matching_eq_scan (side.pattern address))
      fun side triple member => (drawn side triple member).1⟩

/-- In a memory that calls lead to, the neighborhood of an element is written in full into a sink
without a limit: the text of the element, and for each side a line for every edge, in the order of
the edges, and their number.  Nothing is written about an address without an element. -/
theorem Reachable.neighborhood_written (reachable : Reachable memory) (address : Address) :
    (memory.isElement address = true →
      ∃ text incoming inLines outgoing outLines,
        elementText memory address = .ok text ∧
        (incoming.Pairwise (· < ·) ∧
          ∀ edge, edge ∈ incoming ↔ ∃ source, memory.Joins edge source address) ∧
        List.Forall₂ (fun edge line => ∃ source, memory.Joins edge source address ∧
          memory.IsLine edge source "<-" "<=" line) incoming inLines ∧
        (outgoing.Pairwise (· < ·) ∧
          ∀ edge, edge ∈ outgoing ↔ ∃ target, memory.Joins edge address target) ∧
        List.Forall₂ (fun edge line => ∃ target, memory.Joins edge address target ∧
          memory.IsLine edge target "->" "=>" line) outgoing outLines ∧
        ∀ held, (write memory address).run ⟨none, held⟩ =
          ⟨.ok ⟨incoming.length, outgoing.length⟩, ⟨none, held ++
            (text ++ "\n" ++
              ("Input arcs:\n" ++ String.join inLines ++
                ("Total input arcs: " ++ toString incoming.length ++ "\n")) ++
              ("Output arcs:\n" ++ String.join outLines ++
                ("Total output arcs: " ++ toString outgoing.length ++ "\n"))).toUTF8⟩, []⟩) ∧
    (memory.isElement address = false →
      ∀ sink : Sink, (write memory address).run sink =
        ⟨.error (.elementNotFound address), sink, []⟩) := by
  have sound := reachable.sound
  constructor
  · intro lives
    obtain ⟨text, line, titled, drawn, written⟩ := sound.exists_writes_write lives
    have sorted (side : Side) :
        ((memory.scan (side.pattern address)).map Triple.edge).Pairwise (· < ·) :=
      List.pairwise_map.mpr (memory.sorted_scan _)
    refine ⟨text, (memory.scan (Side.incoming.pattern address)).map Triple.edge,
      (memory.scan (Side.incoming.pattern address)).map (line .incoming),
      (memory.scan (Side.outgoing.pattern address)).map Triple.edge,
      (memory.scan (Side.outgoing.pattern address)).map (line .outgoing), titled,
      ⟨sorted .incoming, fun edge => ?_⟩, ?_, ⟨sorted .outgoing, fun edge => ?_⟩, ?_,
      fun held => ?_⟩
    · rw [sound.linked.mem_edges_scan_pattern_iff]
      simp [Side.nearEnd]
    · rw [List.forall₂_map_left_iff, List.forall₂_map_right_iff, List.forall₂_same]
      intro triple member
      obtain ⟨joins, rfl⟩ := (sound.linked.mem_scan_pattern_iff .incoming).mp member
      exact ⟨triple.source, joins, drawn .incoming triple member⟩
    · rw [sound.linked.mem_edges_scan_pattern_iff]
      simp [Side.nearEnd]
    · rw [List.forall₂_map_left_iff, List.forall₂_map_right_iff, List.forall₂_same]
      intro triple member
      obtain ⟨joins, rfl⟩ := (sound.linked.mem_scan_pattern_iff .outgoing).mp member
      exact ⟨triple.target, joins, drawn .outgoing triple member⟩
    · have whole := written.unlimited held
      rw [page_eq, List.length_map, List.length_map] at whole
      rw [List.length_map, List.length_map]
      exact whole
  · intro missing sink
    rw [write_of_not_isElement missing, Action.run_fail]

/-- A loop on an edge stands in both listings of the edge. -/
theorem neighborhood_written_at_namedLoopOnEdge :
    Reachable namedLoopOnEdge ∧ namedLoopOnEdge.isElement ⟨0, 3⟩ = true ∧
      (write namedLoopOnEdge ⟨0, 3⟩).run .unlimited =
        ⟨.ok ⟨1, 2⟩, ⟨none,
          ("(node->0|2)\n" ++
            "Input arcs:\n" ++
            "\t0|4 <= (node->0|2)\n" ++
            "Total input arcs: 1\n" ++
            "Output arcs:\n" ++
            "\t0|4 => (node->0|2)\n" ++
            "\t1|1 => node\n" ++
            "Total output arcs: 2\n").toUTF8⟩, []⟩ := by
  have reachable : Reachable namedLoopOnEdge := reachable_loopOnEdge.after _
  have lives : namedLoopOnEdge.isElement ⟨0, 3⟩ = true := by decide
  have found : namedLoopOnEdge.elements[(⟨0, 3⟩ : Address)]? =
      some ⟨.membershipArc, some (⟨0, 1⟩, ⟨0, 2⟩), [⟨0, 4⟩], [⟨0, 4⟩, ⟨1, 1⟩], some "edge"⟩ := by
    decide
  obtain ⟨text, incoming, inLines, outgoing, outLines, titled, ⟨inSorted, inMembers⟩, inDrawn,
    ⟨outSorted, outMembers⟩, outDrawn, whole⟩ := (reachable.neighborhood_written ⟨0, 3⟩).1 lives
  have linked := reachable.sound.linked
  have incoming_eq : incoming = [⟨0, 4⟩] := inSorted.eq_of_mem_iff
    (linked.incoming.sorted found) fun edge => by rw [inMembers, linked.mem_incoming_iff found]
  have outgoing_eq : outgoing = [⟨0, 4⟩, ⟨1, 1⟩] := outSorted.eq_of_mem_iff
    (linked.outgoing.sorted found) fun edge => by rw [outMembers, linked.mem_outgoing_iff found]
  subst incoming_eq outgoing_eq
  have node : elementText namedLoopOnEdge ⟨0, 1⟩ = .ok "node" := by cbv
  have edge : elementText namedLoopOnEdge ⟨0, 3⟩ = .ok "(node->0|2)" := by cbv
  have loop : namedLoopOnEdge.Joins ⟨0, 4⟩ ⟨0, 3⟩ ⟨0, 3⟩ := joins_iff.mpr (by decide)
  have loopTyped : namedLoopOnEdge.elementType ⟨0, 4⟩ = .ok .commonArcConst := by decide
  have back : namedLoopOnEdge.Joins ⟨1, 1⟩ ⟨0, 3⟩ ⟨0, 1⟩ := joins_iff.mpr (by decide)
  have backTyped : namedLoopOnEdge.elementType ⟨1, 1⟩ = .ok .commonArcConst := by decide
  have text_eq : text = "(node->0|2)" := Except.ok.inj (titled.symm.trans edge)
  have inLines_eq : inLines = ["\t0|4 <= (node->0|2)\n"] := by
    obtain _ | ⟨⟨source, joins, drawn⟩, _ | _⟩ := inDrawn
    obtain ⟨rfl, _⟩ := loop.ends_inj joins
    rw [drawn.line_eq loopTyped edge]
    decide
  have outLines_eq : outLines = ["\t0|4 => (node->0|2)\n", "\t1|1 => node\n"] := by
    obtain _ | ⟨⟨first, firstJoins, firstDrawn⟩, _ | ⟨⟨second, secondJoins, secondDrawn⟩, _ | _⟩⟩ :=
      outDrawn
    obtain ⟨_, rfl⟩ := loop.ends_inj firstJoins
    obtain ⟨_, rfl⟩ := back.ends_inj secondJoins
    rw [firstDrawn.line_eq loopTyped edge, secondDrawn.line_eq backTyped node]
    decide
  refine ⟨reachable, lives, (whole .empty).trans ?_⟩
  rw [text_eq, inLines_eq, outLines_eq, ByteArray.empty_append]
  refine congrArg (Reply.mk _ · _) (congrArg (Sink.mk none) (congrArg String.toUTF8 ?_))
  decide

/-- Writing reads the memory and leaves it as it is. -/
theorem run_writeNeighborhood {sink left : Sink} {result : Except Failure NeighborhoodSummary}
    (reply : (write memory address).run sink = ⟨result, left, []⟩) :
    (Request.writeNeighborhood address sink).action.run memory =
      ⟨.ok (result, left), memory, []⟩ := by
  change (⟨.ok (((write memory address).run sink).result,
    ((write memory address).run sink).state), memory, []⟩ : Reply Memory Failure _) = _
  rw [reply]
  rfl

/-- In a memory that calls lead to, a sink with a limit gets the bytes that a sink without one gets
when they fit, and the first of them when they do not.  The memory stays as it is. -/
theorem Reachable.neighborhood_cut (reachable : Reachable memory)
    (lives : memory.isElement address = true) :
    ∃ summary whole,
      (Request.writeNeighborhood address .unlimited).action.run memory =
        ⟨.ok (.ok summary, ⟨none, whole⟩), memory, []⟩ ∧
      ∀ limit,
        (whole.size ≤ limit →
          (Request.writeNeighborhood address (.limited limit)).action.run memory =
            ⟨.ok (.ok summary, ⟨some limit, whole⟩), memory, []⟩) ∧
        (limit < whole.size →
          (Request.writeNeighborhood address (.limited limit)).action.run memory =
            ⟨.ok (.error .outputFull, ⟨some limit, whole.extract 0 limit⟩), memory, []⟩ ∧
          (whole.extract 0 limit).size = limit) := by
  obtain ⟨text, line, _, _, written⟩ := reachable.sound.exists_writes_write lives
  refine ⟨_, _, run_writeNeighborhood (written.unlimited .empty),
    fun limit => ⟨fun room => ?_, fun full => ?_⟩⟩
  · exact run_writeNeighborhood (written.fits room)
  · refine ⟨run_writeNeighborhood (written.cut (Nat.zero_le limit) full), ?_⟩
    rw [ByteArray.size_extract]
    omega

/-- Nine bytes are fewer than the first heading takes. -/
theorem neighborhood_cut_at_namedLoopOnEdge :
    Reachable namedLoopOnEdge ∧ namedLoopOnEdge.isElement ⟨0, 3⟩ = true ∧
      ∃ summary whole,
        (Request.writeNeighborhood ⟨0, 3⟩ .unlimited).action.run namedLoopOnEdge =
          ⟨.ok (.ok summary, ⟨none, whole⟩), namedLoopOnEdge, []⟩ ∧
        9 < whole.size ∧
        (Request.writeNeighborhood ⟨0, 3⟩ (.limited 9)).action.run namedLoopOnEdge =
          ⟨.ok (.error .outputFull, ⟨some 9, whole.extract 0 9⟩), namedLoopOnEdge, []⟩ := by
  have reachable : Reachable namedLoopOnEdge := reachable_loopOnEdge.after _
  have lives : namedLoopOnEdge.isElement ⟨0, 3⟩ = true := by decide
  obtain ⟨summary, whole, unlimited, limited⟩ := reachable.neighborhood_cut lives
  obtain ⟨text, line, _, _, written⟩ := reachable.sound.exists_writes_write lives
  have full : 9 < whole.size := by
    have sameReply := unlimited.symm.trans (run_writeNeighborhood (written.unlimited .empty))
    cases sameReply
    rw [ByteArray.empty_append]
    exact Nat.lt_of_lt_of_le (by decide) (size_page _ _ _)
  exact ⟨reachable, lives, summary, whole, unlimited, full, ((limited 9).2 full).1⟩

end Memory

end SemanticMemory
