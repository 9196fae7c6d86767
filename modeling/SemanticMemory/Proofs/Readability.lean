import SemanticMemory.Proofs.Members
import SemanticMemory.Proofs.Ownership
import SemanticMemory.Proofs.Spelling
import Std.Data.String.ToNat

/-!
# What a text tells about its element

The text of an edge is made of the texts of its ends, put in brackets and with an arrow between
them, to any depth.  Nothing marks where the text of the source ends.  The text can be read in one
way only all the same, as long as no name has a character of the brackets, of the arrow or of an
address in it: a text tells everything that its element is built from.
-/

namespace SemanticMemory

/-- Two texts agree word by word when each word ends with the last character of its kind. -/
theorem append_inj_of_kind {kind : Char → Bool} {word other rest more : List Char}
    (same : word ++ rest = other ++ more) (ofKind : ∀ char ∈ word, kind char = true)
    (otherOfKind : ∀ char ∈ other, kind char = true)
    (stops : ∀ char ∈ rest.head?, kind char = false)
    (otherStops : ∀ char ∈ more.head?, kind char = false) : word = other ∧ rest = more := by
  have none_taken {rest : List Char} (stops : ∀ char ∈ rest.head?, kind char = false) :
      rest.takeWhile kind = [] := by
    cases rest with
    | nil => rfl
    | cons char rest => rw [List.takeWhile_cons_of_neg (by simp [stops char rfl])]
  have words : word = other := by
    have taken := congrArg (List.takeWhile kind) same
    rwa [List.takeWhile_append_of_pos ofKind, List.takeWhile_append_of_pos otherOfKind,
      none_taken stops, none_taken otherStops, List.append_nil, List.append_nil] at taken
  subst words
  exact ⟨rfl, List.append_cancel_left same⟩

namespace Address

theorem toList_text (address : Address) :
    address.text.toList = address.segment.toNat.repr.toList ++
      '|' :: address.offset.toNat.repr.toList := by
  simp [text]

theorem isDigit_of_mem_repr {number : Nat} {char : Char} (member : char ∈ number.repr.toList) :
    char.isDigit = true := by
  rw [Nat.toList_repr] at member
  exact Nat.isDigit_of_mem_toDigits (by decide) (by decide) member

theorem text_injective {first second : Address} (same : first.text = second.text) :
    first = second := by
  rw [← String.toList_inj, toList_text, toList_text] at same
  obtain ⟨segments, offsets⟩ := append_inj_of_kind same (fun _ => isDigit_of_mem_repr)
    (fun _ => isDigit_of_mem_repr) (by simp) (by simp)
  rw [String.toList_inj, Nat.repr_inj, UInt16.toNat_inj] at segments
  rw [List.cons_inj_right, String.toList_inj, Nat.repr_inj, UInt16.toNat_inj] at offsets
  exact Address.mk.injEq .. ▸ ⟨segments, offsets⟩

theorem bar_mem_text (address : Address) : '|' ∈ address.text.toList := by
  simp [toList_text]

theorem isDigit_of_mem_text {address : Address} {char : Char}
    (member : char ∈ address.text.toList) : char.isDigit = true ∨ char = '|' := by
  rw [toList_text, List.mem_append, List.mem_cons] at member
  rcases member with digit | bar | digit
  · exact .inl (isDigit_of_mem_repr digit)
  · exact .inr bar
  · exact .inl (isDigit_of_mem_repr digit)

end Address

/-- What an element is built from: the nodes and links at the bottom and the edges over them. -/
inductive Unfolding where
  | leaf (address : Address)
  | edge (source target : Unfolding)
  deriving DecidableEq

namespace Unfolding

/-- Whether every leaf is of a kind. -/
def Over (kind : Address → Prop) : Unfolding → Prop
  | leaf address => kind address
  | edge source target => source.Over kind ∧ target.Over kind

/-- The text of an edge is made of the texts of its ends, down to the words for the leaves. -/
def text (word : Address → String) : Unfolding → String
  | leaf address => word address
  | edge source target => Rendering.edgeText (source.text word) (target.text word)

/-- The characters that a text of an edge has besides the words. -/
def isMark (char : Char) : Bool :=
  char ∈ ['(', ')', '-', '>']

theorem mem_of_isMark {char : Char} (mark : isMark char = true) : char ∈ ['(', ')', '-', '>'] :=
  of_decide_eq_true mark

/-- Words are legible when no two leaves have the same and no word has a mark in it. -/
structure Legible (word : Address → String) (kind : Address → Prop) : Prop where
  ne_empty {address : Address} : kind address → word address ≠ ""
  unmarked {address : Address} : kind address →
    ∀ char ∈ (word address).toList, isMark char = false
  inj {first second : Address} : kind first → kind second → word first = word second →
    first = second

variable {word : Address → String} {kind : Address → Prop}

theorem toList_text_edge (source target : Unfolding) :
    ((edge source target).text word).toList =
      '(' :: ((source.text word).toList ++ '-' :: '>' :: ((target.text word).toList ++ [')'])) := by
  simp [text, Rendering.edgeText]

/-- A word is not the beginning of a text in brackets. -/
theorem Legible.word_append_ne (legible : Legible word kind) {address : Address}
    (isLeaf : kind address) (rest more : List Char) :
    (word address).toList ++ rest ≠ '(' :: more := by
  intro same
  cases letters : (word address).toList with
  | nil => exact legible.ne_empty isLeaf (String.toList_eq_nil_iff.mp letters)
  | cons char chars =>
      rw [letters, List.cons_append, List.cons.injEq] at same
      have unmarked := legible.unmarked isLeaf char (letters ▸ List.mem_cons_self)
      rw [same.1] at unmarked
      contradiction

/-- Two texts that agree up to marks after them are texts of the same unfolding. -/
theorem Legible.text_append_inj (legible : Legible word kind) {first second : Unfolding}
    (firstOver : first.Over kind) (secondOver : second.Over kind) {rest more : List Char}
    (stops : ∀ char ∈ rest.head?, isMark char = true)
    (otherStops : ∀ char ∈ more.head?, isMark char = true)
    (same : (first.text word).toList ++ rest = (second.text word).toList ++ more) :
    first = second ∧ rest = more := by
  induction first generalizing second rest more with
  | leaf address =>
      cases second with
      | leaf other =>
          have unmarked {address : Address} (isLeaf : kind address) :
              ∀ char ∈ (word address).toList, (!isMark char) = true :=
            fun char member => by rw [legible.unmarked isLeaf char member]; rfl
          obtain ⟨words, rests⟩ := append_inj_of_kind same (unmarked firstOver)
            (unmarked secondOver) (fun char head => by rw [stops char head]; rfl)
            (fun char head => by rw [otherStops char head]; rfl)
          exact ⟨congrArg leaf (legible.inj firstOver secondOver (String.toList_inj.mp words)),
            rests⟩
      | edge source target =>
          rw [toList_text_edge, List.cons_append] at same
          exact absurd same (legible.word_append_ne firstOver _ _)
  | edge source target ofSource ofTarget =>
      cases second with
      | leaf other =>
          rw [toList_text_edge, List.cons_append] at same
          exact absurd same.symm (legible.word_append_ne secondOver _ _)
      | edge otherSource otherTarget =>
          simp only [toList_text_edge, List.cons_append, List.append_assoc, List.nil_append,
            List.cons_inj_right] at same
          -- The arrow ends the text of the source, and the bracket that of the target.
          obtain ⟨rfl, afterSource⟩ := ofSource firstOver.1 secondOver.1 (by simp [isMark])
            (by simp [isMark]) same
          simp only [List.cons_inj_right] at afterSource
          obtain ⟨rfl, afterTarget⟩ :=
            ofTarget firstOver.2 secondOver.2 (by simp [isMark]) (by simp [isMark]) afterSource
          rw [List.cons_inj_right] at afterTarget
          exact ⟨rfl, afterTarget⟩

theorem Legible.text_inj (legible : Legible word kind) {first second : Unfolding}
    (firstOver : first.Over kind) (secondOver : second.Over kind) :
    first.text word = second.text word ↔ first = second := by
  constructor
  · intro same
    have spelled : (first.text word).toList ++ [] = (second.text word).toList ++ [] := by rw [same]
    exact (legible.text_append_inj firstOver secondOver (by simp) (by simp) spelled).1
  · exact congrArg _

end Unfolding

namespace Memory

open Rendering

variable {memory : Memory} {address first second : Address} {tree other : Unfolding}

/-- An unfolding is what the element at an address is built from. -/
inductive Unfolds (memory : Memory) : Address → Unfolding → Prop where
  | leaf {address : Address} (leaf : memory.IsLeaf address) : Unfolds memory address (.leaf address)
  | edge {edge source target : Address} {sourceTree targetTree : Unfolding}
      (joins : memory.Joins edge source target) (ofSource : Unfolds memory source sourceTree)
      (ofTarget : Unfolds memory target targetTree) :
      Unfolds memory edge (.edge sourceTree targetTree)

theorem Unfolds.over (unfolds : memory.Unfolds address tree) : tree.Over memory.IsLeaf := by
  induction unfolds with
  | leaf leaf => exact leaf
  | edge _ _ _ ofSource ofTarget => exact ⟨ofSource, ofTarget⟩

/-- The memory has one unfolding for each element. -/
theorem Typed.unfolds_inj (typed : memory.Typed) (unfolds : memory.Unfolds address tree)
    (otherUnfolds : memory.Unfolds address other) : tree = other := by
  induction unfolds generalizing other with
  | leaf leaf =>
      cases otherUnfolds with
      | leaf => rfl
      | edge joins => exact absurd joins (typed.not_joins_of_isLeaf leaf _ _)
  | edge joins _ _ ofSource ofTarget =>
      cases otherUnfolds with
      | leaf leaf => exact absurd joins (typed.not_joins_of_isLeaf leaf _ _)
      | edge otherJoins otherOfSource otherOfTarget =>
          obtain ⟨rfl, rfl⟩ := joins.ends_inj otherJoins
          rw [ofSource otherOfSource, ofTarget otherOfTarget]

theorem Sound.isLeaf_or_joins (sound : memory.Sound) (lives : memory.isElement address = true) :
    memory.IsLeaf address ∨ ∃ source target, memory.Joins address source target := by
  obtain ⟨element, found⟩ := isElement_iff_exists_element.mp lives
  by_cases leaf : (element.type.isNode || element.type.isLink) = true
  · exact .inl ⟨element.type, typeAt?_eq_some_iff.mpr ⟨element, found, rfl⟩, leaf⟩
  · have isEdge := (sound.typed.isEdge_iff_not_leaf found).mpr leaf
    exact .inr ((sound.typed.isEdge_iff_joins found).mp isEdge)

/-- An element unfolds because its ends, which are older, unfold. -/
theorem Sound.exists_unfolds (sound : memory.Sound) {address : Address}
    (lives : memory.isElement address = true) :
    ∃ tree, memory.Unfolds address tree := by
  rcases sound.isLeaf_or_joins lives with leaf | ⟨source, target, joins⟩
  · exact ⟨_, .leaf leaf⟩
  · obtain ⟨sourceLives, targetLives⟩ := sound.linked.ends_isElement joins
    have sourceOlder : source.rank < address.rank := (sound.linked.ends_lt joins).1
    have targetOlder : target.rank < address.rank := (sound.linked.ends_lt joins).2
    obtain ⟨sourceTree, ofSource⟩ := sound.exists_unfolds sourceLives
    obtain ⟨targetTree, ofTarget⟩ := sound.exists_unfolds targetLives
    exact ⟨_, .edge joins ofSource ofTarget⟩
termination_by address.rank

theorem Named.elementText_of_isLeaf (named : memory.Named) (leaf : memory.IsLeaf address) :
    ∃ element, memory.elements[address]? = some element ∧
      elementText memory address = .ok (element.identifier.getD address.text) := by
  obtain ⟨type, typed, kind⟩ := leaf
  obtain ⟨element, found, rfl⟩ := typeAt?_eq_some_iff.mp typed
  exact ⟨element, found, named.elementText_of_leaf found kind⟩

/-- The text of an element is that of its unfolding. -/
theorem Sound.elementText_of_unfolds (sound : memory.Sound)
    (unfolds : memory.Unfolds address tree) :
    elementText memory address = .ok (tree.text (label memory)) := by
  induction unfolds with
  | leaf leaf =>
      obtain ⟨element, _, spelled⟩ := sound.named.elementText_of_isLeaf leaf
      rw [Unfolding.text, label_of_elementText spelled, spelled]
  | edge joins _ _ ofSource ofTarget => exact sound.elementText_of_joins joins ofSource ofTarget

/-- No name of a node or a link has a character in it that separates the parts of a text. -/
def PlainlyNamed (memory : Memory) : Prop :=
  ∀ ⦃address identifier⦄, memory.IsLeaf address →
    memory.identifier address = .ok (some identifier) →
    ∀ char ∈ ['(', ')', '-', '>', '|'], char ∉ identifier.toList

/-- A leaf is labelled by its name or by its address, and the two look different. -/
theorem Named.legible (named : memory.Named) (plain : memory.PlainlyNamed) :
    Unfolding.Legible (label memory) memory.IsLeaf := by
  have labels {address : Address} (leaf : memory.IsLeaf address) :
      (∃ name, memory.identifier address = .ok (some name) ∧ label memory address = name) ∨
        label memory address = address.text := by
    obtain ⟨element, found, spelled⟩ := named.elementText_of_isLeaf leaf
    rw [label_of_elementText spelled]
    cases carries : element.identifier with
    | none => exact .inr rfl
    | some name => exact .inl ⟨name, identifier_eq_ok_iff.mpr ⟨element, found, carries⟩, rfl⟩
  have noBar {address : Address} {name : String} (leaf : memory.IsLeaf address)
      (carries : memory.identifier address = .ok (some name)) (other : Address) :
      name ≠ other.text := by
    rintro rfl
    exact plain leaf carries '|' (by simp) other.bar_mem_text
  constructor
  case ne_empty =>
    intro address leaf
    rcases labels leaf with ⟨name, carries, isName⟩ | isText
    · exact isName ▸ named.ne_empty carries
    · intro empty
      have bar := address.bar_mem_text
      rw [← isText, empty] at bar
      contradiction
  case unmarked =>
    intro address leaf char member
    rw [← Bool.not_eq_true]
    intro mark
    have isMark := Unfolding.mem_of_isMark mark
    rcases labels leaf with ⟨name, carries, isName⟩ | isText
    · rw [isName] at member
      exact plain leaf carries char (List.mem_append_left ['|'] isMark) member
    · rw [isText] at member
      have noMark : ∀ char ∈ ['(', ')', '-', '>'], ¬(char.isDigit = true ∨ char = '|') := by
        simp only [List.forall_mem_cons, List.not_mem_nil, false_implies, implies_true]
        decide
      exact noMark char isMark (Address.isDigit_of_mem_text member)
  case inj =>
    intro first second firstLeaf secondLeaf same
    rcases labels firstLeaf with ⟨name, carries, isName⟩ | isText
    · rw [isName] at same
      rcases labels secondLeaf with ⟨other, otherCarries, isOther⟩ | isText
      · rw [isOther] at same
        rw [← named.owner?_eq_some_iff, same] at carries
        exact Option.some.inj (carries.symm.trans (named.owner?_eq_some_iff.mpr otherCarries))
      · exact absurd (same.trans isText) (noBar firstLeaf carries second)
    · rw [isText] at same
      rcases labels secondLeaf with ⟨other, otherCarries, isOther⟩ | isOtherText
      · exact absurd (same.trans isOther).symm (noBar secondLeaf otherCarries first)
      · exact Address.text_injective (same.trans isOtherText)

theorem Sound.elementText_eq_iff (sound : memory.Sound) (plain : memory.PlainlyNamed)
    (unfolds : memory.Unfolds first tree) (otherUnfolds : memory.Unfolds second other) :
    elementText memory first = elementText memory second ↔ tree = other := by
  rw [sound.elementText_of_unfolds unfolds, sound.elementText_of_unfolds otherUnfolds,
    Except.ok.injEq, (sound.named.legible plain).text_inj unfolds.over otherUnfolds.over]

/-- In a memory that calls lead to and whose nodes and links have plain names, the text of a node or
a link tells which it is, and the text of an edge tells the texts of its ends, and so on down to the
nodes and links at the bottom. -/
theorem Reachable.text_readable (reachable : Reachable memory) (plain : memory.PlainlyNamed) :
    (∀ first second, memory.isElement first = true → memory.isElement second = true →
      (elementText memory first = elementText memory second ↔
        memory.IsLeaf first ∧ memory.IsLeaf second ∧ first = second ∨
        ∃ source target otherSource otherTarget,
          memory.Joins first source target ∧ memory.Joins second otherSource otherTarget ∧
          elementText memory source = elementText memory otherSource ∧
          elementText memory target = elementText memory otherTarget)) ∧
    (∀ address, memory.isElement address = true → ∃ tree, memory.Unfolds address tree ∧
      (∀ other, memory.Unfolds address other → other = tree) ∧
      elementText memory address = .ok (tree.text (label memory))) ∧
    ∀ first second tree other, memory.Unfolds first tree → memory.Unfolds second other →
      (elementText memory first = elementText memory second ↔ tree = other) := by
  have sound := reachable.sound
  have told {first second : Address} {tree other : Unfolding}
      (unfolds : memory.Unfolds first tree) (otherUnfolds : memory.Unfolds second other) :
      elementText memory first = elementText memory second ↔ tree = other :=
    sound.elementText_eq_iff plain unfolds otherUnfolds
  refine ⟨fun first second lives otherLives => ⟨fun same => ?_, ?_⟩, fun address lives => ?_,
    fun _ _ _ _ => told⟩
  · obtain ⟨tree, unfolds⟩ := sound.exists_unfolds lives
    obtain ⟨other, otherUnfolds⟩ := sound.exists_unfolds otherLives
    obtain rfl := (told unfolds otherUnfolds).mp same
    cases unfolds with
    | leaf leaf =>
        cases otherUnfolds
        exact .inl ⟨leaf, leaf, rfl⟩
    | edge joins ofSource ofTarget =>
        cases otherUnfolds with
        | edge otherJoins otherOfSource otherOfTarget =>
            exact .inr ⟨_, _, _, _, joins, otherJoins, (told ofSource otherOfSource).mpr rfl,
              (told ofTarget otherOfTarget).mpr rfl⟩
  · rintro (⟨_, _, rfl⟩ | ⟨source, target, otherSource, otherTarget, joins, otherJoins, sources,
      targets⟩)
    · rfl
    · obtain ⟨sourceLives, targetLives⟩ := sound.linked.ends_isElement joins
      obtain ⟨sourceText, ofSource⟩ := sound.exists_elementText sourceLives
      obtain ⟨targetText, ofTarget⟩ := sound.exists_elementText targetLives
      rw [sound.elementText_of_joins joins ofSource ofTarget,
        sound.elementText_of_joins otherJoins (sources.symm.trans ofSource)
          (targets.symm.trans ofTarget)]
  · obtain ⟨tree, unfolds⟩ := sound.exists_unfolds lives
    exact ⟨tree, unfolds, fun other otherUnfolds => sound.typed.unfolds_inj otherUnfolds unfolds,
      sound.elementText_of_unfolds unfolds⟩

/-- The loop and what it hangs on, with a second edge beside the edge under the loop. -/
def parallelEdges : Memory :=
  namedLoopOnEdge.after [.createEdge .accessArc ⟨0, 1⟩ ⟨0, 2⟩]

/-- The two edges with the same ends have one text, and the two that start at an edge have two. -/
theorem text_readable_at_parallelEdges :
    Reachable parallelEdges ∧ parallelEdges.PlainlyNamed ∧
      elementText parallelEdges ⟨0, 3⟩ = elementText parallelEdges ⟨1, 2⟩ ∧
      elementText parallelEdges ⟨0, 4⟩ ≠ elementText parallelEdges ⟨1, 1⟩ := by
  have reachable : Reachable parallelEdges := (reachable_loopOnEdge.after _).after _
  have plainEntries : ∀ entry ∈ parallelEdges.elements.toList, ∀ identifier ∈ entry.2.identifier,
      ∀ char ∈ ['(', ')', '-', '>', '|'], char ∉ identifier.toList := by
    simp only [List.forall_mem_cons, List.not_mem_nil, false_implies, implies_true]
    decide
  have plain : parallelEdges.PlainlyNamed := by
    intro address identifier _ carries
    obtain ⟨element, found, isCarried⟩ := identifier_eq_ok_iff.mp carries
    exact plainEntries _ (Std.ExtTreeMap.mem_toList_iff_getElem?_eq_some.mpr found) _ isCarried
  have node : parallelEdges.Unfolds ⟨0, 1⟩ (.leaf ⟨0, 1⟩) :=
    .leaf ⟨.nodeConst, by decide, by decide⟩
  have link : parallelEdges.Unfolds ⟨0, 2⟩ (.leaf ⟨0, 2⟩) :=
    .leaf ⟨.linkConst, by decide, by decide⟩
  have edge : parallelEdges.Unfolds ⟨0, 3⟩ (.edge (.leaf ⟨0, 1⟩) (.leaf ⟨0, 2⟩)) :=
    .edge (joins_iff.mpr (by decide)) node link
  have parallel : parallelEdges.Unfolds ⟨1, 2⟩ (.edge (.leaf ⟨0, 1⟩) (.leaf ⟨0, 2⟩)) :=
    .edge (joins_iff.mpr (by decide)) node link
  have loop : parallelEdges.Unfolds ⟨0, 4⟩ (.edge _ _) :=
    .edge (joins_iff.mpr (by decide)) edge edge
  have back : parallelEdges.Unfolds ⟨1, 1⟩ (.edge _ _) :=
    .edge (joins_iff.mpr (by decide)) edge node
  obtain ⟨_, _, tells⟩ := reachable.text_readable plain
  exact ⟨reachable, plain, (tells _ _ _ _ edge parallel).mpr rfl,
    mt (tells _ _ _ _ loop back).mp (by decide)⟩

end Memory

end SemanticMemory
