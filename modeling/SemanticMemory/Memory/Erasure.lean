import SemanticMemory.Memory.Basic

/-!
# Erasure of elements

An edge cannot outlive its ends.  Erasing an element therefore takes away the edges that start or
end at it, the edges that start or end at those, and so on.  What is still to be erased waits on a
stack.  Each element is taken out on its own: its identifier is free again at once, and an edge
leaves the lists of those of its ends that are still there.
-/

namespace SemanticMemory

namespace Element

def incident (element : Element) : List Address :=
  element.incoming ++ element.outgoing

def dropOutgoing (edge : Address) (element : Element) : Element :=
  { element with outgoing := element.outgoing.filter (· != edge) }

def dropIncoming (edge : Address) (element : Element) : Element :=
  { element with incoming := element.incoming.filter (· != edge) }

/-- What becomes of the element at an address when an edge from the source to the target is
taken out. -/
def unlinked (edge source target address : Address) (element : Element) : Element :=
  let ended := if source = address then element.dropOutgoing edge else element
  if target = address then ended.dropIncoming edge else ended

end Element

namespace Memory

def unlink (table : ElementTable) (edge source target : Address) : ElementTable :=
  (table.modify source (Element.dropOutgoing edge)).modify target (Element.dropIncoming edge)

/-- The table without an element, which is unlinked from its ends. -/
def withdraw (table : ElementTable) (address : Address) (ends : Option (Address × Address)) :
    ElementTable :=
  let left := table.erase address
  match ends with
  | none => left
  | some (source, target) => unlink left address source target

theorem getElem?_unlink (table : ElementTable) (edge source target address : Address) :
    (unlink table edge source target)[address]? =
      table[address]?.map (Element.unlinked edge source target address) := by
  simp only [unlink, Std.ExtTreeMap.getElem?_modify, Std.LawfulEqCmp.compare_eq_iff_eq]
  by_cases atTarget : target = address
  · subst atTarget
    by_cases atSource : source = target
    · subst atSource
      cases table[source]? <;> simp [Element.unlinked]
    · cases table[target]? <;> simp [Element.unlinked, atSource]
  · by_cases atSource : source = address
    · subst atSource
      cases table[source]? <;> simp [Element.unlinked, atTarget]
    · cases table[address]? <;> simp [Element.unlinked, atTarget, atSource]

/-- Without a node or a link, nothing else is different. -/
theorem getElem?_withdraw_none (table : ElementTable) (address other : Address) :
    (withdraw table address none)[other]? = if address = other then none else table[other]? := by
  simp [withdraw, Std.ExtTreeMap.getElem?_erase]

/-- Without an edge, its ends are unlinked from it. -/
theorem getElem?_withdraw_some (table : ElementTable) (address source target other : Address) :
    (withdraw table address (some (source, target)))[other]? =
      if address = other then none
      else table[other]?.map (Element.unlinked address source target other) := by
  by_cases same : address = other
  · simp [withdraw, getElem?_unlink, same]
  · simp [withdraw, getElem?_unlink, Std.ExtTreeMap.getElem?_erase, same]

/-- One element less is in the table, whatever ends it had. -/
theorem size_withdraw {table : ElementTable} {address : Address} {element : Element}
    (found : table[address]? = some element) (ends : Option (Address × Address)) :
    (withdraw table address ends).size + 1 = table.size := by
  have member : table.contains address = true := by
    rw [Std.ExtTreeMap.contains_eq_isSome_getElem?, found]
    rfl
  have occupied : table.size ≠ 0 := by
    intro vacant
    rw [← Std.ExtTreeMap.eq_empty_iff_size_eq_zero] at vacant
    simp [vacant] at member
  have sizeErase : (table.erase address).size = table.size - 1 := by
    rw [Std.ExtTreeMap.size_erase, if_pos member]
  have sizeWithdraw : (withdraw table address ends).size = (table.erase address).size := by
    unfold withdraw unlink
    split <;> simp only [Std.ExtTreeMap.size_modify]
  omega

def release (identifiers : IdentifierTable) : Option String → IdentifierTable
  | none => identifiers
  | some identifier => identifiers.erase identifier

theorem getElem?_release (identifiers : IdentifierTable) (released : Option String)
    (identifier : String) :
    (release identifiers released)[identifier]? =
      if released = some identifier then none else identifiers[identifier]? := by
  cases released <;> simp [release, Std.ExtTreeMap.getElem?_erase]

/-- The memory without an element.  The edges that start or end at the element stay. -/
def detach (memory : Memory) (address : Address) (element : Element) : Memory :=
  { memory with
    elements := withdraw memory.elements address element.ends
    identifiers := release memory.identifiers element.identifier }

/-- Erases the elements at the addresses of a stack and counts them.  The edges that start or end at
an erased element go on top of the stack, so that none of them is left when the stack is empty.  An
address may be on the stack more than once; it is passed over when its element is gone. -/
def eraseAll (memory : Memory) : List Address → Memory × Nat
  | [] => (memory, 0)
  | address :: pending =>
      match _ : memory.elements[address]? with
      | none => eraseAll memory pending
      | some element =>
          let later :=
            eraseAll (memory.detach address element) (element.incident.reverse ++ pending)
          (later.1, later.2 + 1)
termination_by pending => (memory.elementCount, pending.length)
decreasing_by
  · exact Prod.Lex.right _ (Nat.lt_succ_self _)
  · exact Prod.Lex.left _ _ (Nat.lt_of_succ_le (Nat.le_of_eq (size_withdraw ‹_› element.ends)))

theorem eraseAll_nil (memory : Memory) : memory.eraseAll [] = (memory, 0) := by
  rw [eraseAll]

theorem eraseAll_cons_of_missing {memory : Memory} {address : Address}
    (missing : memory.elements[address]? = none) (pending : List Address) :
    memory.eraseAll (address :: pending) = memory.eraseAll pending := by
  rw [eraseAll]
  split
  · rfl
  · next found => simp [missing] at found

theorem eraseAll_cons_of_found {memory : Memory} {address : Address} {element : Element}
    (found : memory.elements[address]? = some element) (pending : List Address) :
    memory.eraseAll (address :: pending) =
      let later :=
        (memory.detach address element).eraseAll (element.incident.reverse ++ pending)
      (later.1, later.2 + 1) := by
  rw [eraseAll]
  split
  · next missing => simp [missing] at found
  · next other foundAgain =>
      rw [found, Option.some.injEq] at foundAgain
      rw [foundAgain]

/-- Erases the element at the address together with every edge that hangs on it, and says whether
there was one.  It is reported when edges went along. -/
def erase (address : Address) : Action Memory StoreError Bool :=
  fun memory =>
    if memory.isElement address then
      let (left, erased) := memory.eraseAll [address]
      ⟨.ok true, left, if 1 < erased then [.cascadeErased address erased] else []⟩
    else
      ⟨.ok false, memory, []⟩

end Memory

end SemanticMemory
