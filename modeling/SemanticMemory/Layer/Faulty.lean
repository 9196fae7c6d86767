import SemanticMemory.Memory.Store

/-!
# A store that fails on purpose

This layer counts the calls that create edges and the calls that erase elements.  Each of the two
has a threshold, and from the call of that number on every such call fails.  All other calls are
passed on.
-/

namespace SemanticMemory

/-- A count of calls and the call from which on they fail. -/
structure Tripwire where
  /-- The number of the first call that fails; zero lets every call through. -/
  threshold : UInt64
  /-- The number of calls made so far, whatever became of them. -/
  calls : UInt64
  deriving DecidableEq

namespace Tripwire

/-- A wire that no call has met and that lets every call through. -/
def idle : Tripwire :=
  ⟨0, 0⟩

def count (wire : Tripwire) : Tripwire :=
  { wire with calls := wire.calls + 1 }

def trips (wire : Tripwire) : Bool :=
  wire.threshold ≠ 0 && wire.threshold ≤ wire.calls

/-- The wire with another threshold.  The count goes on. -/
def set (wire : Tripwire) (threshold : UInt64) : Tripwire :=
  { wire with threshold }

end Tripwire

/-- A store under a layer that makes calls fail. -/
@[ext]
structure Faulty (σ : Type) where
  inner : σ
  createEdgeWire : Tripwire
  eraseWire : Tripwire

namespace Faulty

variable {σ ε α : Type}

def idle (inner : σ) : Faulty σ :=
  ⟨inner, .idle, .idle⟩

def wire (store : Faulty σ) : GuardedCall → Tripwire
  | .createEdge => store.createEdgeWire
  | .erase => store.eraseWire

def setWire (store : Faulty σ) (call : GuardedCall) (wire : Tripwire) : Faulty σ :=
  match call with
  | .createEdge => { store with createEdgeWire := wire }
  | .erase => { store with eraseWire := wire }

/-- Makes the calls of a kind fail from the call of the given number on. -/
def failFrom (store : Faulty σ) (call : GuardedCall) (threshold : UInt64) : Faulty σ :=
  store.setWire call ((store.wire call).set threshold)

def mend (store : Faulty σ) : Faulty σ :=
  (store.failFrom .createEdge 0).failFrom .erase 0

/-- Acts on the store under the layer. -/
def within (action : Action σ ε α) : Action (Faulty σ) ε α :=
  action.onPart inner fun store inner => { store with inner }

/-- Counts a call and passes it on, unless it fails on purpose. -/
def guarded (call : GuardedCall) (action : Action σ StoreError α) :
    Action (Faulty σ) StoreError α :=
  fun store =>
    let counted := store.setWire call (store.wire call).count
    if (counted.wire call).trips then ⟨.error (.injected call), counted, []⟩
    else (within action).run counted

@[simp]
theorem run_within (action : Action σ ε α) (store : Faulty σ) :
    (within action).run store =
      ⟨(action.run store.inner).result, { store with inner := (action.run store.inner).state },
        (action.run store.inner).events⟩ :=
  rfl

@[simp]
theorem wire_setWire_self (store : Faulty σ) (call : GuardedCall) (wire : Tripwire) :
    (store.setWire call wire).wire call = wire := by
  cases call <;> rfl

theorem wire_setWire_of_ne (store : Faulty σ) {call other : GuardedCall} (distinct : call ≠ other)
    (wire : Tripwire) : (store.setWire call wire).wire other = store.wire other := by
  cases call <;> cases other <;> first | rfl | contradiction

@[simp]
theorem inner_setWire (store : Faulty σ) (call : GuardedCall) (wire : Tripwire) :
    (store.setWire call wire).inner = store.inner := by
  cases call <;> rfl

instance [TripleStore σ] : TripleStore (Faulty σ) where
  isElement store := TripleStore.isElement store.inner
  elementType store := TripleStore.elementType store.inner
  endpoints store := TripleStore.endpoints store.inner
  matching store := TripleStore.matching store.inner
  identifier store := TripleStore.identifier store.inner
  owner? store := TripleStore.owner? store.inner
  createNode type := within (TripleStore.createNode type)
  createLink := within TripleStore.createLink
  createEdge type source target :=
    guarded .createEdge (TripleStore.createEdge type source target)
  erase address := guarded .erase (TripleStore.erase address)
  assignIdentifier address identifier := within (TripleStore.assignIdentifier address identifier)

instance [Layered σ] : Layered (Faulty σ) where
  memory store := Layered.memory store.inner
  withMemory store memory := { store with inner := Layered.withMemory store.inner memory }

end Faulty

end SemanticMemory
