import GuestReplica.Device
import GuestReplica.Device.MemoryTypes

set_option autoImplicit false

/-!
# The backing store

The store is the device-local buffer that holds the copy of guest memory,
together with the memory bound to it.  It is created by the first strategy that
works; an attempt that fails gives everything back before the next one starts.
-/

namespace GuestReplica

/-- How the buffer of a strategy is flagged. -/
def Strategy.bufferFlags : Strategy → Mask
  | .sparse => BufferFlag.sparseBinding ||| BufferFlag.sparseResidency
  | .plain => 0

/-- A buffer with the memory that backs it. -/
structure Store where
  buffer : Handle
  size : Nat
  memory : List Handle
  memoryType : Nat
  strategy : Strategy
  deriving DecidableEq, Repr, Inhabited

namespace Store

variable {τ ε σ α : Type}

/-- What the buffer is used for: copies in both directions, shader storage and indices. -/
def usage : Mask :=
  Usage.transferSource ||| Usage.transferDestination ||| Usage.storageBuffer |||
    Usage.indexBuffer

/-- The size of an allocation behind a sparse buffer, before it is aligned. -/
def chunkSize : Nat := 4 <<< 20

/-- The buffer that a strategy asks for. -/
def bufferInfo (size : Nat) (strategy : Strategy) : BufferInfo where
  flags := strategy.bufferFlags
  size := size
  usage := usage
  sharing := 0

/-- Frees memory, in order. -/
def freeAll (d : Device σ) : List Handle → Action τ ε σ Unit
  | [] => return ()
  | memory :: rest => do
    d.free memory
    freeAll d rest

/-- Gives the buffer and then its memory back.  What is left names no object, so
doing it again does nothing. -/
def destroy (d : Device σ) (store : Store) : Action τ ε σ Store := do
  if store.buffer ≠ Handle.null then
    d.destroyBuffer store.buffer
  freeAll d store.memory
  return { store with buffer := Handle.null, memory := [] }

/-- Gives a store up that could not be completed. -/
def abandon (d : Device σ) (store : Store) (error : CreationError) :
    Action τ CreationError σ α := do
  let _ ← store.destroy d
  Action.fail error

/-! ## One attempt -/

/-- Backs the whole buffer by one allocation. -/
def backPlain (d : Device σ) (store : Store) (needs : Requirements) :
    Action τ CreationError σ Store := do
  match ← d.allocate needs.size store.memoryType with
  | .failed code => store.abandon d (.memoryAllocation code)
  | .ok memory =>
    let store := { store with memory := [memory] }
    match ← d.bind store.buffer memory 0 with
    | .failed code => store.abandon d (.memoryBinding code)
    | .ok () => return store

/-- Allocates memory chunk by chunk for the bytes from `offset` to `total`, until
all are covered or an allocation fails.  Answers with a binding for each chunk
that was allocated, and with the code of the failure. -/
def allocateChunks (d : Device σ) (memoryType chunk total offset : Nat) :
    Action τ ε σ (List SparseBind × Option Code) :=
  if offset < total ∧ 0 < chunk then do
    let size := min chunk (total - offset)
    match ← d.allocate size memoryType with
    | .failed code => return ([], some code)
    | .ok memory =>
      let (binds, failure) ← allocateChunks d memoryType chunk total (offset + size)
      return (⟨offset, size, memory, 0, 0⟩ :: binds, failure)
  else
    return ([], none)
termination_by total - offset

/-- Backs the buffer by chunks of one size, the last of which may be shorter. -/
def backSparse (d : Device σ) (store : Store) (needs : Requirements) :
    Action τ CreationError σ Store := do
  match Size.roundUp? chunkSize (max needs.alignment 1) with
  | none => Action.violate .sizeOverflow
  | some chunk =>
    let (binds, failure) ← allocateChunks d store.memoryType chunk needs.size 0
    let store := { store with memory := binds.map (·.memory) }
    match failure with
    | some code => store.abandon d (.memoryAllocation code)
    | none =>
      match ← d.bindMemory ⟨store.buffer, binds⟩ with
      | .failed code => store.abandon d (.memoryBinding code)
      | .ok () => return store

/-- A single attempt with one strategy.  It leaves nothing behind when it fails. -/
def createWith (d : Device σ) (size : Nat) (strategy : Strategy) (deviceLocal : Mask) :
    Action τ CreationError σ Store := do
  let created ← d.createBuffer (bufferInfo size strategy)
  let buffer ← Action.accept .bufferCreation created
  let needs ← d.requirements buffer
  match MemoryTypes.choose? needs.types deviceLocal 0 with
  | none => abandon d ⟨buffer, size, [], 0, strategy⟩ .noDeviceLocalMemoryType
  | some memoryType =>
    let store : Store := ⟨buffer, size, [], memoryType, strategy⟩
    match strategy with
    | .plain => store.backPlain d needs
    | .sparse => store.backSparse d needs

/-! ## The first strategy that works -/

/-- Tries the strategies in order, with the failure to report when none is left. -/
def createFrom (d : Device σ) (size : Nat) (deviceLocal : Mask) :
    List Strategy → CreationError → Action τ CreationError σ Store
  | [], failure => Action.fail failure
  | strategy :: rest, _ => do
    match ← (createWith d size strategy deviceLocal).attempt with
    | .ok store =>
      Action.emit [.notice (.bufferCreated size strategy store.memoryType)]
      return store
    | .error failure =>
      Action.emit [.notice (.strategyFailed strategy failure)]
      createFrom d size deviceLocal rest failure

/-- Creates a store with the first strategy that works.  When none does, the
failure of the last one is handed back. -/
def create (d : Device σ) (size : Nat) (strategies : List Strategy) (deviceLocal : Mask) :
    Action τ CreationError σ Store :=
  createFrom d size deviceLocal strategies (.bufferCreation Code.initializationFailed)

end Store

end GuestReplica
