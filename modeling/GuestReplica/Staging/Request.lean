import GuestReplica.Device
import GuestReplica.Device.MemoryTypes
import GuestReplica.Staging.Pool

set_option autoImplicit false

/-!
# Requests for staging memory

The operations of a pool that need the device: requests, flushes, and giving all
pages back.  A request is served as far as the current page goes; when nothing is
left there, the pool turns to another page, and creates one only if no page is
writable.
-/

namespace GuestReplica.Staging

variable {τ ε σ : Type}

/-- Stores bytes in an allocation, from its first byte on. -/
def Allocation.write (d : Device σ) (a : Allocation) (bytes : ByteArray) :
    Action τ ε σ Unit :=
  d.hostWrite a.buffer a.memory a.offset bytes

namespace Pool

/-! ## Flushing -/

/-- Makes all that was handed out of the current page visible to the device. -/
def flush (d : Device σ) : Action Pool StagingError σ Unit := do
  let pool ← Action.subject
  match pool.currentPage? with
  | none => return ()
  | some page =>
    if pool.IsDirty page then
      match pool.dirtyRange? page with
      | none => Action.violate .sizeOverflow
      | some range =>
        let answered ← d.flush [range]
        Action.accept .device answered
        Action.update markFlushed
    else
      Action.update markFlushed

/-! ## Creating pages -/

/-- The buffer of a page. -/
def bufferInfo (pageSize : Nat) : BufferInfo where
  flags := 0
  size := pageSize
  usage := Usage.transferSource
  sharing := 0

/-- Backs a staging buffer and maps its memory. -/
def bindAndMap (d : Device σ) (buffer memory : Handle) :
    Action τ ε σ (Answer Unit) := do
  match ← d.bind buffer memory 0 with
  | .failed code => return .failed code
  | .ok () =>
    match ← d.map memory 0 Size.whole 0 with
    | .failed code => return .failed code
    | .ok .null => return .failed Code.memoryMapFailed
    | .ok .address => return .ok ()

/-- Backs a staging buffer by memory of a type.  When that fails, the memory and
the buffer are given back. -/
def pageFor (d : Device σ) (buffer : Handle) (size memoryType : Nat) (coherent : Bool) :
    Action τ StagingError σ Page := do
  match ← d.allocate size memoryType with
  | .failed code =>
    d.destroyBuffer buffer
    Action.fail (.device code)
  | .ok memory =>
    match ← bindAndMap d buffer memory with
    | .failed code =>
      d.destroyBuffer buffer
      d.free memory
      Action.fail (.device code)
    | .ok () => return ⟨buffer, memory, coherent, 0⟩

/-- Creates a page that no allocation was cut from, and answers with its index. -/
def createPage (d : Device σ) : Action Pool StagingError σ Nat := do
  let pool ← Action.subject
  if pool.IsFull then
    Action.fail .outOfPages
  else
    let created ← d.createBuffer (bufferInfo pool.config.pageSize)
    let buffer ← Action.accept .device created
    let needs ← d.requirements buffer
    match MemoryTypes.choose? needs.types pool.config.hostVisible pool.config.hostCoherent with
    | none =>
      d.destroyBuffer buffer
      Action.fail .noHostVisibleMemoryType
    | some memoryType =>
      let coherent := pool.config.hostCoherent.getLsbD memoryType
      let page ← pageFor d buffer needs.size memoryType coherent
      Action.update (addPage page)
      return pool.pages.length

/-! ## Requests -/

/-- A page to cut allocations from: a writable one if there is any, else a new one. -/
def nextPage (d : Device σ) : Action Pool StagingError σ Nat := do
  let pool ← Action.subject
  match pool.writable.getLast? with
  | some index =>
    Action.update dropWritable
    return index
  | none => createPage d

/-- Retires the current page and makes another one current. -/
def turnPage (d : Device σ) : Action Pool StagingError σ Nat := do
  flush d
  Action.update retire
  let index ← nextPage d
  Action.update (turnTo index)
  return index

/-- Hands out bytes of the current page from `offset` on. -/
def serve (submission size offset index : Nat) : Action Pool ε σ Allocation := do
  let pool ← Action.subject
  match pool.pages[index]? with
  | none => Action.violate .unknownPage
  | some page =>
    let allocation := pool.cut page size offset
    Action.update (handOut index submission (offset + allocation.size))
    return allocation

/-- Requests up to `size` bytes for use by a submission.  The allocation starts at
a multiple of `alignment`, and may be shorter than asked for: it takes what is
left of its page, so callers go on until all they need is covered. -/
def request (d : Device σ) (submission size alignment : Nat) :
    Action Pool StagingError σ Allocation := do
  if size = 0 then
    Action.violate .emptyRequest
  else if ¬ Size.IsPowerOfTwo alignment then
    Action.violate .alignmentNotPowerOfTwo
  else
    let pool ← Action.subject
    match Size.roundUp? pool.used alignment, pool.current with
    | none, _ => Action.violate .sizeOverflow
    | some offset, some index =>
      if offset < pool.config.pageSize then
        serve submission size offset index
      else
        turnPage d >>= serve submission size 0
    | some _, none => turnPage d >>= serve submission size 0

/-! ## Giving all back -/

/-- Gives pages back, in order. -/
def release (d : Device σ) : List Page → Action τ ε σ Unit
  | [] => return ()
  | page :: rest => do
    d.unmap page.memory
    d.destroyBuffer page.buffer
    d.free page.memory
    release d rest

/-- Gives every page back.  The pool can be used again, and starts without pages. -/
def destroy (d : Device σ) : Action Pool ε σ Unit := do
  let pool ← Action.subject
  release d pool.pages
  Action.update clear

end Pool

end GuestReplica.Staging
