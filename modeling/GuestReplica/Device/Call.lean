import GuestReplica.Command

set_option autoImplicit false

/-!
# Calls of the device

The replica reaches the device through the calls below and no other way.  A
creation answers with a handle or a result code, other work with nothing or a
result code, and a destruction has no answer.
-/

namespace GuestReplica

/-- The number by which the device names what went wrong. -/
abbrev Code : Type := Int

namespace Code

/-- An object could not be set up. -/
def initializationFailed : Code := -3

/-- Memory could not be mapped. -/
def memoryMapFailed : Code := -5

/-- The device lacks a feature. -/
def featureNotPresent : Code := -8

end Code

/-- What the device answers to a call that can fail. -/
inductive Answer (α : Type) where
  | ok (value : α)
  | failed (code : Code)
  deriving DecidableEq, Repr, Inhabited

/-- What a buffer to be created is like. -/
structure BufferInfo where
  flags : Mask
  size : Nat
  usage : Mask
  /-- zero: one queue family at a time -/
  sharing : Nat
  deriving DecidableEq, Repr, Inhabited

/-- What memory has to be like to back a buffer. -/
structure Requirements where
  size : Nat
  alignment : Nat
  /-- the memory types that will do -/
  types : Mask
  deriving DecidableEq, Repr, Inhabited

/-- `size` bytes of a sparse buffer at `offset` that live in `memory`. -/
structure SparseBind where
  offset : Nat
  size : Nat
  memory : Handle
  memoryOffset : Nat
  flags : Mask
  deriving DecidableEq, Repr, Inhabited

/-- The bindings of one buffer. -/
structure BufferBinding where
  buffer : Handle
  binds : List SparseBind
  deriving DecidableEq, Repr, Inhabited

/-- `size` bytes of mapped memory at `offset`.  `size` may be `Size.whole`. -/
structure MappedRange where
  memory : Handle
  offset : Nat
  size : Nat
  deriving DecidableEq, Repr, Inhabited

/-- The buffer part of a pipeline barrier. -/
structure BufferDependency where
  sourceAccess : Mask
  targetAccess : Mask
  sourceFamily : Nat
  targetFamily : Nat
  buffer : Handle
  offset : Nat
  size : Nat
  deriving DecidableEq, Repr, Inhabited

/-- A pipeline barrier as a command buffer of the device takes it.  No general
memory barrier and no image barrier is ever part of it, so these are counts. -/
structure PipelineBarrier where
  sourceStages : Mask
  targetStages : Mask
  flags : Mask
  memoryBarriers : Nat
  buffers : List BufferDependency
  imageBarriers : Nat
  deriving DecidableEq, Repr, Inhabited

/-- Where a successful mapping put the memory. -/
inductive Mapping where
  | address
  | null
  deriving DecidableEq, Repr, Inhabited

/-- A call of the device, with what the device answered. -/
inductive Call where
  | createBuffer (info : BufferInfo) (answer : Answer Handle)
  | destroyBuffer (buffer : Handle)
  | requirements (buffer : Handle) (answer : Requirements)
  | allocate (size memoryType : Nat) (answer : Answer Handle)
  | free (memory : Handle)
  | bind (buffer memory : Handle) (offset : Nat) (answer : Answer Unit)
  | bindSparse (binding : BufferBinding) (answer : Answer Unit)
  | map (memory : Handle) (offset size : Nat) (flags : Mask) (answer : Answer Mapping)
  | unmap (memory : Handle)
  | flush (ranges : List MappedRange) (answer : Answer Unit)
  | createFence (flags : Mask) (answer : Answer Handle)
  | queueBindSparse (queue : Handle) (bindings : List BufferBinding) (fence : Handle)
      (answer : Answer Unit)
  | waitForFences (fences : List Handle) (all : Bool) (timeout : Nat)
      (answer : Answer Unit)
  | destroyFence (fence : Handle)
  | pipelineBarrier (commandBuffer : Handle) (barrier : PipelineBarrier)
  | copyBuffer (commandBuffer source target : Handle) (regions : List CopyRegion)
  deriving DecidableEq, Repr, Inhabited

end GuestReplica
