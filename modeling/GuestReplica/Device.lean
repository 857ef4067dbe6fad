import GuestReplica.Action

set_option autoImplicit false

/-!
# Devices

A device is given by its answers to calls.  What an answer depends on, and what
changes with it, is the device's own business: its state may be of any type and
its answers any functions, so whatever is shown for all devices holds however a
device behaves and wherever it fails.  The actions of this module make the calls
and note them as events.
-/

namespace GuestReplica

/-- How bindings of sparse buffers reach the device. -/
inductive SparsePath where
  /-- by a call that returns when the binding has taken effect -/
  | direct
  /-- through a queue, if there is one, with a fence to wait for -/
  | queued (queue : Option Handle)
  deriving DecidableEq, Repr, Inhabited

/-- A device whose state is of type `σ`: the answer to each call, and the state
after it. -/
structure Device (σ : Type) where
  sparsePath : SparsePath
  onCreateBuffer (info : BufferInfo) : σ → Answer Handle × σ
  onDestroyBuffer (buffer : Handle) : σ → σ
  onRequirements (buffer : Handle) : σ → Requirements × σ
  onAllocate (size memoryType : Nat) : σ → Answer Handle × σ
  onFree (memory : Handle) : σ → σ
  onBind (buffer memory : Handle) (offset : Nat) : σ → Answer Unit × σ
  onBindSparse (binding : BufferBinding) : σ → Answer Unit × σ
  onMap (memory : Handle) (offset size : Nat) (flags : Mask) : σ → Answer Mapping × σ
  onUnmap (memory : Handle) : σ → σ
  onFlush (ranges : List MappedRange) : σ → Answer Unit × σ
  onCreateFence (flags : Mask) : σ → Answer Handle × σ
  onQueueBindSparse (queue : Handle) (bindings : List BufferBinding) (fence : Handle) :
    σ → Answer Unit × σ
  onWaitForFences (fences : List Handle) (all : Bool) (timeout : Nat) : σ → Answer Unit × σ
  onDestroyFence (fence : Handle) : σ → σ
  onPipelineBarrier (commandBuffer : Handle) (barrier : PipelineBarrier) : σ → σ
  onCopyBuffer (commandBuffer source target : Handle) (regions : List CopyRegion) :
    σ → σ
  /-- the host stores bytes in mapped memory, which is no call -/
  onHostWrite (memory : Handle) (offset : Nat) (bytes : ByteArray) : σ → σ

namespace Device

variable {τ ε σ : Type}

/-! ## Calls -/

/-- Creates a buffer. -/
def createBuffer (d : Device σ) (info : BufferInfo) : Action τ ε σ (Answer Handle) :=
  Action.ask (d.onCreateBuffer info) fun a => .call (.createBuffer info a)

/-- Destroys a buffer. -/
def destroyBuffer (d : Device σ) (buffer : Handle) : Action τ ε σ Unit :=
  Action.tell (d.onDestroyBuffer buffer) (.call (.destroyBuffer buffer))

/-- Asks what memory for a buffer has to be like. -/
def requirements (d : Device σ) (buffer : Handle) : Action τ ε σ Requirements :=
  Action.ask (d.onRequirements buffer) fun a => .call (.requirements buffer a)

/-- Allocates memory of a type. -/
def allocate (d : Device σ) (size memoryType : Nat) : Action τ ε σ (Answer Handle) :=
  Action.ask (d.onAllocate size memoryType) fun a => .call (.allocate size memoryType a)

/-- Frees memory. -/
def free (d : Device σ) (memory : Handle) : Action τ ε σ Unit :=
  Action.tell (d.onFree memory) (.call (.free memory))

/-- Binds memory, from an offset on, to a whole buffer. -/
def bind (d : Device σ) (buffer memory : Handle) (offset : Nat) : Action τ ε σ (Answer Unit) :=
  Action.ask (d.onBind buffer memory offset) fun a => .call (.bind buffer memory offset a)

/-- Binds memory to parts of a buffer, and returns when that has taken effect. -/
def bindSparse (d : Device σ) (binding : BufferBinding) : Action τ ε σ (Answer Unit) :=
  Action.ask (d.onBindSparse binding) fun a => .call (.bindSparse binding a)

/-- Maps memory, so that the host can write to it. -/
def map (d : Device σ) (memory : Handle) (offset size : Nat) (flags : Mask) :
    Action τ ε σ (Answer Mapping) :=
  Action.ask (d.onMap memory offset size flags) fun a => .call (.map memory offset size flags a)

/-- Ends the mapping of memory. -/
def unmap (d : Device σ) (memory : Handle) : Action τ ε σ Unit :=
  Action.tell (d.onUnmap memory) (.call (.unmap memory))

/-- Makes host writes to mapped memory visible to the device. -/
def flush (d : Device σ) (ranges : List MappedRange) : Action τ ε σ (Answer Unit) :=
  Action.ask (d.onFlush ranges) fun a => .call (.flush ranges a)

/-- Creates a fence. -/
def createFence (d : Device σ) (flags : Mask) : Action τ ε σ (Answer Handle) :=
  Action.ask (d.onCreateFence flags) fun a => .call (.createFence flags a)

/-- Submits bindings to a queue, which signals the fence when they have taken effect. -/
def queueBindSparse (d : Device σ) (queue : Handle) (bindings : List BufferBinding)
    (fence : Handle) : Action τ ε σ (Answer Unit) :=
  Action.ask (d.onQueueBindSparse queue bindings fence)
    fun a => .call (.queueBindSparse queue bindings fence a)

/-- Waits until fences are signalled. -/
def waitForFences (d : Device σ) (fences : List Handle) (all : Bool) (timeout : Nat) :
    Action τ ε σ (Answer Unit) :=
  Action.ask (d.onWaitForFences fences all timeout)
    fun a => .call (.waitForFences fences all timeout a)

/-- Destroys a fence. -/
def destroyFence (d : Device σ) (fence : Handle) : Action τ ε σ Unit :=
  Action.tell (d.onDestroyFence fence) (.call (.destroyFence fence))

/-- Puts a barrier into a command buffer. -/
def pipelineBarrier (d : Device σ) (commandBuffer : Handle) (barrier : PipelineBarrier) :
    Action τ ε σ Unit :=
  Action.tell (d.onPipelineBarrier commandBuffer barrier)
    (.call (.pipelineBarrier commandBuffer barrier))

/-- Puts a copy between buffers into a command buffer. -/
def copyBuffer (d : Device σ) (commandBuffer source target : Handle) (regions : List CopyRegion) :
    Action τ ε σ Unit :=
  Action.tell (d.onCopyBuffer commandBuffer source target regions)
    (.call (.copyBuffer commandBuffer source target regions))

/-- Stores bytes in the mapped memory of a buffer. -/
def hostWrite (d : Device σ) (buffer memory : Handle) (offset : Nat) (bytes : ByteArray) :
    Action τ ε σ Unit :=
  Action.tell (d.onHostWrite memory offset bytes) (.hostWrite buffer memory offset bytes)

/-! ## Bindings of sparse buffers -/

/-- Submits bindings to a queue and waits until they have taken effect.  The fence
that is waited for does not outlive the call. -/
def bindOnQueue (d : Device σ) (queue : Handle) (binding : BufferBinding) :
    Action τ ε σ (Answer Unit) := do
  match ← d.createFence 0 with
  | .failed code => return .failed code
  | .ok fence =>
    let submitted ← d.queueBindSparse queue [binding] fence
    let result ←
      match submitted with
      | .failed code => pure (.failed code)
      | .ok () => d.waitForFences [fence] true Size.whole
    d.destroyFence fence
    return result

/-- Binds memory to a sparse buffer; on success the binding has taken effect. -/
def bindMemory (d : Device σ) (binding : BufferBinding) : Action τ ε σ (Answer Unit) :=
  match d.sparsePath with
  | .direct => d.bindSparse binding
  | .queued none => return .failed Code.featureNotPresent
  | .queued (some queue) => d.bindOnQueue queue binding

end Device

end GuestReplica
