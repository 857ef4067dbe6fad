import GuestReplica.Device

set_option autoImplicit false

/-!
# A simulated device

A device without hardware.  It hands out handles in ascending order, keeps what is
written to its memory and copied between its buffers, and can be told which of
its calls fail, and how.
-/

namespace GuestReplica.Simulated

/-! ## Faults -/

/-- The entry points that can be told to fail. -/
inductive Entry where
  | createBuffer
  | allocate
  | bind
  | bindSparse
  | map
  | flush
  | createFence
  | waitForFences
  deriving DecidableEq, Repr, Inhabited

/-- Lets some calls of an entry point fail: `times` of them, or all when that is
zero, starting with the `first` one since the fault was added. -/
structure Fault where
  entry : Entry
  first : Nat
  times : Nat
  code : Code
  /-- the calls since the fault was added -/
  seen : Nat
  deriving DecidableEq, Repr, Inhabited

namespace Fault

/-- The next call of the entry point fails. -/
def IsDue (f : Fault) : Prop :=
  f.first ≤ f.seen + 1 ∧ (f.times = 0 ∨ f.seen + 1 < f.first + f.times)

instance (f : Fault) : Decidable f.IsDue :=
  inferInstanceAs (Decidable (_ ∧ _))

/-- Counts a call of an entry point. -/
def count (entry : Entry) (f : Fault) : Fault :=
  if f.entry = entry then { f with seen := f.seen + 1 } else f

end Fault

/-! ## Contents -/

/-- Bytes that were stored at an offset. -/
structure Patch where
  offset : Nat
  bytes : ByteArray
  deriving Inhabited

/-- What was stored in a run of zeros, the latest first. -/
abbrev Contents : Type := List Patch

namespace Contents

/-- A run of zeros. -/
def zeros (length : Nat) : ByteArray :=
  Nat.fold length (fun _ _ bytes => bytes.push 0) (ByteArray.emptyWithCapacity length)

/-- Puts the part of a patch that lies in a window over the bytes of the window. -/
def overlay (offset : Nat) (window : ByteArray) (patch : Patch) : ByteArray :=
  let start := max offset patch.offset
  let stop := min (offset + window.size) (patch.offset + patch.bytes.size)
  if start < stop then
    patch.bytes.copySlice (start - patch.offset) window (start - offset) (stop - start)
  else
    window

/-- The bytes of a window. -/
def read (contents : Contents) (offset length : Nat) : ByteArray :=
  contents.foldr (fun patch window => overlay offset window patch) (zeros length)

/-- Stores bytes at an offset. -/
def write (contents : Contents) (offset : Nat) (bytes : ByteArray) : Contents :=
  ⟨offset, bytes⟩ :: contents

end Contents

/-! ## State -/

/-- What the device says about memory. -/
structure Config where
  alignment : Nat := 65536
  /-- memory that a buffer needs beyond its own size -/
  extra : Nat := 0
  types : Mask := 7
  deriving DecidableEq, Repr, Inhabited

/-- A live buffer. -/
structure Buffer where
  handle : Handle
  size : Nat
  memory : Option Handle
  /-- what copies stored in the buffer itself -/
  contents : Contents
  deriving Inhabited

/-- Live memory. -/
structure Memory where
  handle : Handle
  size : Nat
  isMapped : Bool
  /-- the memory was mapped at least once, so it has bytes -/
  hasBytes : Bool
  contents : Contents
  deriving Inhabited

/-- The state of the device.  Live objects are kept with the newest first. -/
structure State where
  config : Config
  lastHandle : Handle
  buffers : List Buffer
  memory : List Memory
  fences : List Handle
  /-- the oldest first -/
  faults : List Fault
  deriving Inhabited

/-- The largest memory that can be mapped. -/
def mapLimit : Nat := 64 <<< 20

/-- The longest run of bytes that can be read or copied at once. -/
def readLimit : Nat := 16 <<< 20

namespace State

/-- A device that was not used yet. -/
def new (config : Config) : State := ⟨config, 0, [], [], [], []⟩

/-- Adds a fault, whose calls are counted from now on. -/
def addFault (s : State) (entry : Entry) (first times : Nat) (code : Code) : State :=
  { s with faults := s.faults ++ [⟨entry, first, times, code, 0⟩] }

/-- A live buffer by its handle. -/
def buffer? (s : State) (handle : Handle) : Option Buffer :=
  s.buffers.find? (·.handle = handle)

/-- Live memory by its handle. -/
def memory? (s : State) (handle : Handle) : Option Memory :=
  s.memory.find? (·.handle = handle)

/-- Changes a live buffer. -/
def updateBuffer (s : State) (handle : Handle) (f : Buffer → Buffer) : State :=
  { s with buffers := s.buffers.map fun b => if b.handle = handle then f b else b }

/-- Changes live memory. -/
def updateMemory (s : State) (handle : Handle) (f : Memory → Memory) : State :=
  { s with memory := s.memory.map fun m => if m.handle = handle then f m else m }

/-- The memory whose bytes a buffer shows. -/
def backing? (s : State) (b : Buffer) : Option Memory :=
  (b.memory.bind s.memory?).filter (·.hasBytes)

/-- The bytes of a buffer: those of its memory if that has any, else its own.  No
more than `readLimit` of them are read. -/
def read? (s : State) (handle : Handle) (offset length : Nat) : Option ByteArray :=
  (s.buffer? handle).map fun b =>
    match s.backing? b with
    | some m => m.contents.read offset (min length readLimit)
    | none => b.contents.read offset (min length readLimit)

/-- The handles of the live buffers, in ascending order. -/
def liveBuffers (s : State) : List Handle := (s.buffers.map (·.handle)).reverse

/-- The handles of the live memory, in ascending order. -/
def liveMemory (s : State) : List Handle := (s.memory.map (·.handle)).reverse

/-- The handles of the memory that is mapped, in ascending order. -/
def mappedMemory (s : State) : List Handle :=
  ((s.memory.filter (·.isMapped)).map (·.handle)).reverse

/-- The handles of the live fences, in ascending order. -/
def liveFences (s : State) : List Handle := s.fences.reverse

/-! ## Calls -/

/-- Counts a call of an entry point, and finds the code with which it fails. -/
def strike (s : State) (entry : Entry) : Option Code × State :=
  let due := s.faults.find? fun f => f.entry = entry ∧ f.IsDue
  (due.map (·.code), { s with faults := s.faults.map (Fault.count entry) })

/-- A call that fails when a fault says so, and otherwise has an effect and an answer. -/
def unlessFaulty {α : Type} (entry : Entry) (effect : State → Answer α × State) (s : State) :
    Answer α × State :=
  match s.strike entry with
  | (some code, s) => (.failed code, s)
  | (none, s) => effect s

/-- A call that changes nothing unless it fails. -/
def succeed (s : State) : Answer Unit × State := (.ok (), s)

/-- Creates an object with the next handle. -/
def createObject (add : Handle → State → State) (s : State) : Answer Handle × State :=
  let handle := s.lastHandle + 1
  (.ok handle, add handle { s with lastHandle := handle })

/-- A new buffer of a size. -/
def addBuffer (size : Nat) (handle : Handle) (s : State) : State :=
  { s with buffers := ⟨handle, size, none, []⟩ :: s.buffers }

/-- New memory of a size. -/
def addMemory (size : Nat) (handle : Handle) (s : State) : State :=
  { s with memory := ⟨handle, size, false, false, []⟩ :: s.memory }

/-- A new fence. -/
def addFence (handle : Handle) (s : State) : State :=
  { s with fences := handle :: s.fences }

/-- What memory for a buffer has to be like.  An unknown buffer counts as empty. -/
def requirements (buffer : Handle) (s : State) : Requirements :=
  let size := ((s.buffer? buffer).map (·.size)).getD 0
  let rounded := min (Size.roundUp size (max s.config.alignment 1)) Size.whole
  ⟨min (rounded + s.config.extra) Size.whole, s.config.alignment, s.config.types⟩

/-- Maps memory, if it is not too large. -/
def mapMemory (memory : Handle) (s : State) : Answer Mapping × State :=
  match s.memory? memory with
  | none => (.failed Code.memoryMapFailed, s)
  | some m =>
    if mapLimit < m.size then
      (.failed Code.memoryMapFailed, s)
    else
      (.ok .address,
        s.updateMemory memory fun m => { m with isMapped := true, hasBytes := true })

/-- A failure with code zero is no failure: the mapping is at the null address. -/
def nullWhenZero : Answer Mapping → Answer Mapping
  | .failed code => if code = 0 then .ok .null else .failed code
  | .ok mapping => .ok mapping

/-- Copies one region between buffers.  Long regions and unknown buffers are skipped. -/
def copyRegion (source target : Handle) (s : State) (region : CopyRegion) : State :=
  if readLimit < region.size then s
  else
    match s.read? source region.sourceOffset region.size with
    | none => s
    | some bytes =>
      s.updateBuffer target fun b =>
        { b with contents := b.contents.write region.targetOffset bytes }

end State

/-- The simulated device, with a path for the bindings of sparse buffers. -/
def device (sparsePath : SparsePath) : Device State where
  sparsePath := sparsePath
  onCreateBuffer info :=
    State.unlessFaulty .createBuffer (State.createObject (State.addBuffer info.size))
  onDestroyBuffer buffer s := { s with buffers := s.buffers.filter (·.handle ≠ buffer) }
  onRequirements buffer s := (s.requirements buffer, s)
  onAllocate size _ :=
    State.unlessFaulty .allocate (State.createObject (State.addMemory size))
  onFree memory s := { s with memory := s.memory.filter (·.handle ≠ memory) }
  onBind buffer memory _ :=
    State.unlessFaulty .bind fun s =>
      (.ok (), s.updateBuffer buffer fun b => { b with memory := some memory })
  onBindSparse _ := State.unlessFaulty .bindSparse State.succeed
  onMap memory _ _ _ s :=
    let answered := State.unlessFaulty .map (State.mapMemory memory) s
    (State.nullWhenZero answered.1, answered.2)
  onUnmap memory s := s.updateMemory memory fun m => { m with isMapped := false }
  onFlush _ := State.unlessFaulty .flush State.succeed
  onCreateFence _ := State.unlessFaulty .createFence (State.createObject State.addFence)
  onQueueBindSparse _ _ _ := State.unlessFaulty .bindSparse State.succeed
  onWaitForFences _ _ _ := State.unlessFaulty .waitForFences State.succeed
  onDestroyFence fence s := { s with fences := s.fences.filter (· ≠ fence) }
  onPipelineBarrier _ _ s := s
  onCopyBuffer _ source target regions s := regions.foldl (State.copyRegion source target) s
  onHostWrite memory offset bytes s :=
    s.updateMemory memory fun m => { m with contents := m.contents.write offset bytes }

end GuestReplica.Simulated
