import GuestReplica.Failure

set_option autoImplicit false

/-!
# Log notices

What the replica tells a log.  A notice is a cause with its details; its level
and its text are functions of it.
-/

namespace GuestReplica

/-- How device memory gets attached to the buffer. -/
inductive Strategy where
  /-- many allocations of one size, bound one after the other -/
  | sparse
  /-- one allocation for the whole buffer -/
  | plain
  deriving DecidableEq, Repr, Inhabited

/-- What a strategy is called in texts. -/
def Strategy.name : Strategy → String
  | .sparse => "Sparse"
  | .plain => "Plain"

/-- How much a notice matters. -/
inductive Level where
  | error
  | debug
  | trace
  deriving DecidableEq, Repr, Inhabited

/-- Something worth a line in a log. -/
inductive Notice where
  | bufferCreated (size : Nat) (strategy : Strategy) (memoryType : Nat)
  | strategyFailed (strategy : Strategy) (error : CreationError)
  | creationFailed (size : Nat) (error : CreationError)
  | uploadFailed (error : UploadError)
  | flushFailed (error : StagingError)
  | guestRead (address length : Nat)
  deriving DecidableEq, Repr, Inhabited

namespace Notice

/-- Failures for the user are errors; the rest is for those who look closer. -/
def level : Notice → Level
  | .bufferCreated _ _ _ | .strategyFailed _ _ => .debug
  | .creationFailed _ _ | .uploadFailed _ | .flushFailed _ => .error
  | .guestRead _ _ => .trace

/-- Whole megabytes, rounded down. -/
def megabytes (size : Nat) : Nat := size >>> 20

/-- The text of a notice. -/
def message : Notice → String
  | .bufferCreated size strategy memoryType =>
    s!"Shared memory: {megabytes size} MB buffer created with the {strategy.name} strategy " ++
      s!"using memory type {memoryType}"
  | .strategyFailed strategy error =>
    s!"Shared memory: {strategy.name} buffer allocation strategy failed: {error.message}"
  | .creationFailed size error =>
    s!"Shared memory: Failed to create the {megabytes size} MB Vulkan buffer: {error.message}"
  | .uploadFailed error =>
    s!"Shared memory: Failed to get a Vulkan upload buffer: {error.message}"
  | .flushFailed error =>
    s!"Shared memory: Failed to flush the upload buffer writes: {error.message}"
  | .guestRead _ _ => "guest memory read"

end Notice

end GuestReplica
