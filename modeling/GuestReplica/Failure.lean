import GuestReplica.Device.Call

set_option autoImplicit false

/-!
# Failures that are handed back

An operation that fails leaves nothing half done: it cleans up, and answers with
one of the causes below.  Each cause has a text, and the causes that the device
reported carry its result code.
-/

namespace GuestReplica

/-- Why the buffer of the replica could not be created. -/
inductive CreationError where
  | bufferCreation (code : Code)
  /-- no memory type will do for the buffer and is local to the device -/
  | noDeviceLocalMemoryType
  | memoryAllocation (code : Code)
  | memoryBinding (code : Code)
  deriving DecidableEq, Repr, Inhabited

namespace CreationError

/-- What the failure is called in answers and log lines. -/
def message : CreationError → String
  | .bufferCreation _ => "failed to create the buffer"
  | .noDeviceLocalMemoryType => "no device-local memory type is compatible with the buffer"
  | .memoryAllocation _ => "failed to allocate memory for the buffer"
  | .memoryBinding _ => "failed to bind memory to the buffer"

/-- The result code of the device, if the device reported the failure. -/
def code? : CreationError → Option Code
  | .bufferCreation code | .memoryAllocation code | .memoryBinding code => some code
  | .noDeviceLocalMemoryType => none

end CreationError

/-- Why no staging memory could be had, or could not be flushed. -/
inductive StagingError where
  /-- every page is in use and the pool may create no other -/
  | outOfPages
  /-- no memory type will do for a staging buffer and is visible to the host -/
  | noHostVisibleMemoryType
  /-- the device reported a failure -/
  | device (code : Code)
  deriving DecidableEq, Repr, Inhabited

namespace StagingError

/-- What the failure is called in answers and log lines. -/
def message : StagingError → String
  | .outOfPages => "the staging pool has no free pages left"
  | .noHostVisibleMemoryType =>
    "no host-visible memory type is compatible with a staging buffer"
  | .device _ => "a runtime error occurred"

/-- The result code of the device, if the device reported the failure. -/
def code? : StagingError → Option Code
  | .device code => some code
  | .outOfPages | .noHostVisibleMemoryType => none

end StagingError

/-- Why an upload stopped early. -/
inductive UploadError where
  | stagingAllocation (cause : StagingError)
  deriving DecidableEq, Repr, Inhabited

/-- What the failure is called in answers and log lines. -/
def UploadError.message : UploadError → String
  | .stagingAllocation _ => "failed to allocate staging memory"

end GuestReplica
