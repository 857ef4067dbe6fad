import GuestReplica.Access.Tracker

set_option autoImplicit false

/-!
# Commands for the device

The replica does not talk to a command buffer of the device.  It states what has
to happen as commands: barriers on its buffer, and copies out of staging buffers
into it.
-/

namespace GuestReplica

/-- An object of the device.  Zero names none. -/
abbrev Handle : Type := Nat

/-- The handle that names no object. -/
def Handle.null : Handle := 0

/-- A memory dependency on a range of one buffer.  `size` may be `Size.whole`. -/
structure Barrier where
  source : Access.Scope
  target : Access.Scope
  buffer : Handle
  offset : Nat
  size : Nat
  deriving DecidableEq, Repr, Inhabited

/-- The dependency that makes a transition of a buffer visible. -/
def Barrier.ofTransition (transition : Access.Transition) (tessellation : Bool)
    (buffer : Handle) : Barrier where
  source := transition.source.scope tessellation
  target := transition.target.scope tessellation
  buffer := buffer
  offset := transition.span.start
  size := transition.span.size

/-- `size` bytes that go from `sourceOffset` in one buffer to `targetOffset` in another. -/
structure CopyRegion where
  sourceOffset : Nat
  targetOffset : Nat
  size : Nat
  deriving DecidableEq, Repr, Inhabited

/-- What the device is asked to do, in the order of recording. -/
inductive Command where
  | barrier (barrier : Barrier)
  | copy (source target : Handle) (regions : List CopyRegion)
  deriving DecidableEq, Repr, Inhabited

/-- A copy without regions moves nothing. -/
def Command.isEmptyCopy : Command → Bool
  | .barrier _ => false
  | .copy _ _ regions => regions.isEmpty

end GuestReplica
