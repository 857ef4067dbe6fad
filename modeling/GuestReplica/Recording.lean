import GuestReplica.Device

set_option autoImplicit false

/-!
# Recordings: commands kept for later

A recording keeps commands until it is known which command buffer of the device
they belong to.  Replaying issues each of them once, in order, and keeps the
recording as it is.
-/

namespace GuestReplica

/-- Commands in the order in which they came. -/
structure Recording where
  commands : List Command
  deriving DecidableEq, Repr, Inhabited

namespace Recording

variable {τ ε σ : Type}

/-- A recording without commands. -/
def empty : Recording := ⟨[]⟩

/-- There is nothing to replay. -/
def isEmpty (r : Recording) : Bool := r.commands.isEmpty

/-- Adds a command at the end.  A copy without regions is dropped. -/
def record (r : Recording) (command : Command) : Recording :=
  if command.isEmptyCopy then r else ⟨r.commands ++ [command]⟩

/-- Adds the commands among some events, in order. -/
def absorb (r : Recording) (events : List Event) : Recording :=
  (commandsOf events).foldl record r

/-- The family index that says that a buffer does not change hands. -/
def familyIgnored : Nat := 1 <<< 32 - 1

/-- A barrier as a command buffer takes it: a single dependency, on one buffer. -/
def pipelineBarrier (barrier : Barrier) : PipelineBarrier where
  sourceStages := barrier.source.stages
  targetStages := barrier.target.stages
  flags := 0
  memoryBarriers := 0
  buffers :=
    [{ sourceAccess := barrier.source.access
       targetAccess := barrier.target.access
       sourceFamily := familyIgnored
       targetFamily := familyIgnored
       buffer := barrier.buffer
       offset := barrier.offset
       size := barrier.size }]
  imageBarriers := 0

/-- Issues one command on a command buffer. -/
def issue (d : Device σ) (commandBuffer : Handle) : Command → Action τ ε σ Unit
  | .barrier barrier => d.pipelineBarrier commandBuffer (pipelineBarrier barrier)
  | .copy source target regions => d.copyBuffer commandBuffer source target regions

/-- Issues commands on a command buffer, in order. -/
def issueAll (d : Device σ) (commandBuffer : Handle) : List Command → Action τ ε σ Unit
  | [] => return ()
  | command :: rest => do
    issue d commandBuffer command
    issueAll d commandBuffer rest

/-- Issues every command on a command buffer of the device. -/
def replay (d : Device σ) (r : Recording) (commandBuffer : Handle) : Action τ ε σ Unit :=
  issueAll d commandBuffer r.commands

theorem commands_foldl_record (commands : List Command) (r : Recording) :
    (commands.foldl record r).commands =
      r.commands ++ commands.filter fun c => !c.isEmptyCopy := by
  induction commands generalizing r with
  | nil => simp
  | cons c rest ih =>
    rw [List.foldl_cons, ih]
    cases h : c.isEmptyCopy <;> simp [record, h]

end Recording

end GuestReplica
