import GuestReplica.Notice

set_option autoImplicit false

/-!
# Events: what an operation does to the world

An operation leaves a list of events, in the order in which they happened: calls
of the device with their answers, bytes that the host writes into mapped memory,
commands that were recorded, and what the replica tells its surroundings.  All
that can be observed of an operation besides its answer is in this list.
-/

namespace GuestReplica

/-- Bytes are compared as the core library compares them, whatever else is imported. -/
instance (priority := high) instDecidableEqBytes : DecidableEq ByteArray :=
  ByteArray.instDecidableEq

/-- One thing that happened. -/
inductive Event where
  /-- a call of the device was answered -/
  | call (call : Call)
  /-- the host stored bytes in the mapped memory of a buffer -/
  | hostWrite (buffer memory : Handle) (offset : Nat) (bytes : ByteArray)
  /-- a command was recorded -/
  | command (command : Command)
  /-- bytes were claimed to be up to date; `postCopy` if they already are -/
  | marked (address length : Nat) (postCopy : Bool)
  /-- the guest's memory was looked up -/
  | lookup (address length : Nat)
  /-- a range of guest memory is about to be read -/
  | guestRead (address length : Nat)
  /-- a line for the log -/
  | notice (notice : Notice)
  deriving DecidableEq

namespace Event

/-- The command that was recorded, if the event records one. -/
def command? : Event → Option Command
  | .command c => some c
  | _ => none

/-- The call that was answered, if the event is one. -/
def call? : Event → Option Call
  | .call c => some c
  | _ => none

end Event

/-- The recorded commands, in order. -/
def commandsOf (events : List Event) : List Command := events.filterMap Event.command?

/-- The calls of the device, in order. -/
def callsOf (events : List Event) : List Call := events.filterMap Event.call?

@[simp] theorem commandsOf_nil : commandsOf [] = [] := rfl

@[simp] theorem commandsOf_append (a b : List Event) :
    commandsOf (a ++ b) = commandsOf a ++ commandsOf b :=
  List.filterMap_append

@[simp] theorem callsOf_nil : callsOf [] = [] := rfl

@[simp] theorem callsOf_append (a b : List Event) :
    callsOf (a ++ b) = callsOf a ++ callsOf b :=
  List.filterMap_append

end GuestReplica
