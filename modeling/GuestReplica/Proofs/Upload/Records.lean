import Mathlib.Algebra.GroupWithZero.Nat
import GuestReplica.Upload

set_option autoImplicit false

/-!
# What events say about an upload

The claims, look-ups, traces of reads and host writes among some events, and the
regions of the copies that they record, each with the buffer that it is read from.
-/

namespace GuestReplica

namespace Event

/-- The address and the length that are claimed, and whether the bytes are up to date
already. -/
def mark? : Event → Option (Nat × Nat × Bool)
  | .marked address length postCopy => some (address, length, postCopy)
  | _ => none

/-- The address and the length that are looked up. -/
def lookup? : Event → Option (Nat × Nat)
  | .lookup address length => some (address, length)
  | _ => none

/-- The event traces a guest read. -/
def isTrace : Event → Bool
  | .guestRead _ _ | .notice (.guestRead _ _) => true
  | _ => false

/-- The bytes that the host stores, with the buffer and the offset. -/
def write? : Event → Option (Handle × Nat × ByteArray)
  | .hostWrite buffer _ offset bytes => some (buffer, offset, bytes)
  | _ => none

end Event

/-- The regions of a copy, each with the buffer that it is read from. -/
def Command.sourced : Command → List (Handle × CopyRegion)
  | .barrier _ => []
  | .copy source _ regions => regions.map fun region => (source, region)

def marksOf (events : List Event) : List (Nat × Nat × Bool) := events.filterMap Event.mark?

def lookupsOf (events : List Event) : List (Nat × Nat) := events.filterMap Event.lookup?

/-- The number of bytes that are looked up. -/
def lookedUp (events : List Event) : Nat := ((lookupsOf events).map (·.2)).sum

def tracesOf (events : List Event) : List Event := events.filter Event.isTrace

def writesOf (events : List Event) : List (Handle × Nat × ByteArray) :=
  events.filterMap Event.write?

/-- The regions of all recorded copies, in order, with their sources. -/
def sourcedOf (events : List Event) : List (Handle × CopyRegion) :=
  (commandsOf events).flatMap Command.sourced

/-- The regions of all recorded copies, in order. -/
def regionsOf (events : List Event) : List CopyRegion := (sourcedOf events).map (·.2)

section

variable (a b : List Event)

@[simp] theorem marksOf_append : marksOf (a ++ b) = marksOf a ++ marksOf b :=
  List.filterMap_append

@[simp] theorem lookupsOf_append : lookupsOf (a ++ b) = lookupsOf a ++ lookupsOf b :=
  List.filterMap_append

@[simp] theorem lookedUp_append : lookedUp (a ++ b) = lookedUp a + lookedUp b := by
  simp [lookedUp]

@[simp] theorem tracesOf_append : tracesOf (a ++ b) = tracesOf a ++ tracesOf b :=
  List.filter_append a b

@[simp] theorem writesOf_append : writesOf (a ++ b) = writesOf a ++ writesOf b :=
  List.filterMap_append

@[simp] theorem sourcedOf_append : sourcedOf (a ++ b) = sourcedOf a ++ sourcedOf b := by
  simp [sourcedOf]

end

/-- Calls of the device are nothing else. -/
theorem filterMap_of_calls {α : Type} {f : Event → Option α} {events : List Event}
    (hf : ∀ call, f (.call call) = none) (h : ∀ event ∈ events, ∃ call, event = .call call) :
    events.filterMap f = [] := by
  rw [List.filterMap_eq_nil_iff]
  intro event hmem
  obtain ⟨call, rfl⟩ := h event hmem
  exact hf call

theorem lookedUp_of_calls {events : List Event} (h : ∀ event ∈ events, ∃ call, event = .call call) :
    lookedUp events = 0 := by
  rw [lookedUp, lookupsOf, filterMap_of_calls (fun _ => rfl) h]
  rfl

theorem tracesOf_of_calls {events : List Event} (h : ∀ event ∈ events, ∃ call, event = .call call) :
    tracesOf events = [] := by
  rw [tracesOf, List.filter_eq_nil_iff]
  intro event hmem
  obtain ⟨call, rfl⟩ := h event hmem
  exact Bool.false_ne_true

end GuestReplica
