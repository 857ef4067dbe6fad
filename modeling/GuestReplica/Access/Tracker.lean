import GuestReplica.Access.Mode
import GuestReplica.Size
import GuestReplica.Violation

set_option autoImplicit false

/-!
# Tracking of the last access

A tracker remembers how the buffer was used last and which bytes that use may
have written.  Declaring the next use answers with the transition that has to be
made visible first, if any: the whole buffer when the mode changes, the pending
bytes when the mode stays and something was written.
-/

namespace GuestReplica.Access

/-- What a barrier has to cover before the access that was declared. -/
structure Transition where
  source : Mode
  target : Mode
  span : Span
  deriving DecidableEq, Repr, Inhabited

/-- The transition reaches from the first byte to the end of the buffer. -/
def Transition.coversAll (t : Transition) : Bool := t.span = Span.all

/-- The last use of a buffer of `size` bytes. -/
structure Tracker where
  size : Nat
  mode : Mode
  pending : Span
  deriving DecidableEq, Repr, Inhabited

namespace Tracker

/-- A buffer that nothing has used: the first use is expected to fill it. -/
def new (size : Nat) : Tracker := ⟨size, .transferDestination, Span.empty⟩

/-- Back to the start, with the same buffer size. -/
def reset (t : Tracker) : Tracker := new t.size

/-- What has to become visible before the buffer is used in `mode`. -/
def transition? (t : Tracker) (mode : Mode) : Option Transition :=
  if mode ≠ t.mode then
    some ⟨t.mode, mode, Span.all⟩
  else if t.pending.IsEmpty then
    none
  else
    some ⟨t.mode, mode, t.pending⟩

/-- A use in `mode` may write the bytes of `written` that the buffer has. -/
def Allows (t : Tracker) (mode : Mode) (written : Span) : Prop :=
  mode.isWrite = true ∨ (written.clamp t.size).IsEmpty

instance (t : Tracker) (mode : Mode) (written : Span) : Decidable (t.Allows mode written) :=
  inferInstanceAs (Decidable (_ ∨ _))

/-- The tracker after a use in `mode` that writes `written`. -/
def advance (t : Tracker) (mode : Mode) (written : Span) : Tracker :=
  { t with mode := mode, pending := written.clamp t.size }

/-- Declares the next use.  A read that writes is refused, and changes nothing. -/
def declare (t : Tracker) (mode : Mode) (written : Span) :
    Except Violation (Option Transition × Tracker) :=
  if t.Allows mode written then
    .ok (t.transition? mode, t.advance mode written)
  else
    let span := written.clamp t.size
    .error (.readWrites span.start span.stop)

theorem declare_eq_ok_iff {t t' : Tracker} {mode : Mode} {written : Span}
    {transition : Option Transition} :
    t.declare mode written = .ok (transition, t') ↔
      t.Allows mode written ∧ t.transition? mode = transition ∧
        t.advance mode written = t' := by
  unfold declare
  split <;> simp [*]

theorem transition?_eq_none_iff {t : Tracker} {mode : Mode} :
    t.transition? mode = none ↔ mode = t.mode ∧ t.pending.IsEmpty := by
  unfold transition?
  split
  · simp [*]
  · split <;> simp_all

@[simp] theorem advance_size (t : Tracker) (mode : Mode) (written : Span) :
    (t.advance mode written).size = t.size := rfl

@[simp] theorem advance_mode (t : Tracker) (mode : Mode) (written : Span) :
    (t.advance mode written).mode = mode := rfl

@[simp] theorem advance_pending (t : Tracker) (mode : Mode) (written : Span) :
    (t.advance mode written).pending = written.clamp t.size := rfl

end Tracker

end GuestReplica.Access
