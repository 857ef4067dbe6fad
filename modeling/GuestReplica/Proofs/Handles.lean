import GuestReplica.Device

set_option autoImplicit false

/-!
# Handles of buffers

A device that creates a buffer names it: `Device.NeverNull` says that it does not
use the handle of no object for that.  A buffer is live from the call that creates it to the call that destroys it.  The
events of an operation say which buffers are live after it, whatever the operation
was.  Devices name live buffers apart: `DistinctBuffers` says that no two buffers
ever share a handle while both of them are live.
-/

namespace GuestReplica

/-- The device names every buffer that it creates. -/
def Device.NeverNull {σ : Type} (d : Device σ) : Prop :=
  ∀ info s, (d.onCreateBuffer info s).1 ≠ .ok Handle.null

/-- The live buffers after an event, the newest first. -/
def Event.liveBuffers (live : List Handle) : Event → List Handle
  | .call (.createBuffer _ (.ok buffer)) => buffer :: live
  | .call (.destroyBuffer buffer) => live.erase buffer
  | _ => live

/-- The live buffers after some events, the newest first. -/
def liveBuffers (live : List Handle) (events : List Event) : List Handle :=
  events.foldl Event.liveBuffers live

/-- No two live buffers share a handle, neither at the start nor after any of the
events. -/
def DistinctBuffers : List Handle → List Event → Prop
  | live, [] => live.Nodup
  | live, event :: rest => live.Nodup ∧ DistinctBuffers (event.liveBuffers live) rest

instance instDecidableDistinctBuffers : (live : List Handle) → (events : List Event) →
    Decidable (DistinctBuffers live events)
  | live, [] => inferInstanceAs (Decidable live.Nodup)
  | live, event :: rest =>
    have := instDecidableDistinctBuffers (event.liveBuffers live) rest
    inferInstanceAs (Decidable (_ ∧ _))

@[simp] theorem liveBuffers_nil (live : List Handle) : liveBuffers live [] = live := rfl

@[simp] theorem liveBuffers_cons (live : List Handle) (event : Event) (rest : List Event) :
    liveBuffers live (event :: rest) = liveBuffers (event.liveBuffers live) rest := rfl

@[simp] theorem liveBuffers_append (live : List Handle) (a b : List Event) :
    liveBuffers live (a ++ b) = liveBuffers (liveBuffers live a) b :=
  List.foldl_append

/-- The events neither create nor destroy a buffer. -/
def LeaveBuffers (events : List Event) : Prop := ∀ live, liveBuffers live events = live

theorem leaveBuffers_nil : LeaveBuffers [] := liveBuffers_nil

theorem LeaveBuffers.append {a b : List Event} (ha : LeaveBuffers a) (hb : LeaveBuffers b) :
    LeaveBuffers (a ++ b) := by
  intro live
  rw [liveBuffers_append, ha live, hb live]

theorem DistinctBuffers.nodup {live : List Handle} {events : List Event}
    (h : DistinctBuffers live events) : live.Nodup := by
  cases events with
  | nil => exact h
  | cons event rest => exact h.1

theorem distinctBuffers_append {live : List Handle} {a b : List Event} :
    DistinctBuffers live (a ++ b) ↔
      DistinctBuffers live a ∧ DistinctBuffers (liveBuffers live a) b := by
  induction a generalizing live with
  | nil => exact ⟨fun h => ⟨h.nodup, h⟩, fun h => h.2⟩
  | cons event rest ih =>
    simp only [List.cons_append, DistinctBuffers, liveBuffers_cons, ih, and_assoc]

end GuestReplica
