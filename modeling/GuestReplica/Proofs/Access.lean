import GuestReplica.Access.Tracker

set_option autoImplicit false

/-!
# What transitions make available

A use that writes the buffer does so at certain stages and by a certain access.  The
scope of its mode has these stages, and it has the access for all modes but one: the
scope of compute writes only reads.  Whatever a use has written lies in the span of
the next transition, and that transition leaves the mode of the use.
-/

namespace GuestReplica.Access

namespace Mode

/-- The stages that write the buffer in a mode, and the access by which they do so. -/
def writeScope : Mode → (tessellation : Bool) → Scope
  | .read, _ => ⟨0, 0⟩
  | .computeWrite, _ => ⟨Stage.computeShader, MemoryAccess.shaderWrite⟩
  | .guestDraw, false => ⟨Stage.vertexShader ||| Stage.fragmentShader, MemoryAccess.shaderWrite⟩
  | .guestDraw, true =>
    ⟨Stage.vertexShader ||| Stage.tessellationEvaluation ||| Stage.fragmentShader,
      MemoryAccess.shaderWrite⟩
  | .transferDestination, _ => ⟨Stage.transfer, MemoryAccess.transferWrite⟩

theorem stages_scope_covers (mode : Mode) (tessellation : Bool) :
    (mode.scope tessellation).stages.Covers (mode.writeScope tessellation).stages := by
  cases mode <;> cases tessellation <;> decide

/-- The scope of compute writes lacks the access by which they write. -/
theorem access_scope_covers_iff (mode : Mode) (tessellation : Bool) :
    (mode.scope tessellation).access.Covers (mode.writeScope tessellation).access ↔
      mode ≠ .computeWrite := by
  cases mode <;> cases tessellation <;> decide

/-- Uploads write by transfers and by nothing else. -/
@[simp] theorem scope_transferDestination (tessellation : Bool) :
    transferDestination.scope tessellation = ⟨Stage.transfer, MemoryAccess.transferWrite⟩ := by
  cases tessellation <;> decide

end Mode

/-- The transition after a use that has written something leaves the mode of that use,
and spans at least what was written. -/
theorem Tracker.transition?_of_pending {t : Tracker} (hpending : ¬ t.pending.IsEmpty)
    (mode : Mode) :
    ∃ transition, t.transition? mode = some transition ∧ transition.source = t.mode ∧
      (transition.span = Span.all ∨ transition.span = t.pending) := by
  unfold transition?
  split
  · exact ⟨_, rfl, rfl, .inl rfl⟩
  · exact ⟨_, rfl, rfl, .inr rfl⟩

end GuestReplica.Access
