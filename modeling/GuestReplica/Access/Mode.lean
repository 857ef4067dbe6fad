import GuestReplica.Mask

set_option autoImplicit false

/-!
# Ways to access the replica's buffer

The device uses the buffer in one of four modes.  Each mode has a
synchronisation scope: the pipeline stages and the memory accesses that stand on
its side of a barrier.
-/

namespace GuestReplica.Access

/-- How the device uses the buffer. -/
inductive Mode where
  /-- index fetch, shader reads and transfers out of the buffer -/
  | read
  /-- writes by compute shaders -/
  | computeWrite
  /-- guest draws that read and write the buffer from their shaders -/
  | guestDraw
  /-- copies of guest memory into the buffer -/
  | transferDestination
  deriving DecidableEq, Repr, Inhabited

/-- The pipeline stages and memory accesses on one side of a barrier. -/
structure Scope where
  stages : Mask
  access : Mask
  deriving DecidableEq, Repr, Inhabited

namespace Mode

/-- The device may change the buffer in this mode. -/
def isWrite : Mode → Bool
  | .read => false
  | .computeWrite | .guestDraw | .transferDestination => true

/-- The scope of a mode on a device without tessellation. -/
def baseScope : Mode → Scope
  | .read =>
    { stages := Stage.graphics ||| Stage.computeShader ||| Stage.transfer
      access := MemoryAccess.indexRead ||| MemoryAccess.shaderRead ||| MemoryAccess.transferRead }
  | .computeWrite =>
    { stages := Stage.computeShader
      access := MemoryAccess.shaderRead }
  | .guestDraw =>
    { stages := Stage.graphics
      access := MemoryAccess.indexRead ||| MemoryAccess.shaderRead ||| MemoryAccess.shaderWrite }
  | .transferDestination =>
    { stages := Stage.transfer
      access := MemoryAccess.transferWrite }

/-- The scope of a mode.  With tessellation, every scope that has all stages of a
draw has the evaluation stage as well. -/
def scope (mode : Mode) (tessellation : Bool) : Scope :=
  let base := mode.baseScope
  if tessellation ∧ base.stages.Covers Stage.graphics then
    { base with stages := base.stages ||| Stage.tessellationEvaluation }
  else
    base

theorem isWrite_eq_false_iff {mode : Mode} : mode.isWrite = false ↔ mode = .read := by
  cases mode <;> simp [isWrite]

@[simp] theorem scope_access (mode : Mode) (tessellation : Bool) :
    (mode.scope tessellation).access = mode.baseScope.access := by
  unfold scope
  dsimp only
  split <;> rfl

end Mode

end GuestReplica.Access
