set_option autoImplicit false

/-!
# Bit masks of the device

Pipeline stages, memory accesses, memory types and creation flags all travel as
words of 32 bits.  This module names the bits that are used here, says when one
mask covers another, and finds the lowest bit that is set.
-/

namespace GuestReplica

/-- A word of 32 flags. -/
abbrev Mask : Type := BitVec 32

namespace Mask

/-- Every flag of `part` is set in `m`. -/
def Covers (m part : Mask) : Prop := m &&& part = part

instance (m part : Mask) : Decidable (m.Covers part) :=
  inferInstanceAs (Decidable (_ = _))

/-- The index of the lowest flag that is set. -/
def lowest? (m : Mask) : Option Nat := (List.range 32).find? m.getLsbD

/-- The mask of the indices below 32 that satisfy `p`. -/
def ofIndices (p : Nat → Bool) : Mask :=
  (List.range 32).foldl (fun m i => if p i then m ||| BitVec.twoPow 32 i else m) 0

theorem covers_iff {m part : Mask} :
    m.Covers part ↔ ∀ i, part.getLsbD i = true → m.getLsbD i = true := by
  unfold Covers
  constructor
  · intro h i hi
    rw [← h, BitVec.getLsbD_and, Bool.and_eq_true] at hi
    exact hi.1
  · intro h
    apply BitVec.eq_of_getLsbD_eq
    intro i _
    rw [BitVec.getLsbD_and]
    cases hp : part.getLsbD i with
    | false => simp
    | true => simp [h i hp]

theorem lowest?_eq_some_iff {m : Mask} {i : Nat} :
    m.lowest? = some i ↔ m.getLsbD i = true ∧ ∀ j < i, m.getLsbD j = false := by
  unfold lowest?
  rw [List.find?_range_eq_some]
  constructor
  · rintro ⟨hi, _, hlt⟩
    exact ⟨hi, by simpa using hlt⟩
  · rintro ⟨hi, hlt⟩
    refine ⟨hi, ?_, by simpa using hlt⟩
    rw [List.mem_range]
    exact BitVec.lt_of_getLsbD hi

theorem lowest?_eq_none_iff {m : Mask} : m.lowest? = none ↔ ∀ i, m.getLsbD i = false := by
  unfold lowest?
  rw [List.find?_eq_none]
  constructor
  · intro h i
    by_cases hi : i < 32
    · simpa using h i (List.mem_range.2 hi)
    · exact BitVec.getLsbD_of_ge m i (by omega)
  · intro h i _
    simp [h i]

private theorem getLsbD_foldl_twoPow (p : Nat → Bool) (i : Nat) (hi : i < 32) :
    ∀ (l : List Nat) (m : Mask),
      (l.foldl (fun m i => if p i then m ||| BitVec.twoPow 32 i else m) m).getLsbD i =
        (m.getLsbD i || (decide (i ∈ l) && p i)) := by
  intro l
  induction l with
  | nil => simp
  | cons j l ih =>
    intro m
    rw [List.foldl_cons, ih]
    by_cases hj : i = j
    · subst hj
      cases hp : p i with
      | false => simp
      | true => simp [hi]
    · cases hp : p j <;>
        simp [BitVec.getLsbD_or, BitVec.getLsbD_twoPow, hj, Ne.symm hj]

@[simp] theorem getLsbD_ofIndices (p : Nat → Bool) (i : Nat) :
    (ofIndices p).getLsbD i = (decide (i < 32) && p i) := by
  by_cases hi : i < 32
  · unfold ofIndices
    rw [getLsbD_foldl_twoPow p i hi]
    simp [hi]
  · simp [hi, BitVec.getLsbD_of_ge _ i (Nat.le_of_not_lt hi)]

end Mask

/-! ## Pipeline stages -/

namespace Stage

def vertexInput : Mask := 0x4
def vertexShader : Mask := 0x8
def tessellationEvaluation : Mask := 0x20
def fragmentShader : Mask := 0x80
def computeShader : Mask := 0x800
def transfer : Mask := 0x1000

/-- The stages of a draw that fetch indices or run shaders. -/
def graphics : Mask := vertexInput ||| vertexShader ||| fragmentShader

end Stage

/-! ## Memory accesses -/

namespace MemoryAccess

def indexRead : Mask := 0x2
def shaderRead : Mask := 0x20
def shaderWrite : Mask := 0x40
def transferRead : Mask := 0x800
def transferWrite : Mask := 0x1000

end MemoryAccess

/-! ## Buffer usages and creation flags -/

namespace Usage

def transferSource : Mask := 0x1
def transferDestination : Mask := 0x2
def storageBuffer : Mask := 0x20
def indexBuffer : Mask := 0x40

end Usage

namespace BufferFlag

def sparseBinding : Mask := 0x1
def sparseResidency : Mask := 0x2

end BufferFlag

/-! ## Properties of a memory type -/

namespace MemoryProperty

def deviceLocal : Mask := 0x1
def hostVisible : Mask := 0x2
def hostCoherent : Mask := 0x4

end MemoryProperty

end GuestReplica
