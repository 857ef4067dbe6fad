import GuestReplica.Mask

set_option autoImplicit false

/-!
# Memory types

A device offers up to 32 types of memory, each with properties.  What matters
here is which types are local to the device, which are visible to the host and
which of those need no flush.
-/

namespace GuestReplica

/-- The memory types with each property that matters, as masks of type indices. -/
structure MemoryTypes where
  deviceLocal : Mask
  hostVisible : Mask
  hostCoherent : Mask
  deriving DecidableEq, Repr

namespace MemoryTypes

instance : Inhabited MemoryTypes := ⟨⟨0, 0, 0⟩⟩

/-- The most memory types that a device has. -/
def maxCount : Nat := 32

/-- The types among the first `count` whose properties include `property`. -/
def having (count : Nat) (properties : Nat → Mask) (property : Mask) : Mask :=
  Mask.ofIndices fun i => i < min count maxCount ∧ (properties i).Covers property

/-- Groups the memory types of a device that reports `count` of them.  Properties
past the count do not matter, and no count goes past `maxCount`. -/
def ofProperties (count : Nat) (properties : Nat → Mask) : MemoryTypes where
  deviceLocal := having count properties MemoryProperty.deviceLocal
  hostVisible := having count properties MemoryProperty.hostVisible
  hostCoherent := having count properties MemoryProperty.hostCoherent

/-- The lowest type that will do, has what is required and, if there is any such
type, also what is preferred. -/
def choose? (compatible required preferred : Mask) : Option Nat :=
  let candidates := compatible &&& required
  (candidates &&& preferred).lowest?.or candidates.lowest?

theorem getLsbD_having (count : Nat) (properties : Nat → Mask) (property : Mask) (i : Nat) :
    (having count properties property).getLsbD i = true ↔
      i < min count maxCount ∧ (properties i).Covers property := by
  rw [having, Mask.getLsbD_ofIndices, Bool.and_eq_true, decide_eq_true_iff, decide_eq_true_iff]
  exact ⟨fun h => h.2, fun h => ⟨Nat.lt_of_lt_of_le h.1 (Nat.min_le_right _ _), h⟩⟩

theorem choose?_eq_none_iff {compatible required preferred : Mask} :
    choose? compatible required preferred = none ↔
      ∀ i, compatible.getLsbD i = true → required.getLsbD i = false := by
  simp only [choose?, Option.or_eq_none_iff, Mask.lowest?_eq_none_iff, BitVec.getLsbD_and,
    Bool.and_eq_false_iff]
  constructor
  · rintro ⟨_, h⟩ i hi
    simpa [hi] using h i
  · intro h
    have h' : ∀ i, compatible.getLsbD i = false ∨ required.getLsbD i = false := by
      intro i
      cases hc : compatible.getLsbD i with
      | false => exact Or.inl rfl
      | true => exact Or.inr (h i hc)
    exact ⟨fun i => Or.inl (h' i), h'⟩

end MemoryTypes

end GuestReplica
