import Mathlib.Order.Bounds.Defs
import GuestReplica.Device.MemoryTypes

set_option autoImplicit false

/-!
# The choice of a memory type

A device reports how many types of memory it has and what their properties are, and it says
for each buffer which of them will do.  The choice is made on masks that were derived from
that.  What it comes to is said here without masks: the lowest of the reported types that will
do and have what is required, and among these one that has what is preferred, if there is any.
-/

namespace GuestReplica

/-- The lowest flag that is set is the least index of such a flag. -/
theorem Mask.lowest?_eq_some_iff_isLeast {m : Mask} {i : Nat} :
    m.lowest? = some i ↔ IsLeast {j | m.getLsbD j = true} i := by
  rw [lowest?_eq_some_iff]
  refine and_congr_right fun _ => ⟨fun h j hj => ?_, fun h j hlt => ?_⟩
  · refine Nat.le_of_not_lt fun hlt => ?_
    cases (h j hlt).symm.trans hj
  · refine Bool.eq_false_iff.mpr fun hj => ?_
    exact Nat.not_le_of_lt hlt (h hj)

/-- A mask covers two others at once if it covers each of them. -/
theorem Mask.covers_or {m a b : Mask} : m.Covers (a ||| b) ↔ m.Covers a ∧ m.Covers b := by
  simp only [covers_iff, BitVec.getLsbD_or, Bool.or_eq_true, or_imp, forall_and]

namespace MemoryTypes

/-- A type is among those that a device with `count` of them reports, it will do for a buffer,
and it has all that is wanted. -/
structure Offers (count : Nat) (properties : Nat → Mask) (compatible wanted : Mask) (i : Nat) :
    Prop where
  lt_count : i < min count maxCount
  isCompatible : compatible.getLsbD i = true
  covers : (properties i).Covers wanted

/-- A type is the lowest one that has all that is wanted. -/
def Lowest (count : Nat) (properties : Nat → Mask) (compatible wanted : Mask) (i : Nat) : Prop :=
  IsLeast {j | Offers count properties compatible wanted j} i

/-- A type is the lowest one with what is required and preferred; where there is none, it is
the lowest one with what is required. -/
def Best (count : Nat) (properties : Nat → Mask) (compatible required preferred : Mask)
    (i : Nat) : Prop :=
  Lowest count properties compatible (required ||| preferred) i ∨
    (∀ j, ¬ Offers count properties compatible (required ||| preferred) j) ∧
      Lowest count properties compatible required i

variable {count i : Nat} {properties : Nat → Mask} {compatible required preferred wanted : Mask}

/-- The best type has what is required. -/
theorem Best.offers (h : Best count properties compatible required preferred i) :
    Offers count properties compatible required i := by
  rcases h with ⟨⟨hlt, hcompatible, hcovers⟩, _⟩ | ⟨_, hlowest⟩
  · exact ⟨hlt, hcompatible, (Mask.covers_or.mp hcovers).1⟩
  · exact hlowest.1

/-! ## The masks of a device -/

theorem getLsbD_and_having :
    (compatible &&& having count properties wanted).getLsbD i = true ↔
      Offers count properties compatible wanted i := by
  rw [BitVec.getLsbD_and, Bool.and_eq_true, getLsbD_having]
  exact ⟨fun ⟨hcompatible, hlt, hcovers⟩ => ⟨hlt, hcompatible, hcovers⟩,
    fun ⟨hlt, hcompatible, hcovers⟩ => ⟨hcompatible, hlt, hcovers⟩⟩

theorem getLsbD_and_having_and_having :
    (compatible &&& having count properties required &&&
        having count properties preferred).getLsbD i = true ↔
      Offers count properties compatible (required ||| preferred) i := by
  rw [BitVec.getLsbD_and, Bool.and_eq_true, getLsbD_and_having, getLsbD_having]
  constructor
  · rintro ⟨⟨hlt, hcompatible, hrequired⟩, _, hpreferred⟩
    exact ⟨hlt, hcompatible, Mask.covers_or.mpr ⟨hrequired, hpreferred⟩⟩
  · rintro ⟨hlt, hcompatible, hcovers⟩
    obtain ⟨hrequired, hpreferred⟩ := Mask.covers_or.mp hcovers
    exact ⟨⟨hlt, hcompatible, hrequired⟩, hlt, hpreferred⟩

theorem lowest?_and_having_eq_some_iff :
    (compatible &&& having count properties wanted).lowest? = some i ↔
      Lowest count properties compatible wanted i := by
  simp only [Mask.lowest?_eq_some_iff_isLeast, getLsbD_and_having, Lowest]

/-! ## What is chosen -/

/-- No type is chosen just if none has what is required, whatever is preferred. -/
theorem choose?_having_eq_none_iff :
    choose? compatible (having count properties required) preferred = none ↔
      ∀ i, ¬ Offers count properties compatible required i := by
  simp only [choose?_eq_none_iff, ← getLsbD_and_having, BitVec.getLsbD_and, Bool.and_eq_true,
    not_and, Bool.not_eq_true]

/-- Where nothing is preferred, the lowest type is chosen. -/
theorem choose?_having_zero_eq_some_iff :
    choose? compatible (having count properties required) 0 = some i ↔
      Lowest count properties compatible required i := by
  have hnone : Mask.lowest? (compatible &&& having count properties required &&& 0) = none := by
    simp [Mask.lowest?_eq_none_iff]
  rw [choose?, hnone, Option.none_or, lowest?_and_having_eq_some_iff]

/-- The type that is chosen is the best one. -/
theorem choose?_having_eq_some_iff :
    choose? compatible (having count properties required) (having count properties preferred) =
        some i ↔
      Best count properties compatible required preferred i := by
  rw [choose?, Option.or_eq_some_iff, Mask.lowest?_eq_some_iff_isLeast, Mask.lowest?_eq_none_iff]
  simp only [← Bool.not_eq_true, getLsbD_and_having_and_having]
  rw [lowest?_and_having_eq_some_iff]
  rfl

end MemoryTypes

end GuestReplica
