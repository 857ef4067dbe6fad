import Mathlib.Algebra.GroupWithZero.Nat
import Mathlib.Data.List.Pairwise
import GuestReplica.Guest

set_option autoImplicit false

/-!
# Page ranges in order

The check of an upload compares neighbours.  What it accepts is in order as a whole:
each range ends before any later one starts, so all lie between the start of the
first and the end of the last.
-/

namespace GuestReplica.PageRange

/-- The ranges are in order and do not overlap. -/
def Sorted (ranges : List PageRange) : Prop := ranges.Pairwise fun a b => a.stop ≤ b.start

instance (ranges : List PageRange) : Decidable (Sorted ranges) :=
  inferInstanceAs (Decidable (List.Pairwise _ _))

variable {ranges : List PageRange}

theorem start_le_stop (r : PageRange) : r.start ≤ r.stop := Nat.le_add_right _ _

theorem count_le_stop (r : PageRange) : r.count ≤ r.stop := Nat.le_add_left _ _

theorem Sorted.stop_le_last {last range : PageRange} (h : Sorted ranges)
    (hlast : ranges.getLast? = some last) (hmem : range ∈ ranges) : range.stop ≤ last.stop := by
  obtain ⟨front, rfl⟩ := List.getLast?_eq_some_iff.mp hlast
  rcases List.mem_append.mp hmem with hfront | hback
  · have hle := (List.pairwise_append.mp h).2.2 range hfront last (List.mem_singleton_self last)
    exact Nat.le_trans hle last.start_le_stop
  · exact Nat.le_of_eq (congrArg stop (List.mem_singleton.mp hback))

theorem Sorted.first_le_start {first range : PageRange} (h : Sorted ranges)
    (hfirst : ranges.head? = some first) (hmem : range ∈ ranges) : first.start ≤ range.start := by
  cases ranges with
  | nil => cases hmem
  | cons head rest =>
    obtain rfl : head = first := Option.some.inj hfirst
    rcases List.mem_cons.mp hmem with rfl | hrest
    · exact Nat.le_refl _
    · exact Nat.le_trans head.start_le_stop (List.rel_of_pairwise_cons h hrest)

/-- What passes the check is in order. -/
theorem sorted_of_checkOrder (h : checkOrder ranges = .ok ()) : Sorted ranges := by
  induction ranges with
  | nil => exact List.Pairwise.nil
  | cons first rest ih =>
    cases rest with
    | nil => exact List.pairwise_singleton _ _
    | cons second rest =>
      obtain ⟨_, hle, hrest⟩ := checkOrder_eq_ok_iff.mp h
      have hsorted : Sorted (second :: rest) := ih hrest
      refine List.pairwise_cons.mpr ⟨?_, hsorted⟩
      intro range hmem
      have hstart := hsorted.first_le_start rfl hmem
      omega

/-- What is in order passes the check, as long as all page indices are addresses. -/
theorem Sorted.checkOrder_eq (h : Sorted ranges)
    (hstop : ∀ range ∈ ranges, range.stop < addressLimit) : checkOrder ranges = .ok () := by
  induction ranges with
  | nil => rfl
  | cons first rest ih =>
    cases rest with
    | nil => rfl
    | cons second rest =>
      refine checkOrder_eq_ok_iff.mpr ⟨hstop _ List.mem_cons_self, ?_, ?_⟩
      · exact List.rel_of_pairwise_cons h List.mem_cons_self
      · exact ih (List.Pairwise.of_cons h) fun range hmem =>
          hstop range (List.mem_cons_of_mem _ hmem)

/-- The number of bytes in the ranges. -/
def total (ranges : List PageRange) (pageBits : Nat) : Nat :=
  (ranges.map fun range => range.count <<< pageBits).sum

@[simp] theorem total_nil (pageBits : Nat) : total [] pageBits = 0 := rfl

@[simp] theorem total_cons (range : PageRange) (rest : List PageRange) (pageBits : Nat) :
    total (range :: rest) pageBits = range.count <<< pageBits + total rest pageBits :=
  List.sum_cons

end GuestReplica.PageRange
