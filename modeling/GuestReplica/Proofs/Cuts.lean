import Mathlib.Algebra.GroupWithZero.Nat
import GuestReplica.Size

set_option autoImplicit false

/-!
# Cutting spans into pieces

Spans are cut up front to back: pieces come off the first span until nothing is left
of it, then off the next one.  A piece is given by its offset and its size, is not
empty, and is made of whole units.  What is left at the end is a list of spans, too.
-/

namespace GuestReplica

/-- Some spans can be cut into some pieces, and other spans are left. -/
inductive Cuts (unit : Nat) : List Span → List (Nat × Nat) → List Span → Prop where
  | stop (spans : List Span) : Cuts unit spans [] spans
  /-- nothing is left of the first span -/
  | next {span : Span} {spans left : List Span} {pieces : List (Nat × Nat)} (hempty : span.IsEmpty)
      (hrest : Cuts unit spans pieces left) : Cuts unit (span :: spans) pieces left
  | cut {start size stop : Nat} {spans left : List Span} {pieces : List (Nat × Nat)}
      (hpos : 0 < size) (hunit : unit ∣ size) (hle : start + size ≤ stop)
      (hrest : Cuts unit (⟨start + size, stop⟩ :: spans) pieces left) :
      Cuts unit (⟨start, stop⟩ :: spans) ((start, size) :: pieces) left

namespace Cuts

variable {unit : Nat} {spans middle left : List Span} {pieces others : List (Nat × Nat)}

/-- Spans that are not reached are left. -/
theorem extend (h : Cuts unit spans pieces left) (rest : List Span) :
    Cuts unit (spans ++ rest) pieces (left ++ rest) := by
  induction h with
  | stop spans => exact .stop _
  | next hempty _ ih => exact .next hempty ih
  | cut hpos hunit hle _ ih => exact .cut hpos hunit hle ih

/-- What is left can be cut on. -/
theorem trans (h : Cuts unit spans pieces middle) (h' : Cuts unit middle others left) :
    Cuts unit spans (pieces ++ others) left := by
  induction h with
  | stop spans => exact h'
  | next hempty _ ih => exact .next hempty (ih h')
  | cut hpos hunit hle _ ih => exact .cut hpos hunit hle (ih h')

/-- What is left of one span ends where the span does. -/
theorem within {span rest : Span} (h : Cuts unit [span] pieces [rest]) :
    span.start ≤ rest.start ∧ rest.stop = span.stop := by
  generalize hspans : [span] = spans at h
  generalize hleft : [rest] = left at h
  induction h generalizing span with
  | stop spans =>
    cases hspans.trans hleft.symm
    exact ⟨Nat.le_refl _, rfl⟩
  | next _ hrest =>
    cases hspans
    cases hleft
    cases hrest
  | cut _ _ _ _ ih =>
    cases hspans
    obtain ⟨hstart, hstop⟩ := ih rfl hleft
    exact ⟨Nat.le_trans (Nat.le_add_right _ _) hstart, hstop⟩

/-- A byte of the spans lies in a piece or in what is left, and nothing else does. -/
theorem mem_iff (h : Cuts unit spans pieces left) (x : Nat) :
    (∃ span ∈ spans, x ∈ span) ↔
      (∃ piece ∈ pieces, piece.1 ≤ x ∧ x < piece.1 + piece.2) ∨ ∃ span ∈ left, x ∈ span := by
  induction h with
  | stop spans => simp
  | @next span spans left pieces hempty _ ih =>
    rw [← ih]
    have hnot : ¬ x ∈ span := Span.isEmpty_iff.mp hempty x
    simp [hnot]
  | @cut start size stop spans left pieces _ _ hle _ ih =>
    -- the first piece and what is left of the first span make up that span
    have hsplit : x ∈ (⟨start, stop⟩ : Span) ↔
        (start ≤ x ∧ x < start + size) ∨ x ∈ (⟨start + size, stop⟩ : Span) := by
      simp only [Span.mem_iff]
      omega
    simp only [List.mem_cons, exists_eq_or_imp, or_assoc] at ih ⊢
    rw [hsplit, ← ih, or_assoc]

/-- The bytes of the spans are those of the pieces and those that are left. -/
theorem sum_size (h : Cuts unit spans pieces left) :
    (spans.map Span.size).sum = (pieces.map (·.2)).sum + (left.map Span.size).sum := by
  induction h with
  | stop spans => simp
  | @next span _ _ _ hempty _ ih =>
    have hzero : span.size = 0 := Nat.sub_eq_zero_of_le hempty
    rw [List.map_cons, List.sum_cons, hzero, Nat.zero_add, ih]
  | cut _ _ hle _ ih =>
    simp only [List.map_cons, List.sum_cons, Span.size] at ih ⊢
    omega

theorem size_pos (h : Cuts unit spans pieces left) {piece : Nat × Nat} (hmem : piece ∈ pieces) :
    0 < piece.2 := by
  induction h with
  | stop spans => cases hmem
  | next _ _ ih => exact ih hmem
  | cut hpos _ _ _ ih =>
    rcases List.mem_cons.mp hmem with rfl | hmem
    · exact hpos
    · exact ih hmem

/-- Pieces lie in the spans that they are cut from. -/
theorem piece_subset (h : Cuts unit spans pieces left) {piece : Nat × Nat} (hmem : piece ∈ pieces) :
    ∃ span ∈ spans, span.start ≤ piece.1 ∧ piece.1 + piece.2 ≤ span.stop := by
  induction h with
  | stop spans => cases hmem
  | next _ _ ih =>
    obtain ⟨span, hspan, hin⟩ := ih hmem
    exact ⟨span, List.mem_cons_of_mem _ hspan, hin⟩
  | @cut start size stop spans left pieces _ _ hle _ ih =>
    rcases List.mem_cons.mp hmem with rfl | hmem
    · exact ⟨_, List.mem_cons_self, Nat.le_refl start, hle⟩
    · obtain ⟨span, hspan, hstart, hstop⟩ := ih hmem
      rcases List.mem_cons.mp hspan with rfl | hspan
      · exact ⟨_, List.mem_cons_self, Nat.le_trans (Nat.le_add_right start size) hstart, hstop⟩
      · exact ⟨span, List.mem_cons_of_mem _ hspan, hstart, hstop⟩

end Cuts

end GuestReplica
