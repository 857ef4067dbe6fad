import Mathlib.Data.List.TakeWhile
import GuestReplica.Proofs.Staging.Order

set_option autoImplicit false

/-!
# Reclaims, one after the other

A reclaim takes the submitted pages from the first one on, as far as they are done, in
whatever order their last submissions are.  Of two reclaims only the one for the later
submission counts.  If the other comes first, it does a part of the same; if it comes
last, it stops at the first page that is left.  So the pages become writable in the same
order, at once or bit by bit.
-/

namespace GuestReplica.Staging.Pool

/-! ## Prefixes of a list -/

section

variable {α : Type} {P Q : α → Bool}

/-- What a stronger condition leaves, a weaker one cuts as it cuts the whole list. -/
theorem dropWhile_dropWhile_of_imp (h : ∀ a, P a = true → Q a = true) (l : List α) :
    (l.dropWhile P).dropWhile Q = l.dropWhile Q := by
  have hfirst : ∀ a ∈ l.takeWhile P, Q a = true := fun a hmem => h a (List.mem_takeWhile_imp hmem)
  calc (l.dropWhile P).dropWhile Q
      = (l.takeWhile P ++ l.dropWhile P).dropWhile Q := (List.dropWhile_append_of_pos hfirst).symm
    _ = l.dropWhile Q := by rw [List.takeWhile_append_dropWhile]

/-- Together the two cut off what the weaker one cuts off the whole list. -/
theorem takeWhile_append_takeWhile_of_imp (h : ∀ a, P a = true → Q a = true) (l : List α) :
    l.takeWhile P ++ (l.dropWhile P).takeWhile Q = l.takeWhile Q := by
  have hfirst : ∀ a ∈ l.takeWhile P, Q a = true := fun a hmem => h a (List.mem_takeWhile_imp hmem)
  calc l.takeWhile P ++ (l.dropWhile P).takeWhile Q
      = (l.takeWhile P ++ l.dropWhile P).takeWhile Q := (List.takeWhile_append_of_pos hfirst).symm
    _ = l.takeWhile Q := by rw [List.takeWhile_append_dropWhile]

/-- What a weaker condition leaves does not begin with what satisfies a stronger one. -/
theorem not_head_dropWhile_of_imp (h : ∀ a, Q a = true → P a = true) (l : List α)
    (hl : 0 < (l.dropWhile P).length) : ¬ Q (l.dropWhile P)[0] = true :=
  fun hQ => List.dropWhile_get_zero_not P l hl (h _ hQ)

end

variable {p : Pool} {first second index : Nat}

/-! ## Two reclaims -/

/-- A page that is done after a submission is done after all later ones. -/
theorem isDone_mono (hle : first ≤ second) (h : p.isDone first index = true) :
    p.isDone second index = true := by
  unfold isDone at h ⊢
  rw [Option.any_eq_true] at h ⊢
  obtain ⟨page, hpage, hdone⟩ := h
  exact ⟨page, hpage, decide_eq_true (Nat.le_trans (of_decide_eq_true hdone) hle)⟩

/-- What two reclaims leave, and what they make writable. -/
theorem reclaim_reclaim_eq (first second : Nat) (p : Pool) :
    (p.reclaim first).reclaim second =
      { p with
        submitted := (p.submitted.dropWhile (p.isDone first)).dropWhile (p.isDone second)
        writable := p.writable ++ (p.submitted.takeWhile (p.isDone first) ++
          (p.submitted.dropWhile (p.isDone first)).takeWhile (p.isDone second)) } := by
  rw [← List.append_assoc]
  rfl

/-- The later submission includes all that is done after the earlier one. -/
theorem reclaim_reclaim_of_le (hle : first ≤ second) (p : Pool) :
    (p.reclaim first).reclaim second = p.reclaim second := by
  have himp : ∀ i, p.isDone first i = true → p.isDone second i = true := fun _ => isDone_mono hle
  rw [reclaim_reclaim_eq, dropWhile_dropWhile_of_imp himp, takeWhile_append_takeWhile_of_imp himp,
    reclaim]

/-- Behind the later submission, the earlier one finds nothing that is done. -/
theorem reclaim_reclaim_of_ge (hle : second ≤ first) (p : Pool) :
    (p.reclaim first).reclaim second = p.reclaim first := by
  have himp : ∀ i, p.isDone second i = true → p.isDone first i = true := fun _ => isDone_mono hle
  have hhead := not_head_dropWhile_of_imp himp p.submitted
  rw [reclaim_reclaim_eq, List.dropWhile_eq_self_iff.mpr hhead, List.takeWhile_eq_nil_iff.mpr hhead,
    List.append_nil, reclaim]

/-- Two reclaims are one, for the later of their submissions. -/
theorem reclaim_reclaim (first second : Nat) (p : Pool) :
    (p.reclaim first).reclaim second = p.reclaim (max first second) := by
  rcases Nat.le_total first second with hle | hle
  · rw [reclaim_reclaim_of_le hle, Nat.max_eq_right hle]
  · rw [reclaim_reclaim_of_ge hle, Nat.max_eq_left hle]

/-! ## What a reclaim does -/

/-- The pages `done` become writable, in their order: the first of the submitted pages, as
far as none has served a submission after `completed`.  Nothing else changes. -/
structure Reclaims (p : Pool) (completed : Nat) (done : List Nat) (q : Pool) : Prop where
  submitted_eq : p.submitted = done ++ q.submitted
  done_le : ∀ index ∈ done, ∃ page, p.pages[index]? = some page ∧ page.lastSubmission ≤ completed
  lt_next : ∀ index ∈ q.submitted.head?, ∃ page, p.pages[index]? = some page ∧
    completed < page.lastSubmission
  rest_eq : q = { p with submitted := q.submitted, writable := p.writable ++ done }

/-- A reclaim of a valid pool looks at pages of the pool only. -/
theorem Valid.reclaims (hp : p.Valid) (completed : Nat) :
    p.Reclaims completed (p.submitted.takeWhile (p.isDone completed)) (p.reclaim completed) where
  submitted_eq := (submitted_reclaim_append_writable completed p).symm
  done_le index hmem := by
    have hdone := List.mem_takeWhile_imp hmem
    rw [isDone, Option.any_eq_true] at hdone
    simpa using hdone
  lt_next index hmem := by
    have hsubmitted : index ∈ p.submitted :=
      (List.dropWhile_sublist _).subset (List.mem_of_mem_head? hmem)
    obtain ⟨page, hpage⟩ := hp.exists_page_of_queue (List.mem_append_left _ hsubmitted)
    have hlate := List.head?_dropWhile_not (p.isDone completed) p.submitted
    have hnext : (p.submitted.dropWhile (p.isDone completed)).head? = some index := hmem
    rw [hnext] at hlate
    exact ⟨page, hpage, by simpa [isDone, hpage] using hlate⟩
  rest_eq := rfl

end GuestReplica.Staging.Pool
