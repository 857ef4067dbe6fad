import GuestReplica.Proofs.Runs
import GuestReplica.Proofs.Staging.FlushRanges

set_option autoImplicit false

/-!
# Requests at the limit of sizes

The end of what is handed out of a page is rounded up to the alignment of a request, and to
flush units when the page has to be flushed.  If a page and such a unit add up to no more
than one more than any size, the sums are sizes unless all of the page is handed out and it
adds up with the unit to just that.  These are the states in which a request is stopped, and
in all others it is answered or refused.
-/

namespace GuestReplica.Staging.Pool

variable {σ : Type} {d : Device σ} {p q : Pool} {events : List Event}
variable {submission size unit : Nat}

/-- All of the page is handed out, and the page and a unit add up to one more than any
size. -/
def EndsAtLimit (p : Pool) (unit : Nat) : Prop :=
  p.used = p.config.pageSize ∧ p.config.pageSize + unit = Size.limit

instance (p : Pool) (unit : Nat) : Decidable (p.EndsAtLimit unit) :=
  inferInstanceAs (Decidable (_ ∧ _))

/-- Where a page and a unit add up to no more than that, nothing else cannot be rounded up. -/
theorem roundUp?_used_eq_none_iff (hp : p.Valid)
    (hlimit : p.config.pageSize + unit ≤ Size.limit) :
    Size.roundUp? p.used unit = none ↔ p.EndsAtLimit unit := by
  have hused := hp.used_le_pageSize
  rw [Size.roundUp?_eq_none_iff, EndsAtLimit]
  omega

/-- All of the page is handed out, and its end cannot be rounded up: not to a unit, or not to
flush units though the page is the current one and has bytes to flush. -/
def FullAtLimit (p : Pool) (unit : Nat) : Prop :=
  p.EndsAtLimit unit ∨ p.AtLimit ∧ ∃ page, p.currentPage? = some page ∧ p.IsDirty page

/-- If a page adds up to no more with either unit, nothing else is too large. -/
theorem fullAtLimit_of_overflows (hp : p.Valid) (hunit : p.config.pageSize + unit ≤ Size.limit)
    (hflush : p.config.pageSize + p.config.flushUnit ≤ Size.limit)
    (h : Size.limit ≤ p.used + unit ∨ p.FlushOverflows) : p.FullAtLimit unit := by
  rcases h with hlarge | hflushes
  · exact .inl ((roundUp?_used_eq_none_iff hp hunit).mp (Size.roundUp?_eq_none_iff.mpr hlarge))
  · have hused := hp.used_le_pageSize
    have hlarge := hflushes.large
    exact .inr ⟨⟨by omega, by omega⟩, hflushes.dirty⟩

/-- A flush at the limit is only answered or refused if there is nothing to flush. -/
theorem Flushes.not_dirty {ending : Ending StagingError Unit} {page : Page}
    (h : Flushes p ending q events) (hp : p.Valid) (hreturns : ending.Returns)
    (hlimit : p.AtLimit) (hpage : p.currentPage? = some page) : ¬ p.IsDirty page := by
  intro hdirty
  obtain ⟨hstopped, _⟩ := h.of_dirty hp (Nat.le_of_eq hlimit.2) hpage hdirty
  exact hreturns _ (hstopped hlimit).1

/-- A turn to another page begins with a flush. -/
theorem Turns.flushes {ending : Ending StagingError Nat} (h : Turns d p ending q events)
    (hreturns : ending.Returns) :
    ∃ flushed q₁ flushing, Flushes p flushed q₁ flushing ∧ flushed.Returns := by
  cases h with
  | unflushed hflush => exact ⟨_, _, _, hflush, Ending.returns_failed _⟩
  | broken _ => exact absurd rfl (hreturns _)
  | reused hflush _ => exact ⟨_, _, _, hflush, Ending.returns_done ()⟩
  | uncreated hflush _ _ => exact ⟨_, _, _, hflush, Ending.returns_done ()⟩
  | created hflush _ _ => exact ⟨_, _, _, hflush, Ending.returns_done ()⟩

/-- At the limit, a request cannot round up what is handed out, or cannot turn to another
page. -/
theorem FullAtLimit.not_turned {ending : Ending StagingError Nat} {offset : Nat}
    (hfull : p.FullAtLimit unit) (hp : p.Valid) (hround : Size.roundUp? p.used unit = some offset)
    (hturn : Turns d p ending q events) : ¬ ending.Returns := by
  intro hreturns
  rcases hfull with ⟨hused, hsum⟩ | ⟨hlimit, page, hpage, hdirty⟩
  · have hlt := (Size.roundUp?_eq_some_iff.mp hround).1
    omega
  · obtain ⟨_, _, _, hflush, hflushed⟩ := hturn.flushes hreturns
    exact hflush.not_dirty hp hflushed hlimit hpage hdirty

/-- A request at the limit is neither answered nor refused. -/
theorem FullAtLimit.not_returns {ending : Ending StagingError Allocation}
    (hfull : p.FullAtLimit unit) (hp : p.Valid)
    (h : Requests d p submission size unit ending q events) : ¬ ending.Returns := by
  intro hreturns
  cases h with
  | empty _ => exact hreturns _ rfl
  | misaligned _ => exact hreturns _ rfl
  | overflow _ => exact hreturns _ rfl
  | missing _ _ => exact hreturns _ rfl
  | served _ hpower hround _ hroom _ =>
    obtain ⟨_, rfl⟩ := Size.roundUp?_eq_some_iff.mp hround
    have hoffset := Size.le_roundUp p.used hpower.pos
    have hused : p.used = p.config.pageSize := hfull.elim (·.1) (·.1.1)
    omega
  | @unturned _ e _ _ _ hround _ hturn =>
    exact hfull.not_turned hp hround hturn (Ending.returns_failed e)
  | broken _ => exact hreturns _ rfl
  | lost _ _ => exact hreturns _ rfl
  | @turned _ index _ _ _ _ hround _ hturn _ =>
    exact hfull.not_turned hp hround hturn (Ending.returns_done index)

/-- A request for some bytes at a multiple of a power of two is stopped at the limit, and
nowhere else, if neither that power nor a flush unit adds up with a page to more. -/
theorem Requests.broken_iff_fullAtLimit {ending : Ending StagingError Allocation}
    (h : Requests d p submission size unit ending q events) (hp : p.Valid) (hsize : size ≠ 0)
    (hpower : Size.IsPowerOfTwo unit) (hunit : p.config.pageSize + unit ≤ Size.limit)
    (hflush : p.config.pageSize + p.config.flushUnit ≤ Size.limit) :
    ending = .broken .sizeOverflow ↔ p.FullAtLimit unit := by
  constructor
  · rintro rfl
    exact fullAtLimit_of_overflows hp hunit hflush (h.overflows hp hsize hpower).2.2
  · intro hfull
    cases ending with
    | done a => exact absurd (Ending.returns_done a) (hfull.not_returns hp h)
    | failed e => exact absurd (Ending.returns_failed e) (hfull.not_returns hp h)
    | broken v => rw [(h.overflows hp hsize hpower).1]

/-- A pool whose current page was retired is only at the limit if it was there before. -/
theorem Retires.fullAtLimit (h : Retires p q) (hfull : q.FullAtLimit unit) :
    p.FullAtLimit unit := by
  cases hcurrent : p.current with
  | none => rwa [h.eq_of_current_eq_none hcurrent] at hfull
  | some index =>
    rw [h.eq_of_current_eq_some hcurrent] at hfull
    rcases hfull with hround | ⟨_, page, hpage, _⟩
    · exact .inl hround
    · cases hpage

/-- So a pool that has refused a request is not at the limit. -/
theorem Requests.not_fullAtLimit {e : StagingError}
    (h : Requests d p submission size unit (.failed e) q events) (hp : p.Valid) :
    ¬ q.FullAtLimit unit := by
  intro hfull
  have hbefore : p.FullAtLimit unit := by
    rcases (h.stillOwes_or_retires hp).2 with ⟨rfl, _⟩ | ⟨_, hretires, _⟩
    · exact hfull
    · exact hretires.fullAtLimit hfull
  exact hbefore.not_returns hp h (Ending.returns_failed e)

end GuestReplica.Staging.Pool
