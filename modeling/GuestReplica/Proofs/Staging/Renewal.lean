import Mathlib.Data.List.TakeWhile
import GuestReplica.Proofs.Staging.Limits

set_option autoImplicit false

/-!
# A pool that is out of pages

A pool is out of pages when all pages that it may create are submitted: the current page is
retired before the search for another one fails, and no page is lost.  So once their
submissions are complete, in whatever order these were made, the next request is served
from the start of one of them, without a call of the device.

What was handed out of the page that was retired is still counted, and the next request rounds
it up though it starts at another page.  That stops the request if the sum is no size.
-/

namespace GuestReplica

namespace Staging

namespace Pool

variable {σ : Type} {d : Device σ} {p q : Pool} {events : List Event}
variable {submission size alignment latest completed index : Nat}

/-! ## Submissions that pages have served -/

/-- No page has served a submission after the latest one. -/
def Within (p : Pool) (latest : Nat) : Prop := ∀ page ∈ p.pages, page.lastSubmission ≤ latest

theorem within_ofConfig (config : Config) (latest : Nat) : (ofConfig config).Within latest :=
  fun _ hmem => nomatch hmem

theorem Within.of_pages_eq (h : p.Within latest) (hpages : q.pages = p.pages) :
    q.Within latest := by
  rw [Within, hpages]
  exact h

theorem Within.handOut {used : Nat} (h : p.Within latest) (hle : submission ≤ latest) :
    (p.handOut index submission used).Within latest := by
  intro page hmem
  obtain ⟨i, hpage⟩ := List.mem_iff_getElem?.mp hmem
  simp only [Pool.handOut, List.getElem?_modify, Option.map_eq_map, Option.map_eq_some_iff] at hpage
  obtain ⟨other, hother, rfl⟩ := hpage
  split
  · exact hle
  · exact h other (List.mem_of_getElem? hother)

theorem Flushes.within {ending : Ending StagingError Unit} (h : Flushes p ending q events)
    (hp : p.Within latest) : q.Within latest := by
  cases h <;> exact hp

/-- A page that is created has served no submission. -/
theorem Creates.within {ending : Ending StagingError Nat} (h : Creates d p ending q events)
    (hp : p.Within latest) : q.Within latest := by
  cases h with
  | created _ _ _ =>
    intro page hmem
    rcases List.mem_append.mp hmem with hold | hnew
    · exact hp page hold
    · rw [List.mem_singleton.mp hnew]
      exact Nat.zero_le latest
  | _ => exact hp

theorem Turns.within {ending : Ending StagingError Nat} (h : Turns d p ending q events)
    (hp : p.Within latest) : q.Within latest := by
  cases h with
  | unflushed hflush => exact hflush.within hp
  | broken hflush => exact hflush.within hp
  | reused hflush _ => exact (hflush.within hp).of_pages_eq rfl
  | uncreated hflush _ hcreate => exact hcreate.within ((hflush.within hp).of_pages_eq rfl)
  | created hflush _ hcreate =>
    exact (hcreate.within ((hflush.within hp).of_pages_eq rfl)).of_pages_eq rfl

theorem Requests.within {ending : Ending StagingError Allocation}
    (h : Requests d p submission size alignment ending q events) (hp : p.Within latest)
    (hle : submission ≤ latest) : q.Within latest := by
  cases h with
  | empty _ => exact hp
  | misaligned _ => exact hp
  | overflow _ => exact hp
  | missing _ _ => exact hp
  | served _ _ _ _ _ _ => exact hp.handOut hle
  | unturned _ _ _ hturn => exact hturn.within hp
  | broken hturn => exact hturn.within hp
  | lost hturn _ => exact hturn.within hp
  | turned _ _ _ hturn _ => exact (hturn.within hp).handOut hle

/-- The submission that the owner makes a request for. -/
def OwnerUse.submission? : OwnerUse → Option Nat
  | .client use => use.submission?
  | .destroy => none

theorem OwnerPerforms.within {use : OwnerUse} {answer : Ending StagingError (Option Allocation)}
    (h : OwnerPerforms d p use answer q events) (hp : p.Within latest)
    (hle : ∀ submission ∈ use.submission?, submission ≤ latest) : q.Within latest := by
  cases h with
  | client hperforms =>
    cases hperforms with
    | allocated hrequest => exact hrequest.within hp (hle _ rfl)
    | unserved hrequest => exact hrequest.within hp (hle _ rfl)
    | stopped hrequest => exact hrequest.within hp (hle _ rfl)
    | reclaimed _ => exact hp
    | flushed hflush => exact hflush.within hp
    | unflushed hflush => exact hflush.within hp
    | overflow hflush => exact hflush.within hp
  | destroyed => exact within_ofConfig p.config latest

variable {s s' : σ} {steps : List OwnerStep}

theorem within_of_ownerRuns (h : Runs (OwnerUse.action d) p s steps q s') (hp : p.Within latest)
    (hle : ∀ step ∈ steps, ∀ submission ∈ step.use.submission?, submission ≤ latest) :
    q.Within latest := by
  induction h with
  | nil p s => exact hp
  | cons hstep _ ih =>
    have hfirst := (ownerPerforms_of_run hstep).within hp (hle _ List.mem_cons_self)
    exact ih hfirst fun step hmem => hle step (List.mem_cons_of_mem _ hmem)

/-! ## Pools that are out of pages -/

/-- All pages that the pool may create are there, and none of them can be used now. -/
structure Exhausted (p : Pool) : Prop where
  current_eq : p.current = none
  writable_eq : p.writable = []
  full : p.IsFull

/-- Only a pool that is left exhausted answers that it is out of pages. -/
theorem Requests.exhausted
    (h : Requests d p submission size alignment (.failed .outOfPages) q events) :
    q.Exhausted := by
  cases h with
  | unturned _ _ _ hturn =>
    cases hturn with
    | unflushed hflush => cases hflush
    | uncreated _ hnone hcreate =>
      cases hcreate with
      | full hfull => exact ⟨rfl, hnone, hfull⟩

theorem OwnerPerforms.exhausted {use : OwnerUse}
    (h : OwnerPerforms d p use (.failed .outOfPages) q events) : q.Exhausted := by
  cases h with
  | client hperforms =>
    cases hperforms with
    | unserved hrequest => exact hrequest.exhausted
    | unflushed hflush => cases hflush

/-- All of its pages are submitted then, and there are some if it may create any. -/
theorem Exhausted.submitted_perm (h : p.Exhausted) (hp : p.Valid) :
    p.submitted.Perm (List.range p.pages.length) := by
  simpa [places, h.current_eq, h.writable_eq] using hp.places_perm

theorem Exhausted.pages_ne_nil (h : p.Exhausted) (hmax : p.config.maxPages ≠ some 0) :
    p.pages ≠ [] := by
  intro hnil
  obtain ⟨n, hn, hle⟩ := h.full
  rw [hnil, List.length_nil, Nat.le_zero] at hle
  rw [hle] at hn
  exact hmax hn

/-- When all submissions are complete, all submitted pages are writable again. -/
theorem Within.reclaim_eq (h : p.Within completed) (hp : p.Valid) :
    p.reclaim completed = { p with submitted := [], writable := p.writable ++ p.submitted } := by
  have hdone : ∀ index ∈ p.submitted, p.isDone completed index = true := by
    intro index hmem
    have hlt : index < p.pages.length := hp.lt_length (by simp [places, hmem])
    rw [isDone, List.getElem?_eq_getElem hlt, Option.any_some, decide_eq_true_iff]
    exact h _ (List.getElem_mem hlt)
  rw [reclaim, List.takeWhile_eq_self_iff.mpr hdone, List.dropWhile_eq_nil_iff.mpr hdone]

/-! ## The next request -/

/-- Where there is no current page, a request is served from the start of the page that
became writable last, and needs no device. -/
theorem request_run_of_writable {page : Page} {offset : Nat} (d : Device σ) (s : σ)
    (hcurrent : p.current = none) (hlast : p.writable.getLast? = some index)
    (hpage : p.pages[index]? = some page) (hsize : size ≠ 0) (hpower : Size.IsPowerOfTwo alignment)
    (hround : Size.roundUp? p.used alignment = some offset) :
    (request d submission size alignment).run p s =
      ⟨.done ⟨page.buffer, page.memory, 0, min size p.config.pageSize⟩,
        (p.dropWritable.turnTo index).handOut index submission (min size p.config.pageSize), s,
        []⟩ := by
  simp [request, turnPage, nextPage, flush, serve, retire, dropWritable, turnTo, cut, currentPage?,
    hcurrent, hlast, hpage, hsize, hpower, hround]

/-- A request is stopped, and changes nothing, where what is handed out cannot be rounded up. -/
theorem request_run_of_overflow (d : Device σ) (s : σ) (hsize : size ≠ 0)
    (hpower : Size.IsPowerOfTwo alignment) (hround : Size.roundUp? p.used alignment = none) :
    (request d submission size alignment).run p s = ⟨.broken .sizeOverflow, p, s, []⟩ := by
  simp [request, hsize, hpower, hround]

/-- When all submissions of an exhausted pool are complete, a request is served from the page
that was submitted last, unless what was handed out of it cannot be rounded up. -/
theorem Exhausted.request_run {offset : Nat} (h : p.Exhausted) (hp : p.Valid)
    (hmax : p.config.maxPages ≠ some 0) (hwithin : p.Within completed) (hsize : size ≠ 0)
    (hpower : Size.IsPowerOfTwo alignment) (hround : Size.roundUp? p.used alignment = some offset)
    (d : Device σ) (submission : Nat) :
    ∃ (index : Nat) (page : Page) (q : Pool),
      p.pages[index]? = some page ∧ q.pages.length = p.pages.length ∧
        ∀ s : σ, (request d submission size alignment).run (p.reclaim completed) s =
          ⟨.done ⟨page.buffer, page.memory, 0, min size p.config.pageSize⟩, q, s, []⟩ := by
  have hsubmitted : p.submitted ≠ [] := by
    intro hnil
    have hperm := h.submitted_perm hp
    rw [hnil, List.nil_perm, List.range_eq_nil, List.length_eq_zero_iff] at hperm
    exact h.pages_ne_nil hmax hperm
  have hlast : (p.reclaim completed).writable.getLast? =
      some (p.submitted.getLast hsubmitted) := by
    rw [hwithin.reclaim_eq hp, h.writable_eq]
    exact List.getLast?_eq_some_getLast hsubmitted
  have hlt : p.submitted.getLast hsubmitted < p.pages.length :=
    hp.lt_length (by simp [places])
  have hpage := List.getElem?_eq_getElem hlt
  refine ⟨_, _, ((p.reclaim completed).dropWritable.turnTo
    (p.submitted.getLast hsubmitted)).handOut (p.submitted.getLast hsubmitted) submission
      (min size p.config.pageSize), hpage, length_pages_handOut _ _ _ _, fun s => ?_⟩
  exact request_run_of_writable d s h.current_eq hlast hpage hsize hpower hround

/-! ## Runs that end out of pages -/

/-- Let a pool that may have a page be out of pages after whatever its owner has done with it,
however the device has answered, and let all submissions that were requested for complete.
Then the next request takes as much of a page as it can, from the start of a page that is
there, and asks nothing of the device.  Only if all of the last page was handed out, and a page
and the alignment add up to one more than any size, it is stopped, and changes nothing. -/
theorem outOfPages_transient {config : Config} {p₀ : Pool} {s₀ : σ} {step : OwnerStep}
    (hnew : new config = .ok p₀) (hmax : config.maxPages ≠ some 0)
    (hrun : Runs (OwnerUse.action d) p₀ s₀ (steps ++ [step]) p s)
    (hout : step.answer = .failed .outOfPages)
    (hcompleted : ∀ earlier ∈ steps ++ [step], ∀ other ∈ earlier.use.submission?,
      other ≤ completed)
    (hsize : size ≠ 0) (hpower : Size.IsPowerOfTwo alignment)
    (hsum : config.pageSize + alignment ≤ Size.limit) :
    (¬ p.EndsAtLimit alignment →
      ∃ (index : Nat) (page : Page) (q : Pool),
        p.pages[index]? = some page ∧ q.pages.length = p.pages.length ∧
          ∀ s' : σ, (request d submission size alignment).run (p.reclaim completed) s' =
            ⟨.done ⟨page.buffer, page.memory, 0, min size config.pageSize⟩, q, s', []⟩) ∧
      (p.EndsAtLimit alignment →
        ∀ s' : σ, (request d submission size alignment).run (p.reclaim completed) s' =
          ⟨.broken .sizeOverflow, p.reclaim completed, s', []⟩) := by
  obtain ⟨hp, _, hconfig⟩ := keeps_of_new hnew hrun
  obtain ⟨_, _, rfl⟩ := new_eq_ok_iff.mp hnew
  have hwithin := within_of_ownerRuns hrun (within_ofConfig config completed) hcompleted
  have hexhausted : p.Exhausted := by
    obtain ⟨p₁, s₁, _, hlast⟩ := hrun.split
    obtain ⟨_, _, hstep, hnil⟩ := hlast.uncons
    cases hnil
    rw [hout] at hstep
    exact (ownerPerforms_of_run hstep).exhausted
  rw [← hconfig] at hmax hsum
  have hlimit := roundUp?_used_eq_none_iff hp hsum
  refine ⟨fun hends => ?_, fun hends s' => ?_⟩
  · obtain ⟨offset, hround⟩ := Option.ne_none_iff_exists'.mp (hends ∘ hlimit.mp)
    rw [← hconfig]
    exact hexhausted.request_run hp hmax hwithin hsize hpower hround d submission
  · exact request_run_of_overflow d s' hsize hpower (hlimit.mpr hends)

/-- Both pages of a pool are used up, the first for a later submission than the second, and
more is requested. -/
def exhaustTwoPages : List OwnerStep × Pool × Simulated.State :=
  play (OwnerUse.action (Simulated.device .direct)) (ofConfig twoPages) (Simulated.State.new {})
    [.client (.request 7 16 1), .client (.request 3 16 1), .client (.request 5 1 1)]

/-- When all three submissions are complete, a request for more than a page gets a page. -/
theorem outOfPages_transient_two_pages :
    exhaustTwoPages.1.getLast? = some ⟨.client (.request 5 1 1), .failed .outOfPages,
        [.call (.flush [⟨4, 0, Size.whole⟩] (.ok ()))]⟩ ∧
      ∃ (index : Nat) (page : Page) (q : Pool),
        exhaustTwoPages.2.1.pages[index]? = some page ∧
          q.pages.length = exhaustTwoPages.2.1.pages.length ∧
          ∀ s', (request (Simulated.device .direct) 8 40 8).run
              (exhaustTwoPages.2.1.reclaim 7) s' =
            ⟨.done ⟨page.buffer, page.memory, 0, 16⟩, q, s', []⟩ := by
  let last : OwnerStep := ⟨.client (.request 5 1 1), .failed .outOfPages,
    [.call (.flush [⟨4, 0, Size.whole⟩] (.ok ()))]⟩
  have hnew : new twoPages = .ok (ofConfig twoPages) := rfl
  have hlast : exhaustTwoPages.1.getLast? = some last := by decide
  have hrun : Runs (OwnerUse.action (Simulated.device .direct)) (ofConfig twoPages)
      (Simulated.State.new {}) (exhaustTwoPages.1.dropLast ++ [last]) exhaustTwoPages.2.1
      exhaustTwoPages.2.2 := by
    rw [List.dropLast_append_getLast? _ hlast]
    exact runs_play _ _ _ _
  have hcompleted : ∀ earlier ∈ exhaustTwoPages.1.dropLast ++ [last],
      ∀ other ∈ earlier.use.submission?, other ≤ 7 := by decide
  have hsum : twoPages.pageSize + 8 ≤ Size.limit := by decide
  have hsize : 40 ≠ 0 := by decide
  have hends : ¬ exhaustTwoPages.2.1.EndsAtLimit 8 := by decide
  refine ⟨hlast, ?_⟩
  exact (outOfPages_transient hnew (by decide) hrun rfl hcompleted hsize (by decide) hsum).1 hends

/-! ## A page of half of all sizes -/

/-- The simulated device, with no limit to the memory that is mapped. -/
def boundless : Device Simulated.State :=
  { Simulated.device .direct with onMap _ _ _ _ s := (.ok .address, s) }

/-- A pool of one page, as large as an alignment can be. -/
def halfPage : Config :=
  { pageSize := 1 <<< 63, hostVisible := 2, hostCoherent := 2, maxPages := some 1 }

/-- Two requests take all of the page, and more is requested. -/
def exhaustHalfPage : List OwnerStep × Pool × Simulated.State :=
  play (OwnerUse.action boundless) (ofConfig halfPage) (Simulated.State.new {})
    [.client (.request 1 ((1 <<< 63) - 1) 1), .client (.request 2 1 1), .client (.request 3 1 1)]

/-- When all three submissions are complete, the page is writable again, but a request at its
alignment is stopped. -/
theorem stopped_after_outOfPages :
    new halfPage = .ok (ofConfig halfPage) ∧
      Runs (OwnerUse.action boundless) (ofConfig halfPage) (Simulated.State.new {})
        exhaustHalfPage.1 exhaustHalfPage.2.1 exhaustHalfPage.2.2 ∧
      exhaustHalfPage.1.map (·.answer) =
        [.done (some ⟨1, 2, 0, (1 <<< 63) - 1⟩), .done (some ⟨1, 2, (1 <<< 63) - 1, 1⟩),
          .failed .outOfPages] ∧
      (exhaustHalfPage.2.1.reclaim 3).writable = [0] ∧
      Size.IsPowerOfTwo (1 <<< 63) ∧ halfPage.pageSize + (1 <<< 63) = Size.limit ∧
      ∀ s', (request boundless 4 1 (1 <<< 63)).run (exhaustHalfPage.2.1.reclaim 3) s' =
        ⟨.broken .sizeOverflow, exhaustHalfPage.2.1.reclaim 3, s', []⟩ := by
  have hpower : Size.IsPowerOfTwo (1 <<< 63) := Size.isPowerOfTwo_one_shiftLeft 63
  have hround : Size.roundUp? (exhaustHalfPage.2.1.reclaim 3).used (1 <<< 63) = none := by
    decide +kernel
  refine ⟨rfl, runs_play _ _ _ _, by decide +kernel, by decide +kernel, hpower, by decide, ?_⟩
  exact fun s' => request_run_of_overflow boundless s' Nat.one_ne_zero hpower hround

end Pool

end Staging

end GuestReplica
