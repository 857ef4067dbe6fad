import GuestReplica.Proofs.Staging.Invariant

set_option autoImplicit false

/-!
# What a request hands out

An allocation of a valid pool is not empty and no longer than what was asked for.
In a pool whose pages and whose handed out bytes are whole multiples of some unit,
requests for such multiples get such multiples.  A request is only stopped by what
its caller got wrong, or by a sum of sizes that is none.
-/

namespace GuestReplica.Staging.Pool

variable {σ : Type} {d : Device σ} {p q : Pool} {events : List Event}
variable {submission size alignment unit : Nat} {a : Allocation}

/-! ## Sizes -/

theorem Requests.size_le (h : Requests d p submission size alignment (.done a) q events) :
    a.size ≤ size := by
  cases h with
  | served _ _ _ _ _ _ => exact size_cut_le _ _ _ _
  | turned _ _ _ _ _ => exact size_cut_le _ _ _ _

theorem Requests.size_pos (h : Requests d p submission size alignment (.done a) q events)
    (hp : p.Valid) : 0 < a.size := by
  cases h with
  | served hsize _ _ _ hroom _ =>
    simp only [cut]
    omega
  | turned hsize _ _ hturn _ =>
    have hpageSize := (hturn.valid hp).pageSize_pos
    simp only [cut]
    omega

/-! ## Whole units -/

/-- The pages, and what is handed out of the current one, are multiples of a unit. -/
structure Aligned (p : Pool) (unit : Nat) : Prop where
  dvd_pageSize : unit ∣ p.config.pageSize
  dvd_used : unit ∣ p.used

theorem Aligned.handOut {index used : Nat} (hp : p.Aligned unit) (hused : unit ∣ used) :
    (p.handOut index submission used).Aligned unit :=
  ⟨hp.dvd_pageSize, hused⟩

/-- A request for whole units is cut at whole units. -/
theorem Aligned.dvd_size_cut {offset : Nat} (hp : p.Aligned unit) (hsize : unit ∣ size)
    (hoffset : unit ∣ offset) (page : Page) : unit ∣ (p.cut page size offset).size := by
  simp only [cut, Nat.min_def]
  split
  · exact hsize
  · exact Nat.dvd_sub hp.dvd_pageSize hoffset

theorem Flushes.aligned {ending : Ending StagingError Unit} (h : Flushes p ending q events)
    (hp : p.Aligned unit) : q.Aligned unit := by
  cases h <;> exact ⟨hp.dvd_pageSize, hp.dvd_used⟩

theorem Turns.aligned {ending : Ending StagingError Nat} (h : Turns d p ending q events)
    (hp : p.Aligned unit) : q.Aligned unit := by
  cases h with
  | unflushed hflush => exact hflush.aligned hp
  | broken hflush => exact hflush.aligned hp
  | reused hflush _ =>
    have hq := hflush.aligned hp
    exact ⟨hq.dvd_pageSize, Nat.dvd_zero unit⟩
  | uncreated hflush _ hcreate =>
    have hq := hflush.aligned hp
    cases hcreate <;> exact ⟨hq.dvd_pageSize, hq.dvd_used⟩
  | created hflush _ hcreate =>
    have hq := hflush.aligned hp
    cases hcreate with
    | created _ _ _ => exact ⟨hq.dvd_pageSize, Nat.dvd_zero unit⟩

theorem Requests.aligned {ending : Ending StagingError Allocation}
    (h : Requests d p submission size unit ending q events) (hp : p.Aligned unit)
    (hsize : unit ∣ size) : q.Aligned unit := by
  cases h with
  | empty _ => exact hp
  | misaligned _ => exact hp
  | overflow _ => exact hp
  | missing _ _ => exact hp
  | @served _ offset page _ _ hround _ _ _ =>
    obtain ⟨_, rfl⟩ := Size.roundUp?_eq_some_iff.mp hround
    have hoffset := Size.dvd_roundUp p.used unit
    exact hp.handOut (Nat.dvd_add hoffset (hp.dvd_size_cut hsize hoffset page))
  | unturned _ _ _ hturn => exact hturn.aligned hp
  | broken hturn => exact hturn.aligned hp
  | lost hturn _ => exact hturn.aligned hp
  | @turned q _ _ page _ _ _ _ hturn _ =>
    have hq := hturn.aligned hp
    exact hq.handOut (hq.dvd_size_cut hsize (Nat.dvd_zero unit) page)

theorem Requests.dvd_size (h : Requests d p submission size unit (.done a) q events)
    (hp : p.Aligned unit) (hsize : unit ∣ size) : unit ∣ a.size := by
  cases h with
  | @served _ offset page _ _ hround _ _ _ =>
    obtain ⟨_, rfl⟩ := Size.roundUp?_eq_some_iff.mp hround
    exact hp.dvd_size_cut hsize (Size.dvd_roundUp p.used unit) page
  | turned _ _ _ hturn _ => exact (hturn.aligned hp).dvd_size_cut hsize (Nat.dvd_zero unit) _

/-- Whole units are handed out without a gap: an allocation takes no more of a page than
its own bytes. -/
theorem Requests.used_le (h : Requests d p submission size unit (.done a) q events)
    (hp : p.Aligned unit) (hunit : 0 < unit) : q.used ≤ p.used + a.size := by
  cases h with
  | served _ _ hround _ _ _ =>
    obtain ⟨_, rfl⟩ := Size.roundUp?_eq_some_iff.mp hround
    rw [Size.roundUp_of_dvd hunit hp.dvd_used]
    exact Nat.le_refl _
  | turned _ _ _ _ _ => exact Nat.le_add_left _ _

/-! ## Buffers -/

/-- No page has the null buffer. -/
def NonNull (p : Pool) : Prop := ∀ page ∈ p.pages, page.buffer ≠ Handle.null

theorem Flushes.nonNull {ending : Ending StagingError Unit} (h : Flushes p ending q events)
    (hp : p.NonNull) : q.NonNull := by
  cases h <;> exact hp

theorem Creates.nonNull (hd : d.NeverNull) {ending : Ending StagingError Nat}
    (h : Creates d p ending q events) (hp : p.NonNull) : q.NonNull := by
  cases h with
  | @created buffer _ _ _ _ hbuffer _ =>
    obtain ⟨s, hanswer⟩ := hbuffer
    intro page hpage
    rcases List.mem_append.mp hpage with hold | hnew
    · exact hp page hold
    · rw [List.mem_singleton.mp hnew]
      intro hnull
      exact hd _ s (hanswer.trans (congrArg Answer.ok hnull))
  | _ => exact hp

theorem Turns.nonNull (hd : d.NeverNull) {ending : Ending StagingError Nat}
    (h : Turns d p ending q events) (hp : p.NonNull) : q.NonNull := by
  cases h with
  | unflushed hflush => exact hflush.nonNull hp
  | broken hflush => exact hflush.nonNull hp
  | @reused q _ _ hflush _ =>
    have hq : q.NonNull := hflush.nonNull hp
    exact hq
  | @uncreated q _ _ _ _ hflush _ hcreate =>
    have hq : q.retire.NonNull := hflush.nonNull hp
    exact hcreate.nonNull hd hq
  | @created q r _ _ _ hflush _ hcreate =>
    have hq : q.retire.NonNull := hflush.nonNull hp
    have hr : r.NonNull := hcreate.nonNull hd hq
    exact hr

theorem NonNull.handOut {index used : Nat} (hp : p.NonNull) :
    (p.handOut index submission used).NonNull := by
  intro page hpage
  have hbuffer : page.buffer ∈ (p.handOut index submission used).buffers :=
    List.mem_map_of_mem hpage
  rw [buffers_handOut] at hbuffer
  obtain ⟨other, hother, heq⟩ := List.mem_map.mp hbuffer
  rw [← heq]
  exact hp other hother

theorem Requests.nonNull (hd : d.NeverNull) {ending : Ending StagingError Allocation}
    (h : Requests d p submission size alignment ending q events) (hp : p.NonNull) :
    q.NonNull := by
  cases h with
  | empty _ => exact hp
  | misaligned _ => exact hp
  | overflow _ => exact hp
  | missing _ _ => exact hp
  | served _ _ _ _ _ _ => exact hp.handOut
  | unturned _ _ _ hturn => exact hturn.nonNull hd hp
  | broken hturn => exact hturn.nonNull hd hp
  | lost hturn _ => exact hturn.nonNull hd hp
  | turned _ _ _ hturn _ => exact (hturn.nonNull hd hp).handOut

/-- An allocation is cut from the buffer of a page. -/
theorem Requests.buffer_mem (h : Requests d p submission size alignment (.done a) q events) :
    a.buffer ∈ q.buffers := by
  cases h with
  | served _ _ _ _ _ hpage =>
    rw [buffers_handOut]
    exact List.mem_map_of_mem (List.mem_of_getElem? hpage)
  | turned _ _ _ _ hpage =>
    rw [buffers_handOut]
    exact List.mem_map_of_mem (List.mem_of_getElem? hpage)

theorem Requests.buffer_ne_null (hd : d.NeverNull)
    (h : Requests d p submission size alignment (.done a) q events) (hp : p.NonNull) :
    a.buffer ≠ Handle.null := by
  obtain ⟨page, hpage, heq⟩ := List.mem_map.mp h.buffer_mem
  rw [← heq]
  exact h.nonNull hd hp page hpage

/-! ## Requests that are stopped -/

/-- There are bytes of the current page to flush, and their end, rounded up to flush units,
is no size. -/
structure FlushOverflows (p : Pool) : Prop where
  dirty : ∃ page, p.currentPage? = some page ∧ p.IsDirty page
  large : Size.limit ≤ p.used + p.config.flushUnit

theorem Flushes.overflows {v : Violation} (h : Flushes p (.broken v) q events) :
    v = .sizeOverflow ∧ q = p ∧ p.FlushOverflows := by
  cases h with
  | overflow hpage hdirty hrange =>
    rw [dirtyRange?, Option.map_eq_none_iff, Size.roundUp?_eq_none_iff] at hrange
    exact ⟨rfl, rfl, ⟨_, hpage, hdirty⟩, hrange⟩

theorem Turns.overflows {v : Violation} (h : Turns d p (.broken v) q events) :
    v = .sizeOverflow ∧ q = p ∧ p.FlushOverflows := by
  cases h with
  | broken hflush => exact hflush.overflows

/-- A request for some bytes at a multiple of a power of two is answered or refused, unless
the end of what was handed out cannot be rounded up to that multiple, or to flush units for
a flush. -/
theorem Requests.overflows {v : Violation}
    (h : Requests d p submission size alignment (.broken v) q events) (hp : p.Valid)
    (hsize : size ≠ 0) (hpower : Size.IsPowerOfTwo alignment) :
    v = .sizeOverflow ∧ q = p ∧ (Size.limit ≤ p.used + alignment ∨ p.FlushOverflows) := by
  cases h with
  | empty hzero => exact absurd hzero hsize
  | misaligned hno => exact absurd hpower hno
  | overflow hnone => exact ⟨rfl, rfl, .inl (Size.roundUp?_eq_none_iff.mp hnone)⟩
  | missing hcurrent hnone =>
    obtain ⟨page, hpage⟩ := hp.exists_page hcurrent
    rw [hpage] at hnone
    cases hnone
  | broken hturn =>
    obtain ⟨hv, hsame, hlarge⟩ := hturn.overflows
    exact ⟨hv, hsame, .inr hlarge⟩
  | lost hturn hnone =>
    have hcurrent := hturn.turned.1
    obtain ⟨page, hpage⟩ := (hturn.valid hp).exists_page hcurrent
    rw [hpage] at hnone
    cases hnone

end GuestReplica.Staging.Pool
