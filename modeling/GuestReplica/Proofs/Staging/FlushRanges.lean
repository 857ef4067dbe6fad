import GuestReplica.Proofs.Staging.Failures
import GuestReplica.Proofs.Staging.Fit

set_option autoImplicit false

/-!
# The ranges that are flushed

The device takes flushes of whole units only, or up to the end of the memory.  A flush
starts with the last unit that begins before the dirty bytes, and stops with the first one
that ends behind them, or at the end of the memory if that unit would leave the page.  It is
made only if something was handed out since the last flush, and the only flush that cannot
be computed is one of a whole page that adds up with a unit to one more than any size.
-/

namespace GuestReplica

/-- Rounding down finds the greatest multiple that is no larger. -/
theorem Size.isGreatest_roundDown {unit : Nat} (value : Nat) (h : 0 < unit) :
    IsGreatest {x | unit ∣ x ∧ x ≤ value} (Size.roundDown value unit) := by
  refine ⟨⟨Size.dvd_roundDown value unit, Size.roundDown_le value unit⟩, ?_⟩
  rintro _ ⟨⟨k, rfl⟩, hle⟩
  rw [Nat.mul_comm]
  exact Nat.mul_le_mul_right unit ((Nat.le_div_iff_mul_le h).mpr (Nat.mul_comm unit k ▸ hle))

namespace Staging.Pool

variable {σ : Type} {d : Device σ} {p q : Pool} {events : List Event} {page : Page}
variable {range : MappedRange}

/-! ## One range -/

/-- A range of the memory of a page is as small as whole units allow.  It starts at the
greatest multiple of the unit that is not behind the flushed bytes, and stops at the least
one that is not before the end of what is handed out, unless that is the end of the page
or lies behind it. -/
structure Tight (p : Pool) (page : Page) (range : MappedRange) : Prop where
  memory_eq : range.memory = page.memory
  offset_greatest : IsGreatest {x | p.config.flushUnit ∣ x ∧ x ≤ p.flushed} range.offset
  stops : ∃ stop, IsLeast {x | p.config.flushUnit ∣ x ∧ p.used ≤ x} stop ∧
    (range.size = Size.whole ↔ p.config.pageSize ≤ stop) ∧
    (stop < p.config.pageSize → 0 < range.size ∧ p.config.flushUnit ∣ range.size ∧
      range.offset + range.size = stop)

/-- The range that a flush computes for dirty bytes is such a range.  No range within the
page has the size that stands for "up to the end", since that is no page size. -/
theorem tight_of_dirtyRange? (hp : p.Valid) (hsize : p.config.pageSize ≤ Size.whole)
    (hdirty : p.flushed < p.used) (h : p.dirtyRange? page = some range) : p.Tight page range := by
  obtain ⟨stop, hround, rfl⟩ := Option.map_eq_some_iff.mp h
  obtain ⟨_, rfl⟩ := Size.roundUp?_eq_some_iff.mp hround
  have hstart := Size.roundDown_le p.flushed p.config.flushUnit
  have hstop := Size.le_roundUp p.used hp.flushUnit_pos
  refine ⟨rfl, Size.isGreatest_roundDown p.flushed hp.flushUnit_pos, _,
    Size.isLeast_roundUp p.used hp.flushUnit_pos, ?_⟩
  by_cases hend : p.config.pageSize ≤ Size.roundUp p.used p.config.flushUnit
  · rw [if_pos hend]
    exact ⟨by simp [hend], fun hlt => absurd hlt (Nat.not_lt_of_le hend)⟩
  · rw [if_neg hend]
    refine ⟨⟨fun hwhole => ?_, fun hle => absurd hle hend⟩, fun _ => ⟨?_, ?_, ?_⟩⟩
    · simp only at hwhole
      omega
    · simp only
      omega
    · exact Nat.dvd_sub (Size.dvd_roundUp _ _) (Size.dvd_roundDown _ _)
    · simp only
      omega

/-- All of the page is handed out, and the page and a unit add up to one more than any
size. -/
def AtLimit (p : Pool) : Prop :=
  p.used = p.config.pageSize ∧ p.config.pageSize + p.config.flushUnit = Size.limit

instance (p : Pool) : Decidable p.AtLimit := inferInstanceAs (Decidable (_ ∧ _))

/-- Where a page and a unit add up to no more than that, nothing else is too large. -/
theorem dirtyRange?_eq_none_iff (hp : p.Valid)
    (hlimit : p.config.pageSize + p.config.flushUnit ≤ Size.limit) (page : Page) :
    p.dirtyRange? page = none ↔ p.AtLimit := by
  have hused := hp.used_le_pageSize
  rw [dirtyRange?, Option.map_eq_none_iff, Size.roundUp?_eq_none_iff, AtLimit]
  omega

theorem pageSize_le_whole (hp : p.Valid)
    (hlimit : p.config.pageSize + p.config.flushUnit ≤ Size.limit) :
    p.config.pageSize ≤ Size.whole := by
  have hunit := hp.flushUnit_pos
  unfold Size.whole
  omega

/-! ## What is handed out since the last flush -/

/-- The step is a flush that succeeds. -/
def FlushesAll (step : OwnerStep) : Prop :=
  step.use = .client .flush ∧ step.answer = .done none

/-- Something was handed out after the last flush that has succeeded.  Flushes by requests
need not be counted: a request that flushes the current page and leaves it hands out bytes
of another page, or leaves none current. -/
def HandedOutSinceFlush (steps : List OwnerStep) : Prop :=
  ∃ before step later, steps = before ++ step :: later ∧ (allocation? step).isSome ∧
    ∀ next ∈ later, ¬ FlushesAll next

theorem handedOutSinceFlush_concat {steps : List OwnerStep} {step : OwnerStep} :
    HandedOutSinceFlush (steps ++ [step]) ↔
      (allocation? step).isSome ∨ ¬ FlushesAll step ∧ HandedOutSinceFlush steps := by
  constructor
  · rintro ⟨before, first, later, hcut, hfirst, hlater⟩
    rcases List.eq_nil_or_concat' later with rfl | ⟨later, last, rfl⟩
    · obtain ⟨rfl, hstep⟩ := List.append_inj' hcut rfl
      rw [List.singleton_inj.mp hstep]
      exact .inl hfirst
    · rw [← List.cons_append, ← List.append_assoc] at hcut
      obtain ⟨rfl, hstep⟩ := List.append_inj' hcut rfl
      rw [List.singleton_inj.mp hstep]
      exact .inr ⟨hlater last (by simp), before, first, later, rfl, hfirst,
        fun next hnext => hlater next (by simp [hnext])⟩
  · rintro (hstep | ⟨hstep, before, first, later, rfl, hfirst, hlater⟩)
    · exact ⟨steps, step, [], rfl, hstep, by simp⟩
    · refine ⟨before, first, later ++ [step], by simp, hfirst, fun next hnext => ?_⟩
      rcases List.mem_append.mp hnext with hnext | hnext
      · exact hlater next hnext
      · rwa [List.mem_singleton.mp hnext]

/-! ## Steps -/

variable {submission size alignment index : Nat}

/-- Bytes that are handed out are not flushed yet. -/
theorem Requests.flushed_lt_used {a : Allocation}
    (h : Requests d p submission size alignment (.done a) q events) (hp : p.Valid) :
    q.flushed < q.used := by
  have hpos := h.size_pos hp
  cases h with
  | served _ hpower hround _ _ _ =>
    obtain ⟨_, rfl⟩ := Size.roundUp?_eq_some_iff.mp hround
    have hflushed := hp.flushed_le_used
    have hoffset := Size.le_roundUp p.used hpower.pos
    simp only [handOut]
    omega
  | @turned q _ _ page _ _ _ _ hturn _ =>
    obtain ⟨_, _, hflushed⟩ := hturn.turned
    simp only [handOut]
    omega

theorem Flushes.flushed_eq_used (h : Flushes p (.done ()) q events) (hp : p.Valid)
    (hcurrent : q.current = some index) : q.flushed = q.used := by
  cases h with
  | idle hpage => cases (hp.current_eq_none hpage).symm.trans hcurrent
  | clean _ _ => rfl
  | flushed _ _ _ => rfl

/-- A request that is not served flushes nothing, or it leaves the current page. -/
theorem Requests.flushed_eq {ending : Ending StagingError Allocation}
    (h : Requests d p submission size alignment ending q events) (hp : p.Valid)
    (hending : ∀ a, ending ≠ .done a) (hcurrent : q.current = some index) :
    q.flushed = p.flushed := by
  cases h with
  | empty _ => rfl
  | misaligned _ => rfl
  | overflow _ => rfl
  | missing _ _ => rfl
  | served _ _ _ _ _ _ => exact absurd rfl (hending _)
  | unturned _ _ _ hturn =>
    cases hturn with
    | unflushed hflush =>
      cases hflush
      rfl
    | uncreated _ _ hcreate =>
      rw [hcreate.eq_of_failed] at hcurrent
      cases hcurrent
  | broken hturn => rw [hturn.overflows.2.1]
  | lost hturn hnone => exact absurd hnone (hturn.page_ne_none hp)
  | turned _ _ _ _ _ => exact absurd rfl (hending _)

theorem OwnerPerforms.flushed_eq {step : OwnerStep}
    (h : OwnerPerforms d p step.use step.answer q events) (hp : p.Valid)
    (hanswer : ∀ a, step.answer ≠ .done (some a)) (hflush : ¬ FlushesAll step)
    (hcurrent : q.current = some index) : q.flushed = p.flushed := by
  obtain ⟨use, answer, _⟩ := step
  cases h with
  | client hperforms =>
    cases hperforms with
    | allocated hrequest => exact absurd rfl (hanswer _)
    | unserved hrequest => exact hrequest.flushed_eq hp (by simp) hcurrent
    | stopped hrequest => exact hrequest.flushed_eq hp (by simp) hcurrent
    | reclaimed _ => rfl
    | flushed _ => exact absurd ⟨rfl, rfl⟩ hflush
    | unflushed hrefused =>
      cases hrefused
      rfl
    | overflow hbroken => rw [hbroken.overflows.2.1]
  | destroyed => cases hcurrent

theorem OwnerPerforms.flushed_eq_used {step : OwnerStep}
    (h : OwnerPerforms d p step.use step.answer q events) (hp : p.Valid)
    (hflush : FlushesAll step) (hcurrent : q.current = some index) : q.flushed = q.used := by
  rw [hflush.1, hflush.2] at h
  cases h with
  | client hperforms =>
    cases hperforms with
    | flushed hflushes => exact hflushes.flushed_eq_used hp hcurrent

theorem OwnerPerforms.mustFlush {use : OwnerUse}
    {answer : Ending StagingError (Option Allocation)} {ranges : List MappedRange}
    {answered : Answer Unit} (h : OwnerPerforms d p use answer q events)
    (hmem : .call (.flush ranges answered) ∈ events) : p.MustFlush ranges := by
  cases h with
  | client hperforms => exact hperforms.mustFlush hmem
  | destroyed => simp [released] at hmem

/-! ## Runs -/

variable {s s' : σ} {steps : List OwnerStep}

/-- While there is a current page, it has dirty bytes just if something was handed out since
the last flush. -/
theorem flushed_lt_used_iff {config : Config} (hnew : new config = .ok p)
    (hrun : Runs (OwnerUse.action d) p s steps q s') (hcurrent : q.current = some index) :
    q.flushed < q.used ↔ HandedOutSinceFlush steps := by
  induction steps using List.reverseRecOn generalizing q s' index with
  | nil =>
    cases hrun
    obtain ⟨_, _, rfl⟩ := new_eq_ok_iff.mp hnew
    cases hcurrent
  | append_singleton steps step ih =>
    obtain ⟨p₁, s₁, hbefore, hlast⟩ := hrun.split
    obtain ⟨_, _, hstep, hnil⟩ := hlast.uncons
    cases hnil
    have hp := (keeps_of_new hnew hbefore).1
    have hperforms := ownerPerforms_of_run hstep
    rw [handedOutSinceFlush_concat]
    rcases hperforms.request_or_staysIn hp with
      ⟨a, _, _, _, hanswer, _, hrequest⟩ | ⟨hanswer, hstays⟩
    · exact iff_of_true (hrequest.flushed_lt_used hp)
        (.inl (by simp [allocation?_eq_some_iff.mpr hanswer]))
    · obtain ⟨hcurrent₁, hused, _⟩ := hstays hcurrent
      simp only [allocation?_eq_none hanswer, Option.isSome_none, Bool.false_eq_true, false_or]
      by_cases hflush : FlushesAll step
      · have hflushed := hperforms.flushed_eq_used hp hflush hcurrent
        exact iff_of_false (by omega) fun h => h.1 hflush
      · rw [hperforms.flushed_eq hp hanswer hflush hcurrent, hused, ih hbefore hcurrent₁]
        simp [hflush]

/-- Where a page and a unit add up to one more than any size at most, what must be flushed
are dirty bytes of the current page, and the range for them is tight. -/
theorem MustFlush.tight {ranges : List MappedRange} (h : p.MustFlush ranges) (hp : p.Valid)
    (hlimit : p.config.pageSize + p.config.flushUnit ≤ Size.limit) :
    ∃ page range, p.currentPage? = some page ∧ p.IsDirty page ∧ ranges = [range] ∧
      p.Tight page range := by
  obtain ⟨page, range, hpage, hdirty, hrange, rfl⟩ := h
  exact ⟨page, range, hpage, hdirty, rfl,
    tight_of_dirtyRange? hp (pageSize_le_whole hp hlimit) hdirty.2 hrange⟩

/-- There is nothing to flush: there is no current page, or it is coherent, or nothing was
handed out since the last flush. -/
def Settled (p : Pool) (steps : List OwnerStep) : Prop :=
  ∀ page, p.currentPage? = some page → page.coherent = true ∨ ¬ HandedOutSinceFlush steps

theorem Flushes.of_settled {ending : Ending StagingError Unit} (h : Flushes p ending q events)
    (hsettled : p.Settled steps)
    (hdirty : ∀ page, p.currentPage? = some page →
      (p.flushed < p.used ↔ HandedOutSinceFlush steps)) : ending = .done () ∧ events = [] := by
  refine h.of_clean ?_
  rintro page hpage ⟨hincoherent, hlt⟩
  rcases hsettled page hpage with hcoherent | hnone
  · cases hincoherent.symm.trans hcoherent
  · exact hnone ((hdirty page hpage).mp hlt)

/-- A flush of dirty bytes makes one call for one range, which is tight, or it is stopped at
the limit, where it leaves the pool as it is. -/
theorem Flushes.of_dirty {ending : Ending StagingError Unit} (h : Flushes p ending q events)
    (hp : p.Valid) (hlimit : p.config.pageSize + p.config.flushUnit ≤ Size.limit)
    (hpage : p.currentPage? = some page) (hdirty : p.IsDirty page) :
    (p.AtLimit → ending = .broken .sizeOverflow ∧ q = p ∧ events = []) ∧
      (¬ p.AtLimit → ending.Returns ∧ ∃ range answer,
        events = [.call (.flush [range] answer)] ∧ p.Tight page range) := by
  have hnone := dirtyRange?_eq_none_iff hp hlimit page
  rcases h.asks_or_stops hpage hdirty with
    ⟨range, answer, hrange, hreturns, hevents⟩ | ⟨hrange, hstopped⟩
  · refine ⟨fun hatLimit => ?_, fun _ => ⟨hreturns, range, answer, hevents, ?_⟩⟩
    · cases (hnone.mpr hatLimit).symm.trans hrange
    · exact tight_of_dirtyRange? hp (pageSize_le_whole hp hlimit) hdirty.2 hrange
  · exact ⟨fun _ => hstopped, fun hroom => absurd (hnone.mp hrange) hroom⟩

/-- Let a page and a flush unit, of any size, add up to one more than any size at most.
Whatever the owner of a pool has done with it, and however the device answers, a flush makes
no call if there is nothing to flush, and otherwise one call for one tight range of the
memory of the current page, unless the page is full and the sum is just that.  All flushes
that requests have made on the way are for such ranges, too. -/
theorem flush_ranges_tight {config : Config} {p₀ : Pool} {s₀ : σ} (hnew : new config = .ok p₀)
    (hlimit : config.pageSize + config.flushUnit ≤ Size.limit)
    (hrun : Runs (OwnerUse.action d) p₀ s₀ steps p s) :
    (∀ {ending q s' events}, (flush d).run p s = ⟨ending, q, s', events⟩ →
      (p.Settled steps → ending = .done () ∧ events = []) ∧
      ∀ page, p.currentPage? = some page → page.coherent = false → HandedOutSinceFlush steps →
        (p.AtLimit → ending = .broken .sizeOverflow ∧ q = p ∧ events = []) ∧
          (¬ p.AtLimit → ending.Returns ∧ ∃ range answer,
            events = [.call (.flush [range] answer)] ∧ p.Tight page range)) ∧
      ∀ {before step later ranges answer}, steps = before ++ step :: later →
        .call (.flush ranges answer) ∈ step.events →
        ∃ p₁ s₁ page range, Runs (OwnerUse.action d) p₀ s₀ before p₁ s₁ ∧
          p₁.currentPage? = some page ∧ page.coherent = false ∧ HandedOutSinceFlush before ∧
          ranges = [range] ∧ p₁.Tight page range := by
  have hdirty : ∀ {before p₁ s₁ page}, Runs (OwnerUse.action d) p₀ s₀ before p₁ s₁ →
      p₁.currentPage? = some page → (p₁.flushed < p₁.used ↔ HandedOutSinceFlush before) := by
    intro before p₁ s₁ page hbefore hpage
    obtain ⟨index, hcurrent, _⟩ := Option.bind_eq_some_iff.mp hpage
    exact flushed_lt_used_iff hnew hbefore hcurrent
  constructor
  · intro ending q s' events hflush
    obtain ⟨hp, _, rfl⟩ := keeps_of_new hnew hrun
    have hflushes := flushes_of_run hflush
    refine ⟨fun hsettled => hflushes.of_settled hsettled fun _ => hdirty hrun, ?_⟩
    intro page hpage hcoherent hhanded
    exact hflushes.of_dirty hp hlimit hpage ⟨hcoherent, (hdirty hrun hpage).mpr hhanded⟩
  · rintro before step later ranges answer rfl hmem
    obtain ⟨p₁, s₁, hbefore, hrest⟩ := hrun.split
    obtain ⟨_, _, hstep, _⟩ := hrest.uncons
    obtain ⟨hp, _, rfl⟩ := keeps_of_new hnew hbefore
    obtain ⟨page, range, hpage, ⟨hcoherent, hlt⟩, hranges, htight⟩ :=
      ((ownerPerforms_of_run hstep).mustFlush hmem).tight hp hlimit
    exact ⟨p₁, s₁, page, range, hbefore, hpage, hcoherent, (hdirty hbefore hpage).mp hlt, hranges,
      htight⟩

/-- Pages that are no multiples of the flush unit. -/
def unevenPages : Config where
  pageSize := 16
  hostVisible := 2
  flushUnit := 6

/-- Three bytes are handed out after a flush. -/
def refillPage : List OwnerStep × Pool × Simulated.State :=
  play (OwnerUse.action (Simulated.device .direct)) (ofConfig unevenPages)
    (Simulated.State.new {})
    [.client (.request 1 7 1), .client .flush, .client (.request 1 3 1)]

/-- The next flush is for the second unit. -/
theorem flush_ranges_tight_uneven :
    ((flush (Simulated.device .direct)).run refillPage.2.1 refillPage.2.2).events =
        [.call (.flush [⟨2, 6, 6⟩] (.ok ()))] ∧
      refillPage.2.1.Tight ⟨1, 2, false, 1⟩ ⟨2, 6, 6⟩ := by
  have hnew : new unevenPages = .ok (ofConfig unevenPages) := rfl
  have hlimit : unevenPages.pageSize + unevenPages.flushUnit ≤ Size.limit := by decide
  have hrun : Runs (OwnerUse.action (Simulated.device .direct)) (ofConfig unevenPages)
      (Simulated.State.new {}) refillPage.1 refillPage.2.1 refillPage.2.2 := runs_play _ _ _ _
  have hpage : refillPage.2.1.currentPage? = some ⟨1, 2, false, 1⟩ := by decide
  have hhanded : HandedOutSinceFlush refillPage.1 :=
    ⟨_, _, [], (List.dropLast_append_getLast? _ rfl).symm, by decide, by simp⟩
  have hroom : ¬ refillPage.2.1.AtLimit := by decide
  have hevents : ((flush (Simulated.device .direct)).run refillPage.2.1 refillPage.2.2).events =
      [.call (.flush [⟨2, 6, 6⟩] (.ok ()))] := by decide
  obtain ⟨_, hflush⟩ := (flush_ranges_tight hnew hlimit hrun).1 (Outcome.eta _)
  obtain ⟨_, range, answer, hcall, htight⟩ := (hflush _ hpage rfl hhanded).2 hroom
  have heq : [Event.call (.flush [⟨2, 6, 6⟩] (.ok ()))] = [.call (.flush [range] answer)] :=
    hevents.symm.trans hcall
  cases heq
  exact ⟨hevents, htight⟩

/-- Pages that add up with a flush unit to one more than any size. -/
def vastUnit : Config where
  pageSize := 4096
  hostVisible := 2
  flushUnit := Size.limit - 4096

/-- A page is handed out as a whole. -/
def fillVastUnit : List OwnerStep × Pool × Simulated.State :=
  play (OwnerUse.action (Simulated.device .direct)) (ofConfig vastUnit) (Simulated.State.new {})
    [.client (.request 1 4096 1)]

/-- It cannot be flushed. -/
theorem flush_stopped_at_limit :
    new vastUnit = .ok (ofConfig vastUnit) ∧
      vastUnit.pageSize + vastUnit.flushUnit = Size.limit ∧
      Runs (OwnerUse.action (Simulated.device .direct)) (ofConfig vastUnit)
        (Simulated.State.new {}) fillVastUnit.1 fillVastUnit.2.1 fillVastUnit.2.2 ∧
      HandedOutSinceFlush fillVastUnit.1 ∧
      ((flush (Simulated.device .direct)).run fillVastUnit.2.1 fillVastUnit.2.2).ending =
        .broken .sizeOverflow :=
  ⟨rfl, by decide, runs_play _ _ _ _, ⟨[], _, [], rfl, by decide, by simp⟩, by decide⟩

end Staging.Pool

end GuestReplica
