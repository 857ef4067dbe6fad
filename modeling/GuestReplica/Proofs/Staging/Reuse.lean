import GuestReplica.Device.Simulated
import GuestReplica.Proofs.Staging.Runs

set_option autoImplicit false

/-!
# Staging bytes are not reused too early

The bytes of a page that were handed out to a submission must stay as they are
until the pool has been told that the submission is complete.  A pool *guards*
such bytes: their page is not writable, it remembers a submission that is at least
as late, and if it is the current one, the bytes lie in the part that is handed
out.  Every step keeps a guard, except a reclaim for a submission that is as late;
and what is guarded is not handed out again.
-/

namespace GuestReplica.Staging.Pool

variable {σ : Type} {d : Device σ} {p q : Pool} {events : List Event}
variable {submission stop : Nat} {buffer : Handle}

/-- The bytes of a buffer before `stop` are kept until a submission is complete. -/
def Guards (p : Pool) (submission : Nat) (buffer : Handle) (stop : Nat) : Prop :=
  ∃ index page, p.pages[index]? = some page ∧ page.buffer = buffer ∧
    submission ≤ page.lastSubmission ∧ index ∉ p.writable ∧
    (p.current = some index → stop ≤ p.used)

/-! ## Guards and the steps without a device -/

theorem Guards.markFlushed (h : p.Guards submission buffer stop) :
    p.markFlushed.Guards submission buffer stop := h

theorem Guards.retire (h : p.Guards submission buffer stop) :
    p.retire.Guards submission buffer stop := by
  obtain ⟨index, page, hpage, hbuffer, hlast, hwritable, _⟩ := h
  exact ⟨index, page, hpage, hbuffer, hlast, hwritable, fun h => nomatch h⟩

/-- A page that is writable again has no guarded bytes, so it can be turned to. -/
theorem Guards.reuse {next : Nat} (h : p.Guards submission buffer stop)
    (hlast : p.writable.getLast? = some next) :
    (p.dropWritable.turnTo next).Guards submission buffer stop := by
  obtain ⟨index, page, hpage, hbuffer, hsubmission, hwritable, _⟩ := h
  have hnext : next ∈ p.writable := List.mem_of_getLast? hlast
  refine ⟨index, page, hpage, hbuffer, hsubmission, ?_, ?_⟩
  · exact fun hmem => hwritable (List.dropLast_subset _ hmem)
  · intro hcurrent
    simp only [turnTo, Option.some.injEq] at hcurrent
    rw [hcurrent] at hnext
    exact absurd hnext hwritable

theorem Guards.create {added : Page} (h : p.Guards submission buffer stop) :
    ((p.addPage added).turnTo p.pages.length).Guards submission buffer stop := by
  obtain ⟨index, page, hpage, hbuffer, hsubmission, hwritable, _⟩ := h
  have hlt : index < p.pages.length := (List.getElem?_eq_some_iff.mp hpage).1
  refine ⟨index, page, ?_, hbuffer, hsubmission, hwritable, ?_⟩
  · simp only [addPage, turnTo]
    rw [List.getElem?_append_left hlt, hpage]
  · intro hcurrent
    simp only [turnTo, Option.some.injEq] at hcurrent
    omega

/-- Handing out more of the current page to a submission that is as late. -/
theorem Guards.handOut {index later used : Nat} (h : p.Guards submission buffer stop)
    (hlater : submission ≤ later) (hused : p.used ≤ used) :
    (p.handOut index later used).Guards submission buffer stop := by
  obtain ⟨i, page, hpage, hbuffer, hsubmission, hwritable, hcurrent⟩ := h
  have hstop : p.current = some i → stop ≤ used := fun hi => Nat.le_trans (hcurrent hi) hused
  by_cases hi : index = i
  · refine ⟨i, { page with lastSubmission := later }, ?_, hbuffer, hlater, hwritable, hstop⟩
    simp [Pool.handOut, hpage, hi]
  · refine ⟨i, page, ?_, hbuffer, hsubmission, hwritable, hstop⟩
    simp [Pool.handOut, hpage, hi]

/-- Submissions before the guarded one may complete. -/
theorem Guards.reclaim {completed : Nat} (h : p.Guards submission buffer stop)
    (hearlier : completed < submission) :
    (p.reclaim completed).Guards submission buffer stop := by
  obtain ⟨index, page, hpage, hbuffer, hsubmission, hwritable, hcurrent⟩ := h
  refine ⟨index, page, hpage, hbuffer, hsubmission, ?_, hcurrent⟩
  intro hmem
  rcases List.mem_append.mp hmem with hmem | hmem
  · exact hwritable hmem
  · -- only pages whose last submission is complete are made writable
    have hdone : p.isDone completed index = true := by
      have hall := List.all_takeWhile (p := p.isDone completed) (l := p.submitted)
      exact List.all_eq_true.mp hall index hmem
    simp only [isDone, hpage, Option.any_some, decide_eq_true_eq] at hdone
    omega

/-- What is handed out of the current page is guarded from then on. -/
theorem guards_handOut {index used : Nat} {page : Page} (hp : p.Valid)
    (hcurrent : p.current = some index) (hpage : p.pages[index]? = some page) :
    (p.handOut index submission used).Guards submission page.buffer used := by
  refine ⟨index, { page with lastSubmission := submission }, ?_, rfl, Nat.le_refl _, ?_, ?_⟩
  · simp [handOut, hpage]
  · -- the current page is in no other place
    have hnodup := hp.nodup_places
    simp only [places, hcurrent, Option.toList_some, List.append_assoc] at hnodup
    intro hmem
    have hdisjoint := (List.nodup_append.mp (List.nodup_append.mp hnodup).2.1).2.2
    exact hdisjoint index hmem index (by simp) rfl
  · exact fun _ => Nat.le_refl used

/-- Guarded bytes of the current page lie in the part that is handed out, provided
that no other page has its buffer. -/
theorem Guards.stop_le_used {index : Nat} {page : Page}
    (h : p.Guards submission page.buffer stop) (hnodup : p.buffers.Nodup)
    (hcurrent : p.current = some index) (hpage : p.pages[index]? = some page) :
    stop ≤ p.used := by
  obtain ⟨i, other, hother, hbuffer, _, _, hstop⟩ := h
  have hi : i < p.buffers.length := by
    simpa [buffers] using (List.getElem?_eq_some_iff.mp hother).1
  have hsame : p.buffers[i]? = p.buffers[index]? := by
    simp [buffers, hother, hpage, hbuffer]
  have heq : i = index := (List.getElem?_inj hi hnodup).mp hsame
  rw [heq] at hstop
  exact hstop hcurrent

/-! ## Guards and the operations -/

theorem Flushes.guards {ending : Ending StagingError Unit} (h : Flushes p ending q events)
    (hguards : p.Guards submission buffer stop) : q.Guards submission buffer stop := by
  cases h with
  | idle _ => exact hguards
  | clean _ _ => exact hguards.markFlushed
  | flushed _ _ _ => exact hguards.markFlushed
  | refused _ _ _ => exact hguards
  | overflow _ _ _ => exact hguards

theorem Turns.guards {ending : Ending StagingError Nat} (h : Turns d p ending q events)
    (hguards : p.Guards submission buffer stop) : q.Guards submission buffer stop := by
  cases h with
  | unflushed hflush => exact hflush.guards hguards
  | broken hflush => exact hflush.guards hguards
  | reused hflush hlast => exact (hflush.guards hguards).retire.reuse hlast
  | uncreated hflush _ hcreate => cases hcreate <;> exact (hflush.guards hguards).retire
  | created hflush _ hcreate =>
    cases hcreate with
    | created _ _ _ => exact (hflush.guards hguards).retire.create

variable {later size alignment : Nat}

theorem Requests.guards {ending : Ending StagingError Allocation}
    (h : Requests d p later size alignment ending q events) (hlater : submission ≤ later)
    (hguards : p.Guards submission buffer stop) : q.Guards submission buffer stop := by
  cases h with
  | empty _ => exact hguards
  | misaligned _ => exact hguards
  | overflow _ => exact hguards
  | missing _ _ => exact hguards
  | served _ hpower hround _ _ _ =>
    obtain ⟨_, rfl⟩ := Size.roundUp?_eq_some_iff.mp hround
    apply hguards.handOut hlater
    exact Nat.le_trans (Size.le_roundUp p.used hpower.pos) (Nat.le_add_right _ _)
  | unturned _ _ _ hturn => exact hturn.guards hguards
  | broken hturn => exact hturn.guards hguards
  | lost hturn _ => exact hturn.guards hguards
  | turned _ _ _ hturn _ =>
    obtain ⟨_, hused, _⟩ := hturn.turned
    exact (hturn.guards hguards).handOut hlater (by omega)

/-- The bytes of an allocation are guarded for the submission that they were
requested for. -/
theorem Requests.guards_allocation {a : Allocation}
    (h : Requests d p submission size alignment (.done a) q events) (hp : p.Valid) :
    q.Guards submission a.buffer (a.offset + a.size) := by
  cases h with
  | served _ _ _ hcurrent _ hpage => exact guards_handOut hp hcurrent hpage
  | turned _ _ _ hturn hpage =>
    rw [show (cut _ _ size 0).offset = 0 from rfl, Nat.zero_add]
    exact guards_handOut (hturn.valid hp) hturn.turned.1 hpage

/-- An allocation starts behind all bytes of its buffer that are guarded. -/
theorem Requests.stop_le_offset {a : Allocation}
    (h : Requests d p later size alignment (.done a) q events) (hnodup : q.buffers.Nodup)
    (hguards : p.Guards submission a.buffer stop) : stop ≤ a.offset := by
  cases h with
  | served _ hpower hround hcurrent _ hpage =>
    obtain ⟨_, rfl⟩ := Size.roundUp?_eq_some_iff.mp hround
    rw [buffers_handOut] at hnodup
    have hused := hguards.stop_le_used hnodup hcurrent hpage
    exact Nat.le_trans hused (Size.le_roundUp p.used hpower.pos)
  | turned _ _ _ hturn hpage =>
    obtain ⟨hcurrent, hzero, _⟩ := hturn.turned
    rw [buffers_handOut] at hnodup
    have hused := (hturn.guards hguards).stop_le_used hnodup hcurrent hpage
    simpa [cut, hzero] using hused

/-! ## Runs -/

theorem Performs.guards_allocation {a : Allocation}
    (h : Performs d p (.request submission size alignment) (.done (some a)) q events)
    (hp : p.Valid) : q.Guards submission a.buffer (a.offset + a.size) := by
  cases h with
  | allocated hrequest => exact hrequest.guards_allocation hp

theorem Performs.stop_le_offset {use : Use} {a : Allocation}
    (h : Performs d p use (.done (some a)) q events) (hnodup : q.buffers.Nodup)
    (hguards : p.Guards submission a.buffer stop) : stop ≤ a.offset := by
  cases h with
  | allocated hrequest => exact hrequest.stop_le_offset hnodup hguards

/-- A step keeps a guard, unless it reclaims the pages of a submission as late. -/
theorem Performs.guards {use : Use} {answer : Ending StagingError (Option Allocation)}
    (h : Performs d p use answer q events) (hguards : p.Guards submission buffer stop)
    (hlater : ∀ other ∈ use.submission?, submission ≤ other)
    (hreclaim : ∀ completed, use = .reclaim completed → completed < submission) :
    q.Guards submission buffer stop := by
  cases h with
  | allocated hrequest => exact hrequest.guards (hlater _ rfl) hguards
  | unserved hrequest => exact hrequest.guards (hlater _ rfl) hguards
  | stopped hrequest => exact hrequest.guards (hlater _ rfl) hguards
  | reclaimed completed => exact hguards.reclaim (hreclaim completed rfl)
  | flushed hflush => exact hflush.guards hguards
  | unflushed hflush => exact hflush.guards hguards
  | overflow hflush => exact hflush.guards hguards

/-- So does a run whose requests are for submissions as late, and whose reclaims are
all for earlier ones. -/
theorem guards_of_runs {s s' : σ} {steps : List PoolStep}
    (h : Runs (Use.action d) p s steps q s') (hguards : p.Guards submission buffer stop)
    (hlater : ∀ step ∈ steps, ∀ other ∈ step.use.submission?, submission ≤ other)
    (hreclaim : ∀ step ∈ steps, ∀ completed, step.use = .reclaim completed →
      completed < submission) : q.Guards submission buffer stop := by
  induction h with
  | nil p s => exact hguards
  | cons hstep _ ih =>
    have hnext := (performs_of_run hstep).guards hguards (hlater _ List.mem_cons_self)
      (hreclaim _ List.mem_cons_self)
    exact ih hnext (fun step hmem => hlater step (List.mem_cons_of_mem _ hmem))
      (fun step hmem => hreclaim step (List.mem_cons_of_mem _ hmem))

/-- The submissions that are requested for in some steps, in order. -/
def submissionsOf (steps : List PoolStep) : List Nat := steps.filterMap (·.use.submission?)

/-- Where the submissions never decrease, later steps request for later ones. -/
theorem le_of_pairwise_submissionsOf {before rest : List PoolStep} {first step : PoolStep} {later : Nat}
    (h : (submissionsOf (before ++ first :: rest)).Pairwise (· ≤ ·))
    (hfirst : first.use.submission? = some submission) (hmem : step ∈ rest)
    (hstep : step.use.submission? = some later) : submission ≤ later := by
  simp only [submissionsOf, List.filterMap_append, List.filterMap_cons, hfirst] at h
  have hpairwise := (List.pairwise_append.mp h).2.1
  exact List.rel_of_pairwise_cons hpairwise (List.mem_filterMap.mpr ⟨step, hmem, hstep⟩)

/-- Two allocations of a run that share a byte of a buffer have a reclaim between
them, for a submission that is at least as late as that of the first allocation.
This is so however the device answers, as long as no two live buffers share a
handle, and whatever is requested and reclaimed, as long as no request is for an
earlier submission than one before it. -/
theorem exists_reclaim_of_overlap {config : Config} {s s' : σ} (hnew : new config = .ok p)
    {before between after : List PoolStep} {first second : PoolStep}
    (hrun : Runs (Use.action d) p s (before ++ first :: between ++ second :: after) q s')
    (hsubmissions : (submissionsOf (before ++ first :: between ++ second :: after)).Pairwise (· ≤ ·))
    (hbuffers : DistinctBuffers [] (eventsOf (before ++ first :: between ++ second :: after)))
    {size alignment : Nat} (hfirst : first.use = .request submission size alignment)
    {a b : Allocation} (ha : first.answer = .done (some a)) (hb : second.answer = .done (some b))
    (hsame : a.buffer = b.buffer) {x : Nat} (hxa : a.offset ≤ x ∧ x < a.offset + a.size)
    (hxb : b.offset ≤ x ∧ x < b.offset + b.size) :
    ∃ step ∈ between, ∃ completed, step.use = .reclaim completed ∧ submission ≤ completed := by
  by_contra hnone
  have hreclaim : ∀ step ∈ between, ∀ completed, step.use = .reclaim completed →
      completed < submission := by
    intro step hmem completed huse
    by_contra hle
    exact hnone ⟨step, hmem, completed, huse, Nat.le_of_not_lt hle⟩
  -- the run as far as the second allocation, cut at the steps in question
  obtain ⟨p₃, s₃, hearlier, hfrom⟩ := hrun.split
  obtain ⟨p₁, s₁, hbefore, hmiddle⟩ := hearlier.split
  obtain ⟨p₂, s₂, hstep₁, hbetween⟩ := hmiddle.uncons
  obtain ⟨p₄, s₄, hstep₂, _⟩ := hfrom.uncons
  rw [hfirst, ha] at hstep₁
  rw [hb] at hstep₂
  have hallocates := performs_of_run hstep₁
  have hreallocates := performs_of_run hstep₂
  have hnodup : p₄.buffers.Nodup := by
    rw [eventsOf_append, eventsOf_cons, ← List.append_assoc] at hbuffers
    have hlive := (distinctBuffers_append.mp hbuffers).2.nodup
    exact nodup_buffers_of_new hnew ((gains_of_runs hearlier).trans hreallocates.gains) hlive
  -- the first allocation is guarded until the second is cut
  have hguards : p₂.Guards submission a.buffer (a.offset + a.size) :=
    hallocates.guards_allocation (valid_of_runs hbefore (valid_of_new hnew))
  have hlater : ∀ step ∈ between, ∀ other ∈ step.use.submission?, submission ≤ other := by
    intro step hmem other hother
    have hordered : (submissionsOf (before ++ first :: (between ++ second :: after))).Pairwise
        (· ≤ ·) := by simpa using hsubmissions
    have hlate := List.mem_append_left (second :: after) hmem
    exact le_of_pairwise_submissionsOf hordered (by rw [hfirst]; rfl) hlate hother
  have hguards' := guards_of_runs hbetween hguards hlater hreclaim
  rw [hsame] at hguards'
  have hbehind := hreallocates.stop_le_offset hnodup hguards'
  omega

/-- A pool that makes do with one small page. -/
def onePage : Config where
  pageSize := 16
  hostVisible := 2
  hostCoherent := 2
  flushUnit := 1
  maxPages := some 1

/-- A request that comes too early, and the reclaim that it should have waited for. -/
def impatience : List PoolStep :=
  [⟨.request 2 8 1, .failed .outOfPages, []⟩, ⟨.reclaim 1, .done none, []⟩]

/-- The page is requested whole, and then half of it is, until that succeeds. -/
def pressOnePage : List PoolStep × Pool × Simulated.State :=
  play (Use.action (Simulated.device .direct)) (ofConfig onePage) (Simulated.State.new {})
    [.request 1 16 1, .request 2 8 1, .reclaim 1, .request 2 8 1]

/-- A page that is full serves again when its submission is complete. -/
theorem exists_reclaim_impatience :
    ∃ first second : PoolStep, pressOnePage.1 = [] ++ first :: impatience ++ second :: [] ∧
      first.use = .request 1 16 1 ∧ first.answer = .done (some ⟨1, 2, 0, 16⟩) ∧
      second.answer = .done (some ⟨1, 2, 0, 8⟩) ∧
      ∃ step ∈ impatience, ∃ completed, step.use = .reclaim completed ∧ 1 ≤ completed := by
  let first : PoolStep := ⟨.request 1 16 1, .done (some ⟨1, 2, 0, 16⟩),
    [.call (.createBuffer (bufferInfo 16) (.ok 1)), .call (.requirements 1 ⟨65536, 65536, 7⟩),
      .call (.allocate 65536 1 (.ok 2))] ++ mappedEvents 1 2⟩
  let second : PoolStep := ⟨.request 2 8 1, .done (some ⟨1, 2, 0, 8⟩), []⟩
  have hnew : new onePage = .ok (ofConfig onePage) := rfl
  have hsteps : pressOnePage.1 = [] ++ first :: impatience ++ second :: [] := by decide
  have hrun : Runs (Use.action (Simulated.device .direct)) (ofConfig onePage)
      (Simulated.State.new {}) ([] ++ first :: impatience ++ second :: []) pressOnePage.2.1
      pressOnePage.2.2 := by
    rw [← hsteps]
    exact runs_play _ _ _ _
  have hsubmissions : (submissionsOf ([] ++ first :: impatience ++ second :: [])).Pairwise
      (· ≤ ·) := by decide
  have hbuffers : DistinctBuffers [] (eventsOf ([] ++ first :: impatience ++ second :: [])) := by
    decide
  refine ⟨first, second, hsteps, rfl, rfl, rfl, ?_⟩
  exact exists_reclaim_of_overlap hnew hrun hsubmissions hbuffers rfl rfl rfl rfl
    (x := 0) (by decide) (by decide)

end GuestReplica.Staging.Pool
