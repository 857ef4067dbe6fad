import GuestReplica.Proofs.Staging.Reuse

set_option autoImplicit false

/-!
# The order in which pages become writable again

A reclaim looks at the submitted pages from the first one on, and stops at the first that
a later submission may still read.  Nothing is overlooked behind that page, since the
submitted pages are in the order of their last submissions, with the current page behind
all of them.  Requests keep this order as long as they are for submissions that never
decrease: the page that a request is served from becomes the last one, or stays so.
-/

namespace GuestReplica.Staging.Pool

/-! ## Conditions that hold on a prefix -/

section

variable {α : Type} {P : α → Bool} {l : List α}

theorem filter_eq_nil_of_head {a : α}
    (h : (a :: l).Pairwise fun x y => P y = true → P x = true) (ha : P a = false) :
    l.filter P = [] := by
  rw [List.filter_eq_nil_iff]
  intro b hb hPb
  rw [List.rel_of_pairwise_cons h hb hPb] at ha
  cases ha

/-- Where a condition that holds of an element holds of all before it, the elements before
the first exception are all those of which it holds. -/
theorem takeWhile_eq_filter (h : l.Pairwise fun x y => P y = true → P x = true) :
    l.takeWhile P = l.filter P := by
  induction l with
  | nil => rfl
  | cons a l ih =>
    cases ha : P a with
    | true =>
      rw [List.takeWhile_cons_of_pos ha, List.filter_cons_of_pos ha, ih h.of_cons]
    | false =>
      have hna : ¬ P a = true := by simp [ha]
      rw [List.takeWhile_cons_of_neg hna, List.filter_cons_of_neg hna,
        filter_eq_nil_of_head h ha]

/-- The others are all those of which it does not hold. -/
theorem dropWhile_eq_filter (h : l.Pairwise fun x y => P y = true → P x = true) :
    l.dropWhile P = l.filter fun x => !P x := by
  induction l with
  | nil => rfl
  | cons a l ih =>
    cases ha : P a with
    | true =>
      rw [List.dropWhile_cons_of_pos ha, List.filter_cons_of_neg (by simp [ha]), ih h.of_cons]
    | false =>
      have hall : (a :: l).filter (fun x => !P x) = a :: l := by
        have hnone := filter_eq_nil_of_head h ha
        simpa [ha, List.filter_eq_self, List.filter_eq_nil_iff] using hnone
      rw [List.dropWhile_cons_of_neg (by simp [ha]), hall]

end

variable {σ : Type} {d : Device σ} {p q : Pool} {events : List Event}
variable {submission latest index : Nat}

/-! ## Last submissions -/

/-- The last submission that reads a page. -/
def lastSubmission (p : Pool) (index : Nat) : Nat :=
  (p.pages[index]?).elim 0 (·.lastSubmission)

/-- The pages that may still be read, in the order in which they become writable. -/
def queue (p : Pool) : List Nat := p.submitted ++ p.current.toList

/-- A page that is added has served no submission yet. -/
theorem lastSubmission_addPage {page : Page} (hpage : page.lastSubmission = 0) (p : Pool) :
    (p.addPage page).lastSubmission = p.lastSubmission := by
  funext index
  simp only [lastSubmission, addPage, List.getElem?_append]
  split
  · rfl
  · next hlt =>
    rw [List.getElem?_eq_none (Nat.le_of_not_lt hlt)]
    cases hadded : [page][index - p.pages.length]? with
    | none => rfl
    | some added =>
      obtain rfl : added = page := by simpa using List.mem_of_getElem? hadded
      exact hpage

theorem lastSubmission_handOut {used : Nat} {page : Page} (hpage : p.pages[index]? = some page) :
    (p.handOut index submission used).lastSubmission index = submission := by
  simp [lastSubmission, handOut, hpage]

theorem lastSubmission_handOut_of_ne {used other : Nat} (h : other ≠ index) :
    (p.handOut index submission used).lastSubmission other = p.lastSubmission other := by
  simp [lastSubmission, handOut, h.symm]

@[simp] theorem queue_retire (p : Pool) : p.retire.queue = p.queue := by
  simp [queue, retire]

/-- A page that may still be read is a page of the pool. -/
theorem Valid.exists_page_of_queue (hp : p.Valid) (h : index ∈ p.queue) :
    ∃ page, p.pages[index]? = some page := by
  have hmem : index ∈ p.places := by
    rcases List.mem_append.mp h with h | h
    · simp [places, h]
    · exact List.mem_append_right _ h
  exact ⟨_, List.getElem?_eq_getElem (hp.lt_length hmem)⟩

/-- The current page is not among the submitted ones. -/
theorem Valid.not_mem_submitted (hp : p.Valid) (hcurrent : p.current = some index) :
    index ∉ p.submitted := by
  have hnodup := hp.nodup_places
  simp only [places, hcurrent, Option.toList_some] at hnodup
  intro hmem
  have hdisjoint := (List.nodup_append.mp hnodup).2.2
  exact hdisjoint index (List.mem_append_left _ hmem) index (by simp) rfl

/-- The page that a valid pool turns to is a page of the pool. -/
theorem Turns.page_ne_none (h : Turns d p (.done index) q events) (hp : p.Valid) :
    q.pages[index]? ≠ none := by
  obtain ⟨page, hpage⟩ := (h.valid hp).exists_page h.turned.1
  simp [hpage]

/-- A submitted page is done when its last submission is complete. -/
theorem Valid.isDone_eq (hp : p.Valid) (hmem : index ∈ p.queue) (completed : Nat) :
    p.isDone completed index = decide (p.lastSubmission index ≤ completed) := by
  obtain ⟨page, hpage⟩ := hp.exists_page_of_queue hmem
  simp [isDone, lastSubmission, hpage]

/-! ## The order is kept -/

/-- Pages become writable in the order of their last submissions, none of which is after
the latest one. -/
structure Ordered (p : Pool) (latest : Nat) : Prop where
  pairwise : p.queue.Pairwise fun i j => p.lastSubmission i ≤ p.lastSubmission j
  le_latest : ∀ i ∈ p.queue, p.lastSubmission i ≤ latest

theorem ordered_ofConfig (config : Config) (latest : Nat) : (ofConfig config).Ordered latest :=
  ⟨List.Pairwise.nil, fun _ hmem => nomatch hmem⟩

theorem Ordered.of_eq (h : p.Ordered latest) (hqueue : q.queue = p.queue)
    (hlast : q.lastSubmission = p.lastSubmission) : q.Ordered latest := by
  refine ⟨?_, ?_⟩
  · rw [hqueue, hlast]
    exact h.pairwise
  · rw [hqueue, hlast]
    exact h.le_latest

theorem Ordered.mono {later : Nat} (h : p.Ordered latest) (hle : latest ≤ later) :
    p.Ordered later :=
  ⟨h.pairwise, fun i hmem => Nat.le_trans (h.le_latest i hmem) hle⟩

theorem Ordered.reclaim (h : p.Ordered latest) (completed : Nat) :
    (p.reclaim completed).Ordered latest := by
  have hsublist : (p.reclaim completed).queue.Sublist p.queue :=
    (List.dropWhile_sublist _).append_right _
  exact ⟨h.pairwise.sublist hsublist, fun i hmem => h.le_latest i (hsublist.subset hmem)⟩

/-- Bytes are handed out of the current page, to a submission that is as late as all that
the submitted pages have served. -/
theorem ordered_handOut {used : Nat} (hp : p.Valid) (hcurrent : p.current = some index)
    (hpairwise : p.submitted.Pairwise fun i j => p.lastSubmission i ≤ p.lastSubmission j)
    (hle : ∀ i ∈ p.submitted, p.lastSubmission i ≤ submission) :
    (p.handOut index submission used).Ordered submission := by
  obtain ⟨page, hpage⟩ := hp.exists_page hcurrent
  have hsame : ∀ i ∈ p.submitted,
      (p.handOut index submission used).lastSubmission i = p.lastSubmission i := by
    intro i hmem
    apply lastSubmission_handOut_of_ne
    rintro rfl
    exact hp.not_mem_submitted hcurrent hmem
  have hqueue : (p.handOut index submission used).queue = p.submitted ++ [index] := by
    simp [queue, handOut, hcurrent]
  have hlast : (p.handOut index submission used).lastSubmission index = submission :=
    lastSubmission_handOut hpage
  refine ⟨?_, ?_⟩
  · rw [hqueue, List.pairwise_append]
    refine ⟨hpairwise.imp_of_mem fun hi hj h => ?_, List.pairwise_singleton _ _, ?_⟩
    · rw [hsame _ hi, hsame _ hj]
      exact h
    · intro i hmem j hj
      rw [List.mem_singleton.mp hj, hlast, hsame i hmem]
      exact hle i hmem
  · intro i hmem
    rw [hqueue] at hmem
    rcases List.mem_append.mp hmem with hmem | hmem
    · rw [hsame i hmem]
      exact hle i hmem
    · obtain rfl := List.mem_singleton.mp hmem
      exact Nat.le_of_eq hlast

theorem Flushes.ordered {ending : Ending StagingError Unit} (h : Flushes p ending q events)
    (hp : p.Ordered latest) : q.Ordered latest := by
  cases h <;> exact hp.of_eq rfl rfl

/-- A turn that does not succeed has at most retired the current page, which stays behind
the others. -/
theorem Turns.ordered {ending : Ending StagingError Nat} (h : Turns d p ending q events)
    (hp : p.Ordered latest) (hending : ∀ index, ending ≠ .done index) : q.Ordered latest := by
  cases h with
  | unflushed hflush => exact hflush.ordered hp
  | broken hflush => exact hflush.ordered hp
  | reused _ _ => exact absurd rfl (hending _)
  | uncreated hflush _ hcreate =>
    have hq := hflush.ordered hp
    cases hcreate <;> exact hq.of_eq (queue_retire _) rfl
  | created _ _ _ => exact absurd rfl (hending _)

/-- A turn that succeeds submits the current page behind the others, and no page has served
another submission yet. -/
theorem Turns.submitted_eq (h : Turns d p (.done index) q events) :
    q.submitted = p.queue ∧ q.lastSubmission = p.lastSubmission := by
  cases h with
  | reused hflush _ => cases hflush <;> exact ⟨rfl, rfl⟩
  | created hflush _ hcreate =>
    cases hcreate with
    | created _ _ _ => cases hflush <;> exact ⟨rfl, lastSubmission_addPage rfl _⟩

theorem Requests.ordered {size alignment : Nat} {ending : Ending StagingError Allocation}
    (h : Requests d p submission size alignment ending q events) (hp : p.Valid)
    (hordered : p.Ordered latest) (hle : latest ≤ submission) : q.Ordered submission := by
  have hsame := hordered.mono hle
  cases h with
  | empty _ => exact hsame
  | misaligned _ => exact hsame
  | overflow _ => exact hsame
  | missing _ _ => exact hsame
  | served _ _ _ hcurrent _ _ =>
    have hsubmitted : p.submitted.Sublist p.queue := List.sublist_append_left _ _
    exact ordered_handOut hp hcurrent (hsame.pairwise.sublist hsubmitted)
      fun i hmem => hsame.le_latest i (hsubmitted.subset hmem)
  | unturned _ _ _ hturn => exact hturn.ordered hsame (by simp)
  | broken hturn => exact hturn.ordered hsame (by simp)
  | lost hturn hnone => exact absurd hnone (hturn.page_ne_none hp)
  | turned _ _ _ hturn _ =>
    obtain ⟨hsubmitted, hlast⟩ := hturn.submitted_eq
    apply ordered_handOut (hturn.valid hp) hturn.turned.1
    · rw [hsubmitted, hlast]
      exact hsame.pairwise
    · rw [hsubmitted, hlast]
      exact hsame.le_latest

/-! ## Runs -/

/-- A request is for a submission as late as all before it, or it is no request. -/
theorem Performs.ordered {use : Use} {answer : Ending StagingError (Option Allocation)}
    (h : Performs d p use answer q events) (hp : p.Valid) (hordered : p.Ordered latest)
    (hlater : ∀ other ∈ use.submission?, latest ≤ other) :
    q.Ordered (use.submission?.getD latest) := by
  cases h with
  | allocated hrequest => exact hrequest.ordered hp hordered (hlater _ rfl)
  | unserved hrequest => exact hrequest.ordered hp hordered (hlater _ rfl)
  | stopped hrequest => exact hrequest.ordered hp hordered (hlater _ rfl)
  | reclaimed completed => exact hordered.reclaim completed
  | flushed hflush => exact hflush.ordered hordered
  | unflushed hflush => exact hflush.ordered hordered
  | overflow hflush => exact hflush.ordered hordered

theorem ordered_of_runs {s s' : σ} {steps : List PoolStep} (h : Runs (Use.action d) p s steps q s')
    (hp : p.Valid) (hordered : p.Ordered latest)
    (hsubmissions : (latest :: submissionsOf steps).Pairwise (· ≤ ·)) :
    ∃ later, q.Ordered later := by
  induction h generalizing latest with
  | nil p s => exact ⟨latest, hordered⟩
  | @cons _ _ _ _ _ _ use answer events steps hstep _ ih =>
    have hperforms := performs_of_run hstep
    have hvalid := hperforms.valid hp
    cases huse : use.submission? with
    | none =>
      have hnext := hperforms.ordered hp hordered (by simp [huse])
      rw [huse] at hnext
      exact ih hvalid hnext (by simpa [submissionsOf, huse] using hsubmissions)
    | some submission =>
      have hcons : submissionsOf (⟨use, answer, events⟩ :: steps) =
          submission :: submissionsOf steps := by
        simp [submissionsOf, huse]
      rw [hcons] at hsubmissions
      have hle : latest ≤ submission := List.rel_of_pairwise_cons hsubmissions List.mem_cons_self
      have hnext := hperforms.ordered hp hordered (by simpa [huse] using hle)
      rw [huse] at hnext
      exact ih hvalid hnext hsubmissions.of_cons

/-- Where pages become writable in the order of their last submissions, a reclaim finds all
that are done. -/
theorem Ordered.reclaim_eq (h : p.Ordered latest) (hp : p.Valid) (completed : Nat) :
    p.reclaim completed =
      { p with
        submitted := p.submitted.filter fun i => completed < p.lastSubmission i
        writable := p.writable ++
          p.submitted.filter fun i => p.lastSubmission i ≤ completed } := by
  have hqueue : ∀ i ∈ p.submitted, i ∈ p.queue := fun i hmem => List.mem_append_left _ hmem
  have hprefix : p.submitted.Pairwise fun i j =>
      p.isDone completed j = true → p.isDone completed i = true := by
    refine (h.pairwise.sublist (List.sublist_append_left _ _)).imp_of_mem fun hi hj hle hdone => ?_
    rw [hp.isDone_eq (hqueue _ hi), decide_eq_true_eq]
    rw [hp.isDone_eq (hqueue _ hj), decide_eq_true_eq] at hdone
    exact Nat.le_trans hle hdone
  have hdone : p.submitted.filter (p.isDone completed) =
      p.submitted.filter fun i => p.lastSubmission i ≤ completed :=
    List.filter_congr fun i hmem => hp.isDone_eq (hqueue i hmem) completed
  have hlate : (p.submitted.filter fun i => !p.isDone completed i) =
      p.submitted.filter fun i => completed < p.lastSubmission i := by
    refine List.filter_congr fun i hmem => ?_
    rw [hp.isDone_eq (hqueue i hmem), ← decide_not]
    simp
  rw [Pool.reclaim, takeWhile_eq_filter hprefix, dropWhile_eq_filter hprefix, hdone, hlate]

/-- The submitted pages are pages of the pool, in the order of their last submissions, and
so is the current page behind them. -/
structure InOrder (p : Pool) : Prop where
  exists_page : ∀ index ∈ p.queue, ∃ page, p.pages[index]? = some page
  pairwise : p.submitted.Pairwise fun i j => p.lastSubmission i ≤ p.lastSubmission j
  le_current : ∀ i ∈ p.submitted, ∀ {index}, p.current = some index →
    p.lastSubmission i ≤ p.lastSubmission index

theorem Ordered.inOrder (h : p.Ordered latest) (hp : p.Valid) : p.InOrder := by
  obtain ⟨hsubmitted, _, hcurrent⟩ := List.pairwise_append.mp h.pairwise
  refine ⟨fun index => hp.exists_page_of_queue, hsubmitted, fun i hmem index hindex => ?_⟩
  exact hcurrent i hmem index (by simp [hindex])

/-- In every run of a new pool whose requests are for submissions that never decrease, and
however the device answers, the submitted pages come to be in the order of their last
submissions.  A reclaim thus makes exactly those writable whose last submission is
complete, in order, keeps the others in order, and changes nothing else. -/
theorem reclaims_all_done {config : Config} {s s' : σ} {steps : List PoolStep}
    (hnew : new config = .ok p) (hrun : Runs (Use.action d) p s steps q s')
    (hsubmissions : (submissionsOf steps).Pairwise (· ≤ ·)) :
    q.InOrder ∧ ∀ completed, q.reclaim completed =
      { q with
        submitted := q.submitted.filter fun i => completed < q.lastSubmission i
        writable := q.writable ++
          q.submitted.filter fun i => q.lastSubmission i ≤ completed } := by
  have hp := valid_of_new hnew
  have hvalid := valid_of_runs hrun hp
  obtain ⟨_, _, rfl⟩ := new_eq_ok_iff.mp hnew
  have hsorted : (0 :: submissionsOf steps).Pairwise (· ≤ ·) :=
    List.pairwise_cons.mpr ⟨fun _ _ => Nat.zero_le _, hsubmissions⟩
  obtain ⟨later, hordered⟩ := ordered_of_runs hrun hp (ordered_ofConfig config 0) hsorted
  exact ⟨hordered.inOrder hvalid, hordered.reclaim_eq hvalid⟩

/-- Pages of the size of a request, as many as are needed. -/
def wholePages : Config where
  pageSize := 16
  hostVisible := 2
  hostCoherent := 2
  flushUnit := 1

/-- Three pages are used up, the second one by two submissions. -/
def fillThree : List PoolStep × Pool × Simulated.State :=
  play (Use.action (Simulated.device .direct)) (ofConfig wholePages) (Simulated.State.new {})
    [.request 1 16 1, .request 1 8 1, .request 2 8 1, .request 3 16 1, .flush, .request 3 1 1]

/-- The second page is not writable after the first submission, though that one has read it. -/
theorem reclaims_all_done_shared_page :
    fillThree.2.1.submitted = [0, 1, 2] ∧
      fillThree.2.1.reclaim 1 = { fillThree.2.1 with submitted := [1, 2], writable := [0] } ∧
      fillThree.2.1.reclaim 2 = { fillThree.2.1 with submitted := [2], writable := [0, 1] } := by
  have hnew : new wholePages = .ok (ofConfig wholePages) := rfl
  have hrun : Runs (Use.action (Simulated.device .direct)) (ofConfig wholePages)
      (Simulated.State.new {}) fillThree.1 fillThree.2.1 fillThree.2.2 := runs_play _ _ _ _
  have hsubmissions : (submissionsOf fillThree.1).Pairwise (· ≤ ·) := by decide
  obtain ⟨_, hreclaim⟩ := reclaims_all_done hnew hrun hsubmissions
  refine ⟨by decide, (hreclaim 1).trans ?_, (hreclaim 2).trans ?_⟩
  · decide
  · decide

end GuestReplica.Staging.Pool
