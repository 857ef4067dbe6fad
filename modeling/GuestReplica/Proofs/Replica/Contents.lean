import GuestReplica.Proofs.Replica.Tiling
import GuestReplica.Proofs.Upload.Deliveries

set_option autoImplicit false

/-!
# What the buffer of a replica holds

Copies are executed some time after they were recorded, but before their submission
is complete.  When all of them are executed, each byte of the buffer is the one that
the guest had when the byte was claimed last, and bytes that were never claimed are
what they were at first.
-/

namespace GuestReplica.Replica

open Staging (Pool)

variable {σ : Type} {d : Device σ} {r r' : Replica} {s s' : σ} {events : List Event}
variable {p q : Pool}

/-! ## Buffers -/

theorem gains_barriers (p : Pool) (r : Replica) (mode : Access.Mode) :
    p.Gains p (r.barriers mode) := by
  apply Pool.gains_of_leaveBuffers rfl
  intro live
  unfold barriers
  cases r.access.transition? mode <;> rfl

theorem gains_notice (p : Pool) (notice : Notice) : p.Gains p [.notice notice] :=
  Pool.gains_of_leaveBuffers rfl fun _ => rfl

/-- An upload only gains pages. -/
theorem Uploads.gains {guest : GuestMemory} {trace : ReadTrace} {submission : Nat}
    {ranges : List PageRange} {ending : Ending UploadError Unit}
    (h : Uploads d guest trace submission r ranges ending r' events) (hpool : r.pool = some p) :
    ∃ q, r'.pool = some q ∧ p.Gains q events := by
  have hbarriers := gains_barriers p r .transferDestination
  cases h with
  | idle _ => exact ⟨p, hpool, .refl p⟩
  | refused _ _ => exact ⟨p, hpool, .refl p⟩
  | shutDown _ _ => exact ⟨p, hpool, hbarriers⟩
  | broken _ hpool' hstages =>
    obtain rfl := Option.some.inj (hpool.symm.trans hpool')
    exact ⟨_, rfl, hbarriers.trans hstages.gains⟩
  | finished _ hpool' hstages =>
    obtain rfl := Option.some.inj (hpool.symm.trans hpool')
    exact ⟨_, rfl, hbarriers.trans hstages.gains⟩
  | failed _ hpool' hstages =>
    obtain rfl := Option.some.inj (hpool.symm.trans hpool')
    exact ⟨_, rfl, (hbarriers.trans hstages.gains).trans (gains_notice _ _)⟩

theorem Ends.gains {ending : Ending StagingError Unit} (h : Ends r ending r' events)
    (hpool : r.pool = some p) : ∃ q, r'.pool = some q ∧ p.Gains q events := by
  cases h with
  | shutDown _ => exact ⟨p, hpool, .refl p⟩
  | flushed hpool' hflush =>
    obtain rfl := Option.some.inj (hpool.symm.trans hpool')
    exact ⟨_, rfl, hflush.gains⟩
  | failed hpool' hflush =>
    obtain rfl := Option.some.inj (hpool.symm.trans hpool')
    exact ⟨_, rfl, hflush.gains.trans (gains_notice _ _)⟩
  | broken hpool' hflush =>
    obtain rfl := Option.some.inj (hpool.symm.trans hpool')
    exact ⟨_, rfl, hflush.gains⟩

/-- Until it is shut down, a replica has a pool, which only gains pages. -/
theorem Performs.gains {use : Use} {answer : Ending StagingError Unit}
    (h : Performs d r use answer r' events) (huse : use ≠ .shutdown) (hpool : r.pool = some p) :
    ∃ q, r'.pool = some q ∧ p.Gains q events := by
  cases h with
  | uploaded hupload => exact hupload.gains hpool
  | unstaged hupload => exact hupload.gains hpool
  | stopped hupload => exact hupload.gains hpool
  | declared _ => exact ⟨p, hpool, gains_barriers p r _⟩
  | refused _ => exact ⟨p, hpool, .refl p⟩
  | completed completed =>
    refine ⟨p.reclaim completed, ?_, Pool.gains_of_leaveBuffers rfl leaveBuffers_nil⟩
    rw [hpool]
    rfl
  | ended hends => exact hends.gains hpool
  | shutDown => exact absurd rfl huse

/-! ## Steps -/

/-- The submission that a step records copies for, if it is an upload. -/
def Use.submission? : Use → Option Nat
  | .upload _ _ submission _ => some submission
  | _ => none

/-- The submissions of the uploads among some steps, in order. -/
def submissionsOf (steps : List ReplicaStep) : List Nat :=
  steps.filterMap (·.use.submission?)

/-- What a step has to do with the execution of copies. -/
def moments (step : ReplicaStep) : List Moment :=
  match step.use with
  | .complete completed => .completed completed :: momentsOf completed step.events
  | use => momentsOf (use.submission?.getD 0) step.events

/-- The bytes after a step: an upload refreshes those that it claims. -/
def refresh (x : Nat → UInt8) (step : ReplicaStep) : Nat → UInt8 :=
  match step.use with
  | .upload guest _ _ _ => guest.refresh (marksOf step.events) x
  | _ => x

/-- All ranges of an upload end in the buffer. -/
def Use.Fits (pageBits : Nat) : Use → Prop
  | .upload _ _ _ ranges => ∀ last ∈ ranges.getLast?, last.stop <<< pageBits ≤ size
  | _ => True

theorem marksOf_barriers (r : Replica) (mode : Access.Mode) : marksOf (r.barriers mode) = [] :=
  filterMap_barriers (fun _ => rfl) r mode

theorem momentsOf_barriers (r : Replica) (mode : Access.Mode) (submission : Nat) :
    momentsOf submission (r.barriers mode) = [] :=
  filterMap_barriers (fun _ => rfl) r mode

variable {latest : Nat} {x : Nat → UInt8} {c c' : Contents} {waiting waiting' : List Copy}

/-- After an upload that returns, the buffer is due to hold what the upload refreshed. -/
theorem Uploads.due {guest : GuestMemory} {trace : ReadTrace} {submission : Nat}
    {ranges : List PageRange} {ending : Ending UploadError Unit}
    (h : Uploads d guest trace submission r ranges ending r' events) (hreturns : ending.Returns)
    (hp : p.Valid) (hpool : r.pool = some p) (hpool' : r'.pool = some q)
    (hnodup : (r.buffer :: q.buffers).Nodup)
    (hsize : ∀ last ∈ ranges.getLast?, last.stop <<< r.pageBits ≤ size)
    (hdue : Due r.buffer submission p [] x c waiting)
    (hexecutes : Executes (momentsOf submission events) c waiting c' waiting') :
    Due r.buffer submission q [] (guest.refresh (marksOf events) x) c' waiting' := by
  rcases h.stages hreturns with ⟨_, rfl, rfl⟩ |
    ⟨first, last, p₁, q₁, failure, staged, haccepts, hpool₁, hstages, rfl, rfl, _⟩
  · obtain rfl := Option.some.inj (hpool.symm.trans hpool')
    rw [show marksOf [] = [] from rfl, GuestMemory.refresh_nil]
    exact hdue.idle hexecutes
  · obtain rfl := Option.some.inj (hpool.symm.trans hpool₁)
    obtain rfl := Option.some.inj hpool'
    have hsizes : ∀ range ∈ ranges, range.count <<< r.pageBits < addressLimit := by
      intro range hmem
      have hin := stop_le_size haccepts.sorted haccepts.last_eq (hsize last haccepts.last_eq) hmem
      have hcount := shiftLeft_le_shiftLeft r.pageBits range.count_le_stop
      exact Nat.lt_of_le_of_lt (Nat.le_trans hcount hin) size_lt_addressLimit
    have hmarks : marksOf (complaint failure) = [] :=
      (staged_complaint (r.job guest trace submission) failure).1.marks
    have hmoments : momentsOf submission (complaint failure) = [] := by
      cases failure <;> rfl
    rw [marksOf_append, marksOf_append, marksOf_barriers, hmarks, List.nil_append, List.append_nil]
    rw [momentsOf_append, momentsOf_append, momentsOf_barriers, hmoments, List.nil_append,
      List.append_nil] at hexecutes
    exact hstages.due hp hnodup hsizes hdue hexecutes

theorem Ends.due {ending : Ending StagingError Unit} (h : Ends r ending r' events)
    (hreturns : ending.Returns) (hpool : r.pool = some p) (hpool' : r'.pool = some q)
    (hdue : Due r.buffer latest p [] x c waiting)
    (hexecutes : Executes (momentsOf 0 events) c waiting c' waiting') :
    Due r.buffer latest q [] x c' waiting' := by
  cases h with
  | shutDown hclosed =>
    rw [hpool] at hclosed
    cases hclosed
  | flushed hpool₁ hflush =>
    obtain rfl := Option.some.inj (hpool.symm.trans hpool₁)
    obtain rfl := Option.some.inj hpool'
    rw [Upload.momentsOf_of_calls _ hflush.calls] at hexecutes
    exact (hdue.idle hexecutes).mono (Nat.le_refl _) fun _ hguards => hflush.guards hguards
  | failed hpool₁ hflush =>
    obtain rfl := Option.some.inj (hpool.symm.trans hpool₁)
    obtain rfl := Option.some.inj hpool'
    rw [momentsOf_append, Upload.momentsOf_of_calls _ hflush.calls] at hexecutes
    exact (hdue.idle hexecutes).mono (Nat.le_refl _) fun _ hguards => hflush.guards hguards
  | broken _ _ => exact absurd rfl (hreturns _)

/-- Every step keeps what the buffer is due to hold, except that an upload refreshes it. -/
theorem Performs.due {use : Use} {answer : Ending StagingError Unit}
    (h : Performs d r use answer r' events) (huse : use ≠ .shutdown) (hreturns : answer.Returns)
    (hp : p.Valid) (hpool : r.pool = some p) (hpool' : r'.pool = some q)
    (hnodup : (r.buffer :: q.buffers).Nodup) (hfits : use.Fits r.pageBits)
    (hlatest : ∀ submission ∈ use.submission?, latest ≤ submission)
    (hdue : Due r.buffer latest p [] x c waiting)
    (hexecutes : Executes (moments ⟨use, answer, events⟩) c waiting c' waiting') :
    Due r.buffer (use.submission?.getD latest) q [] (refresh x ⟨use, answer, events⟩) c'
      waiting' := by
  cases h with
  | uploaded hupload =>
    have hlater := hdue.mono (hlatest _ rfl) fun _ hguards => hguards
    exact hupload.due (Ending.returns_done _) hp hpool hpool' hnodup hfits hlater hexecutes
  | unstaged hupload =>
    have hlater := hdue.mono (hlatest _ rfl) fun _ hguards => hguards
    exact hupload.due (Ending.returns_failed _) hp hpool hpool' hnodup hfits hlater hexecutes
  | stopped _ => exact absurd rfl (hreturns _)
  | @declared mode written _ =>
    obtain rfl := Option.some.inj (hpool.symm.trans hpool')
    have hnothing : moments ⟨.declare mode written, .done (), r.barriers mode⟩ = [] :=
      momentsOf_barriers r mode 0
    rw [hnothing] at hexecutes
    exact hdue.idle hexecutes
  | refused _ => exact absurd rfl (hreturns _)
  | completed completed =>
    rw [hpool] at hpool'
    obtain rfl := Option.some.inj hpool'
    refine hexecutes.singleton Due.execute Due.execute (fun hhappens hnow => ?_) hdue
    cases hhappens with
    | completed hlater => exact hnow.reclaim hlater
  | ended hends => exact hends.due hreturns hpool hpool' hdue hexecutes
  | shutDown => exact absurd rfl huse

/-! ## Runs -/

/-- Steps of a client that does its part: the replica is not shut down, uploads end in
the buffer and are for ever later submissions, and nothing stops a step. -/
structure Orderly (pageBits : Nat) (steps : List ReplicaStep) : Prop where
  stays_open : ∀ step ∈ steps, step.use ≠ .shutdown
  returns : ∀ step ∈ steps, step.answer.Returns
  fits : ∀ step ∈ steps, step.use.Fits pageBits
  submissions : (submissionsOf steps).Pairwise (· ≤ ·)

theorem Orderly.tail {pageBits : Nat} {step : ReplicaStep} {rest : List ReplicaStep}
    (h : Orderly pageBits (step :: rest)) : Orderly pageBits rest := by
  refine ⟨?_, ?_, ?_, ?_⟩
  · intro other hmem
    exact h.stays_open other (List.mem_cons_of_mem _ hmem)
  · intro other hmem
    exact h.returns other (List.mem_cons_of_mem _ hmem)
  · intro other hmem
    exact h.fits other (List.mem_cons_of_mem _ hmem)
  · exact h.submissions.sublist ((List.sublist_cons_self step rest).filterMap _)

/-- Uploads later in a run are for submissions that are no earlier than those of the
first step. -/
theorem Orderly.le_of_mem {pageBits : Nat} {step : ReplicaStep} {rest : List ReplicaStep}
    (h : Orderly pageBits (step :: rest)) (hlatest : ∀ n ∈ submissionsOf (step :: rest), latest ≤ n)
    {later : Nat} (hlater : later ∈ submissionsOf rest) :
    step.use.submission?.getD latest ≤ later := by
  have hsubmissions := h.submissions
  unfold submissionsOf at hlatest hsubmissions hlater
  cases huse : step.use.submission? with
  | none =>
    rw [List.filterMap_cons, huse] at hlatest
    exact hlatest later hlater
  | some submission =>
    rw [List.filterMap_cons, huse] at hsubmissions
    exact List.rel_of_pairwise_cons hsubmissions hlater

theorem due_of_runs {steps : List ReplicaStep} {live : List Handle}
    (h : Runs (Use.action d) r s steps r' s') (hr : r.Valid) (hpool : r.pool = some p)
    (hlive : (r.buffer :: p.buffers).Subperm live) (hbuffers : DistinctBuffers live (eventsOf steps))
    (horderly : Orderly r.pageBits steps) (hlatest : ∀ n ∈ submissionsOf steps, latest ≤ n)
    (hdue : Due r.buffer latest p [] x c waiting)
    (hexecutes : Executes (steps.flatMap moments) c waiting c' waiting') :
    ∃ q last, Due r.buffer last q [] (steps.foldl refresh x) c' waiting' := by
  induction h generalizing p latest live x c waiting with
  | nil r s => exact ⟨p, latest, hdue.idle hexecutes⟩
  | @cons r r₁ r₂ s s₁ s₂ use answer events rest hstep _ ih =>
    have hperforms := performs_of_run hstep
    have huse := horderly.stays_open _ List.mem_cons_self
    have hframe := hperforms.frame huse
    obtain ⟨q, hpool', hgains⟩ := hperforms.gains huse hpool
    -- the buffers of the pages are live, hence distinct, as long as the replica is open
    have hheld : ([r.buffer] ++ p.buffers).Subperm live := hlive
    have hlive' : (r.buffer :: q.buffers).Subperm (liveBuffers live events) :=
      hgains.subperm hheld
    obtain ⟨_, hrest⟩ := distinctBuffers_append.mp hbuffers
    have hnodup : (r.buffer :: q.buffers).Nodup := by
      obtain ⟨l, hperm, hsub⟩ := hlive'
      exact hperm.nodup_iff.mp (hrest.nodup.sublist hsub)
    have hnow : ∀ submission ∈ use.submission?, latest ≤ submission := by
      intro submission hsubmission
      apply hlatest
      rw [submissionsOf, List.filterMap_cons, show use.submission? = some submission from hsubmission]
      exact List.mem_cons_self
    rw [List.flatMap_cons] at hexecutes
    obtain ⟨c₁, waiting₁, hfirst, hgoes⟩ := hexecutes.split
    have hnext := hperforms.due huse (horderly.returns _ List.mem_cons_self)
      (hr.pool_valid p hpool) hpool hpool' hnodup (horderly.fits _ List.mem_cons_self) hnow hdue
      hfirst
    have hlater : ∀ n ∈ submissionsOf rest, use.submission?.getD latest ≤ n := by
      intro n hmem
      exact horderly.le_of_mem hlatest hmem
    rw [← hframe.buffer_eq] at hlive' hnext ⊢
    have hfits := horderly.tail
    rw [← hframe.pageBits_eq] at hfits
    exact ih (hperforms.valid hr) hpool' hlive' hrest hfits hlater hnext hgoes

/-! ## Bytes -/

/-- Only uploads claim bytes. -/
theorem Performs.exists_upload {use : Use} {answer : Ending StagingError Unit} {i : Nat}
    (h : Performs d r use answer r' events) (huse : use ≠ .shutdown)
    (hclaimed : Claimed (marksOf events) i) :
    ∃ guest trace submission ranges, use = .upload guest trace submission ranges := by
  have hnothing : ∀ {events}, marksOf events = [] → ¬ Claimed (marksOf events) i := by
    intro events hmarks
    simp [hmarks, Claimed]
  cases h with
  | uploaded _ => exact ⟨_, _, _, _, rfl⟩
  | unstaged _ => exact ⟨_, _, _, _, rfl⟩
  | stopped _ => exact ⟨_, _, _, _, rfl⟩
  | @declared mode _ _ =>
    exact absurd hclaimed (hnothing (marksOf_barriers r mode))
  | refused _ => exact absurd hclaimed (hnothing rfl)
  | completed _ => exact absurd hclaimed (hnothing rfl)
  | ended hends =>
    have hcalls : ∀ {ending : Ending StagingError Unit} {p q events},
        Pool.Flushes p ending q events → marksOf events = [] := fun hflush =>
      filterMap_of_calls (fun _ => rfl) hflush.calls
    cases hends with
    | shutDown _ => exact absurd hclaimed (hnothing rfl)
    | flushed _ hflush => exact absurd hclaimed (hnothing (hcalls hflush))
    | failed _ hflush =>
      rw [marksOf_append, show marksOf [.notice _] = [] from rfl, List.append_nil] at hclaimed
      exact absurd hclaimed (hnothing (hcalls hflush))
    | broken _ hflush => exact absurd hclaimed (hnothing (hcalls hflush))
  | shutDown => exact absurd rfl huse

theorem refresh_of_not_claimed {step : ReplicaStep} {i : Nat}
    (h : ¬ Claimed (marksOf step.events) i) (x : Nat → UInt8) : refresh x step i = x i := by
  obtain ⟨use, answer, events⟩ := step
  cases use with
  | upload _ _ _ _ => exact if_neg h
  | _ => rfl

/-- Bytes that no step claims stay. -/
theorem foldl_refresh_of_not_claimed {steps : List ReplicaStep} {i : Nat}
    (h : ∀ step ∈ steps, ¬ Claimed (marksOf step.events) i) (x : Nat → UInt8) :
    steps.foldl refresh x i = x i := by
  induction steps generalizing x with
  | nil => rfl
  | cons step rest ih =>
    rw [List.foldl_cons, ih fun later hmem => h later (List.mem_cons_of_mem _ hmem)]
    exact refresh_of_not_claimed (h step List.mem_cons_self) x

/-- A byte that a step claims, and none after it, is the guest's. -/
theorem foldl_refresh_of_claimed {before after : List ReplicaStep} {step : ReplicaStep}
    {guest : GuestMemory} {trace : ReadTrace} {submission : Nat} {ranges : List PageRange} {i : Nat}
    (huse : step.use = .upload guest trace submission ranges)
    (hclaimed : Claimed (marksOf step.events) i)
    (hlast : ∀ later ∈ after, ¬ Claimed (marksOf later.events) i) (x : Nat → UInt8) :
    (before ++ step :: after).foldl refresh x i = guest.byte i := by
  rw [List.foldl_append, List.foldl_cons, foldl_refresh_of_not_claimed hlast]
  simp only [refresh, huse]
  exact if_pos hclaimed

/-- Let a client use a replica from its creation on, without shutting it down, and let
uploads end in the buffer and be for ever later submissions.  If nothing stops a step
and all recorded copies are executed, in order, each after it was recorded and before
its submission is complete, then each byte of the buffer that was ever claimed is the
one that the guest had at the last upload which claimed it, whether or not that upload
failed, and all other bytes are what they were at first.  This is so whatever calls of
the device fail, as long as no two live buffers share a handle. -/
theorem holds_last_claimed {config : Config} {s₀ : σ} {created : List Event}
    {steps : List ReplicaStep} (hcreate : (create d config).run () s = ⟨.done r, (), s₀, created⟩)
    (hrun : Runs (Use.action d) r s₀ steps r' s')
    (hbuffers : DistinctBuffers [] (created ++ eventsOf steps))
    (horderly : Orderly r.pageBits steps)
    (hexecutes : Executes (steps.flatMap moments) c [] c' []) (i : Nat) :
    (∀ before step after, steps = before ++ step :: after → Claimed (marksOf step.events) i →
      (∀ later ∈ after, ¬ Claimed (marksOf later.events) i) →
      ∃ guest trace submission ranges, step.use = .upload guest trace submission ranges ∧
        c' r.buffer i = guest.byte i) ∧
    ((∀ step ∈ steps, ¬ Claimed (marksOf step.events) i) → c' r.buffer i = c r.buffer i) := by
  have hvalid := valid_of_create hcreate
  obtain ⟨store, staging, _, _, _, rfl, hlive⟩ := create_done hcreate
  have hheld : [store.buffer].Subperm (liveBuffers [] created) :=
    List.singleton_subperm_iff.mpr (hlive [])
  obtain ⟨q, last, hdue⟩ := due_of_runs hrun hvalid rfl hheld (distinctBuffers_append.mp hbuffers).2
    horderly (fun n _ => Nat.zero_le n) (Due.initial _ 0 _ c) hexecutes
  rw [hdue.eq_of_nil]
  constructor
  · intro before step after hsteps hclaimed hlast
    rw [hsteps] at hrun horderly
    have hopen : step.use ≠ .shutdown := by
      apply horderly.stays_open
      exact List.mem_append_right before List.mem_cons_self
    obtain ⟨r₁, s₁, _, hfrom⟩ := hrun.split
    obtain ⟨r₂, s₂, hstep, _⟩ := hfrom.uncons
    obtain ⟨guest, trace, submission, ranges, huse⟩ :=
      (performs_of_run hstep).exists_upload hopen hclaimed
    refine ⟨guest, trace, submission, ranges, huse, ?_⟩
    rw [hsteps]
    exact foldl_refresh_of_claimed huse hclaimed hlast _
  · intro hnone
    exact foldl_refresh_of_not_claimed hnone _

/-! ## A byte that is uploaded twice -/

/-- What comes of a use of a bytewise replica after an earlier one. -/
def useAfter (o : Outcome Replica StagingError Simulated.State Unit) (use : Use) :
    Outcome Replica StagingError Simulated.State Unit :=
  (use.action (Simulated.device .direct)).run o.subject o.device

/-- Two pages are uploaded. -/
def uploadBoth : Outcome Replica StagingError Simulated.State Unit :=
  useAfter ⟨.done (), bytewiseReplica 1, (createBytewise 1).device, []⟩
    (.upload twoPages .off 1 [⟨0, 2⟩])

/-- Their submission is complete. -/
def bothCompleted : Outcome Replica StagingError Simulated.State Unit :=
  useAfter uploadBoth (.complete 1)

/-- The guest has changed its first byte. -/
def changedPages : GuestMemory := ⟨0, ⟨#[9, 8]⟩⟩

/-- The first page is uploaded again, out of a staging page that is reused. -/
def uploadAgain : Outcome Replica StagingError Simulated.State Unit :=
  useAfter bothCompleted (.upload changedPages .off 2 [⟨0, 1⟩])

def rewriteSteps : List ReplicaStep :=
  [⟨.upload twoPages .off 1 [⟨0, 2⟩], uploadBoth.ending, uploadBoth.events⟩,
    ⟨.complete 1, bothCompleted.ending, bothCompleted.events⟩,
    ⟨.upload changedPages .off 2 [⟨0, 1⟩], uploadAgain.ending, uploadAgain.events⟩]

/-- What the buffers hold when its copies are executed at once. -/
def rewritten : Contents := atOnce (rewriteSteps.flatMap moments) fun _ _ => 0

theorem orderly_rewriteSteps : Orderly 0 rewriteSteps := by
  have hboth : uploadBoth.ending = .done () := by decide +kernel
  have hcompleted : bothCompleted.ending = .done () := by decide +kernel
  have hagain : uploadAgain.ending = .done () := by decide +kernel
  refine ⟨by simp [rewriteSteps], ?_, ?_, ?_⟩
  · simp [rewriteSteps, hboth, hcompleted, hagain, Ending.Returns]
  · simp [rewriteSteps, Use.Fits, PageRange.stop, size]
  · simp [rewriteSteps, submissionsOf, Use.submission?]

theorem holds_last_claimed_rewritten :
    rewritten 1 0 = changedPages.byte 0 ∧ rewritten 1 1 = twoPages.byte 1 ∧ rewritten 1 2 = 0 := by
  have hcreated : (createBytewise 1).ending = .done (bytewiseReplica 1) := by decide +kernel
  have hrun : Runs (Use.action (Simulated.device .direct)) (bytewiseReplica 1)
      (createBytewise 1).device rewriteSteps uploadAgain.subject uploadAgain.device :=
    .cons (Outcome.eta uploadBoth) (.cons (Outcome.eta bothCompleted)
      (.cons (Outcome.eta uploadAgain) (.nil _ _)))
  have hbuffers : DistinctBuffers [] ((createBytewise 1).events ++ eventsOf rewriteSteps) := by
    decide +kernel
  have hheld := holds_last_claimed (createBytewise_run hcreated) hrun hbuffers orderly_rewriteSteps
    (executes_atOnce (rewriteSteps.flatMap moments) fun _ _ => 0)
  refine ⟨?_, ?_, ?_⟩
  · obtain ⟨guest, trace, submission, ranges, huse, hbyte⟩ :=
      (hheld 0).1 _ _ [] (List.dropLast_append_getLast? _ rfl).symm (by decide +kernel) (by simp)
    cases huse
    exact hbyte
  · obtain ⟨guest, trace, submission, ranges, huse, hbyte⟩ :=
      (hheld 1).1 [] _ _ rfl (by decide +kernel) (by decide +kernel)
    cases huse
    exact hbyte
  · exact (hheld 2).2 (by decide +kernel)

end GuestReplica.Replica
