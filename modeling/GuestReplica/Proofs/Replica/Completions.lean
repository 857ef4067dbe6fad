import GuestReplica.Proofs.Replica.Tiling
import GuestReplica.Proofs.Staging.Completions

set_option autoImplicit false

/-!
# Notices of completed submissions

The client is told of submissions that the device has completed, and may pass this on late,
more than once, or in another order.  A notice moves staging pages within the pool and does
nothing else, so of several notices only the one for the latest submission counts: together
they leave the replica that this one alone leaves, and with it the order in which the pages
are used again.
-/

namespace GuestReplica.Replica

variable {σ : Type} {d : Device σ} {r r' : Replica} {s s' : σ}

/-! ## One notice -/

/-- The replica after a notice. -/
def notified (completed : Nat) (r : Replica) : Replica :=
  { r with pool := r.pool.map (Staging.Pool.reclaim completed) }

theorem complete_run (d : Device σ) (completed : Nat) (r : Replica) (s : σ) :
    ((Use.complete completed).action d).run r s = ⟨.done (), r.notified completed, s, []⟩ :=
  submissionCompleted_run completed r s

/-- Two notices are one, for the later of their submissions. -/
theorem notified_notified (first second : Nat) (r : Replica) :
    (r.notified first).notified second = r.notified (max first second) := by
  have hpool : Staging.Pool.reclaim second ∘ Staging.Pool.reclaim first =
      Staging.Pool.reclaim (max first second) :=
    funext (Staging.Pool.reclaim_reclaim first second)
  simp only [notified, Option.map_map, hpool]

/-- All that comes of a notice: the staging pages that are done become writable, if the
replica still has a pool.  The store and the access that is tracked are untouched, the
device is not asked, and nothing is recorded. -/
structure OnlyReclaims (r : Replica) (s : σ) (completed : Nat)
    (o : Outcome Replica StagingError σ Unit) : Prop where
  ending_eq : o.ending = .done ()
  pool_rel : Option.Rel (fun p q => ∃ done, p.Reclaims completed done q) r.pool o.subject.pool
  store_eq : o.subject.store = r.store
  access_eq : o.subject.access = r.access
  pageBits_eq : o.subject.pageBits = r.pageBits
  tessellation_eq : o.subject.tessellation = r.tessellation
  device_eq : o.device = s
  events_eq : o.events = []

theorem Valid.onlyReclaims (hr : r.Valid) (d : Device σ) (s : σ) (completed : Nat) :
    OnlyReclaims r s completed (((Use.complete completed).action d).run r s) := by
  rw [complete_run]
  refine ⟨rfl, ?_, rfl, rfl, rfl, rfl, rfl, rfl⟩
  cases hpool : r.pool with
  | none => simp [notified, hpool]
  | some p =>
    have hreclaims := (hr.pool_valid p hpool).reclaims completed
    simp only [notified, hpool, Option.map_some]
    exact .some ⟨_, hreclaims⟩

/-! ## Many notices -/

/-- A run of notices goes on from what the first of them leaves. -/
theorem exists_later_of_runs {first : Nat} {later : List Nat} {steps : List ReplicaStep}
    (hrun : Runs (Use.action d) r s steps r' s')
    (huses : steps.map (·.use) = (first :: later).map Use.complete) :
    ∃ rest : List ReplicaStep, Runs (Use.action d) (r.notified first) s rest r' s' ∧
      rest.map (·.use) = later.map Use.complete := by
  obtain ⟨⟨use, answer, events⟩, rest, rfl, huse, hrest⟩ := List.map_eq_cons_iff.mp huses
  obtain rfl : use = .complete first := huse
  obtain ⟨r₁, s₁, hstep, hlater⟩ := hrun.uncons
  rw [complete_run] at hstep
  cases hstep
  exact ⟨rest, hlater, hrest⟩

/-- After a notice, more of them leave what a single one leaves, for the latest of all. -/
theorem notified_of_later {first : Nat} {later : List Nat} {steps : List ReplicaStep}
    (hrun : Runs (Use.action d) (r.notified first) s steps r' s')
    (huses : steps.map (·.use) = later.map Use.complete) :
    r' = r.notified (later.foldl max first) ∧ s' = s := by
  induction later generalizing first steps with
  | nil =>
    obtain rfl := List.map_eq_nil_iff.mp huses
    cases hrun
    exact ⟨rfl, rfl⟩
  | cons second later ih =>
    obtain ⟨rest, hlater, hrest⟩ := exists_later_of_runs hrun huses
    rw [notified_notified] at hlater
    exact ih hlater hrest

/-- A run of notices leaves what the one for the latest submission leaves. -/
theorem notified_of_runs {completed : List Nat} {latest : Nat} {steps : List ReplicaStep}
    (hlatest : completed.max? = some latest) (hrun : Runs (Use.action d) r s steps r' s')
    (huses : steps.map (·.use) = completed.map Use.complete) :
    r' = r.notified latest ∧ s' = s := by
  cases completed with
  | nil => cases hlatest
  | cons first later =>
    rw [List.max?_cons'] at hlatest
    obtain rfl := Option.some.inj hlatest
    obtain ⟨rest, hlater, hrest⟩ := exists_later_of_runs hrun huses
    exact notified_of_later hlater hrest

/-- Let a replica, whatever was done with it, be told of completed submissions one after the
other, some of them late, repeated or out of order.  That leaves the very replica, and the
device, that a single notice leaves, for the latest of these submissions.  Each of the
notices does nothing but reclaim staging pages. -/
theorem completions_as_latest {completed : List Nat} {latest : Nat} {steps : List ReplicaStep}
    (hr : Reachable d r) (hlatest : completed.max? = some latest)
    (hrun : Runs (Use.action d) r s steps r' s')
    (huses : steps.map (·.use) = completed.map Use.complete) :
    ((Use.complete latest).action d).run r s = ⟨.done (), r', s', []⟩ ∧
      OnlyReclaims r s latest ⟨.done (), r', s', []⟩ ∧
      ∀ {before step after}, steps = before ++ step :: after →
        ∃ submission r₁ s₁ r₂ s₂, step.use = .complete submission ∧
          Runs (Use.action d) r s before r₁ s₁ ∧
          (step.use.action d).run r₁ s₁ = ⟨step.answer, r₂, s₂, step.events⟩ ∧
          OnlyReclaims r₁ s₁ submission ⟨step.answer, r₂, s₂, step.events⟩ := by
  obtain ⟨rfl, rfl⟩ := notified_of_runs hlatest hrun huses
  have hone := complete_run d latest r s'
  refine ⟨hone, hone ▸ hr.valid.onlyReclaims d s' latest, ?_⟩
  rintro before step after rfl
  obtain ⟨r₁, s₁, hbefore, hfrom⟩ := hrun.split
  obtain ⟨r₂, s₂, hstep, _⟩ := hfrom.uncons
  have hmem : step.use ∈ completed.map Use.complete := by simp [← huses]
  obtain ⟨submission, _, huse⟩ := List.mem_map.mp hmem
  have honly := (valid_of_runs hbefore hr.valid).onlyReclaims d s₁ submission
  rw [huse, hstep] at honly
  exact ⟨submission, r₁, s₁, r₂, s₂, huse.symm, hbefore, hstep, honly⟩

/-- Three staging pages of a bytewise replica are used up, the second of them for the latest
submission, and a fourth one is current. -/
def uploadUnsorted : List ReplicaStep × Replica × Simulated.State :=
  play (Use.action (Simulated.device .direct)) (bytewiseReplica 1) (createBytewise 1).device
    [.upload twoPages .report 3 [⟨0, 1⟩], .upload twoPages .report 7 [⟨1, 1⟩],
      .upload twoPages .report 5 [⟨0, 1⟩], .upload twoPages .report 6 [⟨1, 1⟩]]

/-- Then the client tells of what is complete, in no order either. -/
def notifyUnsorted : List ReplicaStep × Replica × Simulated.State :=
  play (Use.action (Simulated.device .direct)) uploadUnsorted.2.1 uploadUnsorted.2.2
    [.complete 3, .complete 2, .complete 7, .complete 5]

/-- The first notice reclaims one page and the third one the others, in the order in which a
single notice reclaims all of them. -/
theorem completions_as_latest_unsorted :
    Reachable (Simulated.device .direct) uploadUnsorted.2.1 ∧
      uploadUnsorted.2.1.pool.map (fun p => (p.submitted, p.writable)) = some ([0, 1, 2], []) ∧
      notifyUnsorted.2.1.pool.map (fun p => (p.submitted, p.writable)) = some ([], [0, 1, 2]) ∧
      ((Use.complete 7).action (Simulated.device .direct)).run uploadUnsorted.2.1
          uploadUnsorted.2.2 = ⟨.done (), notifyUnsorted.2.1, notifyUnsorted.2.2, []⟩ := by
  have hcreated : (createBytewise 1).ending = .done (bytewiseReplica 1) := by decide +kernel
  have hr : Reachable (Simulated.device .direct) uploadUnsorted.2.1 :=
    .intro (createBytewise_run hcreated) (runs_play _ _ _ _)
  have hlatest : [3, 2, 7, 5].max? = some 7 := by decide
  have hrun : Runs (Use.action (Simulated.device .direct)) uploadUnsorted.2.1 uploadUnsorted.2.2
      notifyUnsorted.1 notifyUnsorted.2.1 notifyUnsorted.2.2 := runs_play _ _ _ _
  exact ⟨hr, by decide +kernel, by decide +kernel,
    (completions_as_latest hr hlatest hrun rfl).1⟩

end GuestReplica.Replica
