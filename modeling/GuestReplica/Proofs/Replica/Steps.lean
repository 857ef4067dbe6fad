import GuestReplica.Proofs.Store
import GuestReplica.Proofs.Upload.Steps
import GuestReplica.Replica

set_option autoImplicit false

/-!
# What the operations of a replica can do

A declaration and a completed submission are functions of the replica; an upload
and the end of a submission also depend on the device, and relations say how they
can end.  A shutdown always ends, and leaves neither a pool nor a store.
-/

namespace GuestReplica

variable {τ ε σ : Type}

namespace Replica

variable {d : Device σ}

/-! ## Declarations -/

/-- The replica after a declared use. -/
def declared (r : Replica) (mode : Access.Mode) (written : Span) : Replica :=
  { r with access := r.access.advance mode written }

/-- The events that record the barrier which the next use in a mode needs, if any. -/
def barriers (r : Replica) (mode : Access.Mode) : List Event :=
  match r.access.transition? mode with
  | none => []
  | some transition =>
    [.command (.barrier (Barrier.ofTransition transition r.tessellation r.buffer))]

theorem declare_run (mode : Access.Mode) (written : Span) (r : Replica) (s : σ) :
    (declare mode written : Action Replica ε σ Unit).run r s =
      if r.access.Allows mode written then
        ⟨.done (), r.declared mode written, s, r.barriers mode⟩
      else
        ⟨.broken (.readWrites (written.clamp r.access.size).start
          (written.clamp r.access.size).stop), r, s, []⟩ := by
  by_cases hallows : r.access.Allows mode written
  · have hdeclare := Access.Tracker.declare_eq_ok_iff.mpr ⟨hallows, rfl, rfl⟩
    simp only [declare, Action.run_bind, Action.run_subject, Outcome.andThen_done, hdeclare,
      Action.check_ok, Action.run_pure, if_pos hallows]
    cases htransition : r.access.transition? mode with
    | none => simp [barriers, htransition, declared]
    | some transition =>
      simp [barriers, htransition, declared, Access.Tracker.advance, buffer]
  · simp [declare, Access.Tracker.declare, hallows]

/-- Modes that write may write anything. -/
theorem declare_run_of_isWrite {mode : Access.Mode} (hmode : mode.isWrite = true) (written : Span)
    (r : Replica) (s : σ) :
    (declare mode written : Action Replica ε σ Unit).run r s =
      ⟨.done (), r.declared mode written, s, r.barriers mode⟩ := by
  have hallows : r.access.Allows mode written := Or.inl hmode
  rw [declare_run, if_pos hallows]

@[simp] theorem pool_declared (r : Replica) (mode : Access.Mode) (written : Span) :
    (r.declared mode written).pool = r.pool := rfl

@[simp] theorem buffer_declared (r : Replica) (mode : Access.Mode) (written : Span) :
    (r.declared mode written).buffer = r.buffer := rfl

@[simp] theorem pageBits_declared (r : Replica) (mode : Access.Mode) (written : Span) :
    (r.declared mode written).pageBits = r.pageBits := rfl

/-- The replica with another staging pool. -/
def putPool (q : Staging.Pool) (r : Replica) : Replica := { r with pool := some q }

/-! ## Uploads -/

/-- What the pieces of an upload into this replica have in common. -/
def job (r : Replica) (guest : GuestMemory) (trace : ReadTrace) (submission : Nat) : Upload :=
  ⟨guest, trace, r.buffer, r.pageBits, submission⟩

/-- The bytes from the first page to the last are written by an upload. -/
def uploadSpan (r : Replica) (first last : PageRange) : Span :=
  ⟨first.start <<< r.pageBits, last.stop <<< r.pageBits⟩

/-- Ranges with their first and their last one, all in order and with page indices
that are addresses. -/
structure Accepts (ranges : List PageRange) (first last : PageRange) : Prop where
  head_eq : ranges.head? = some first
  last_eq : ranges.getLast? = some last
  ordered : PageRange.checkOrder ranges = .ok ()
  stop_lt : last.stop < addressLimit

/-- How an upload can end. -/
inductive Uploads (d : Device σ) (guest : GuestMemory) (trace : ReadTrace) (submission : Nat)
    (r : Replica) (ranges : List PageRange) :
    Ending UploadError Unit → Replica → List Event → Prop where
  | idle (hranges : ranges = []) :
      Uploads d guest trace submission r ranges (.done ()) r []
  /-- the ranges are not in order, or the last one ends at no page index -/
  | refused {v : Violation} (hranges : ranges ≠ [])
      (hrefused : ¬ ∃ first last, Accepts ranges first last) :
      Uploads d guest trace submission r ranges (.broken v) r []
  | shutDown {first last : PageRange} (haccepts : Accepts ranges first last)
      (hpool : r.pool = none) :
      Uploads d guest trace submission r ranges (.broken .shutDown)
        (r.declared .transferDestination (r.uploadSpan first last))
        (r.barriers .transferDestination)
  | broken {first last : PageRange} {p q : Staging.Pool} {v : Violation} {events : List Event}
      (haccepts : Accepts ranges first last) (hpool : r.pool = some p)
      (hstages : (r.job guest trace submission).Stages (ε := UploadError) d p ranges (.broken v) q
        events) :
      Uploads d guest trace submission r ranges (.broken v)
        ((r.declared .transferDestination (r.uploadSpan first last)).putPool q)
        (r.barriers .transferDestination ++ events)
  | finished {first last : PageRange} {p q : Staging.Pool} {events : List Event}
      (haccepts : Accepts ranges first last) (hpool : r.pool = some p)
      (hstages : (r.job guest trace submission).Stages (ε := UploadError) d p ranges
        (.done none) q events) :
      Uploads d guest trace submission r ranges (.done ())
        ((r.declared .transferDestination (r.uploadSpan first last)).putPool q)
        (r.barriers .transferDestination ++ events)
  | failed {first last : PageRange} {p q : Staging.Pool} {e : StagingError} {events : List Event}
      (haccepts : Accepts ranges first last) (hpool : r.pool = some p)
      (hstages : (r.job guest trace submission).Stages (ε := UploadError) d p ranges
        (.done (some e)) q events) :
      Uploads d guest trace submission r ranges (.failed (.stagingAllocation e))
        ((r.declared .transferDestination (r.uploadSpan first last)).putPool q)
        (r.barriers .transferDestination ++ events ++
          [.notice (.uploadFailed (.stagingAllocation e))])

theorem uploads_of_run {guest : GuestMemory} {trace : ReadTrace} {submission : Nat}
    {ranges : List PageRange} {r r' : Replica} {s s' : σ} {ending : Ending UploadError Unit}
    {events : List Event}
    (h : (upload d guest trace submission ranges).run r s = ⟨ending, r', s', events⟩) :
    Uploads d guest trace submission r ranges ending r' events := by
  unfold upload at h
  split at h
  · next first last hhead hlast =>
    have hranges : ranges ≠ [] := by
      intro hnil
      rw [hnil] at hhead
      cases hhead
    cases horder : PageRange.checkOrder ranges with
    | error v =>
      have hrefused : ¬ ∃ first last, Accepts ranges first last := by
        rintro ⟨first, last, haccepts⟩
        rw [haccepts.ordered] at horder
        cases horder
      rw [horder] at h
      cases h
      exact .refused hranges hrefused
    | ok value =>
      cases hstop : last.stop? with
      | error v =>
        have hrefused : ¬ ∃ first last, Accepts ranges first last := by
          rintro ⟨first', last', haccepts⟩
          have heq : last' = last := Option.some.inj (haccepts.last_eq.symm.trans hlast)
          have hok := (PageRange.stop?_eq_ok_iff (r := last')).mpr ⟨haccepts.stop_lt, rfl⟩
          rw [heq, hstop] at hok
          cases hok
        rw [horder, hstop] at h
        cases h
        exact .refused hranges hrefused
      | ok stop =>
        obtain ⟨hlt, rfl⟩ := PageRange.stop?_eq_ok_iff.mp hstop
        have haccepts : Accepts ranges first last := ⟨hhead, hlast, horder, hlt⟩
        have hwrites : Access.Mode.transferDestination.isWrite = true := rfl
        rw [horder, hstop] at h
        simp only [Action.check_ok, Action.run_bind, Action.run_pure, Action.run_subject,
          Outcome.andThen_done, declare_run_of_isWrite hwrites, Outcome.after_nil, withPool,
          pool_declared] at h
        cases hpool : r.pool with
        | none =>
          simp only [hpool, Action.run_violate, Outcome.andThen_broken, Outcome.after_mk,
            List.append_nil] at h
          cases h
          exact .shutDown haccepts hpool
        | some p =>
          rw [hpool] at h
          rcases hrun : ((r.job guest trace submission).stage d ranges :
            Action Staging.Pool UploadError σ _).run p s with ⟨staging, q, s₁, es⟩
          have hstages := Upload.stages_of_run hrun
          unfold job at hrun
          simp only [Action.run_focus, hrun, Outcome.within_mk] at h
          cases staging with
          | failed e => exact absurd hstages Upload.Stages.not_failed
          | broken v =>
            cases h
            exact .broken haccepts hpool hstages
          | done failure =>
            cases failure with
            | none =>
              simp only [Outcome.andThen_done, Action.run_pure, Outcome.after_mk,
                List.append_nil] at h
              cases h
              exact .finished haccepts hpool hstages
            | some e =>
              simp only [Outcome.andThen_done, Action.run_bind, Action.run_emit, Action.run_fail,
                Outcome.after_mk, List.append_nil, ← List.append_assoc] at h
              cases h
              exact .failed haccepts hpool hstages
  · next hnone =>
    cases h
    apply Uploads.idle
    cases ranges with
    | nil => rfl
    | cons range rest =>
      have hlast := List.getLast?_eq_some_getLast (List.cons_ne_nil range rest)
      exact absurd hlast (hnone range _ rfl)

/-! ## Submissions -/

theorem submissionCompleted_run (completed : Nat) (r : Replica) (s : σ) :
    (submissionCompleted completed : Action Replica ε σ Unit).run r s =
      ⟨.done (), { r with pool := r.pool.map (Staging.Pool.reclaim completed) }, s, []⟩ := by
  obtain ⟨store, pool, access, pageBits, tessellation⟩ := r
  cases pool <;> simp [submissionCompleted, withPool]

/-- How the end of a submission can end. -/
inductive Ends (r : Replica) : Ending StagingError Unit → Replica → List Event → Prop where
  | shutDown (hpool : r.pool = none) : Ends r (.done ()) r []
  | flushed {p q : Staging.Pool} {events : List Event} (hpool : r.pool = some p)
      (hflush : Staging.Pool.Flushes p (.done ()) q events) :
      Ends r (.done ()) (r.putPool q) events
  | failed {p q : Staging.Pool} {e : StagingError} {events : List Event}
      (hpool : r.pool = some p) (hflush : Staging.Pool.Flushes p (.failed e) q events) :
      Ends r (.failed e) (r.putPool q) (events ++ [.notice (.flushFailed e)])
  | broken {p q : Staging.Pool} {v : Violation} {events : List Event} (hpool : r.pool = some p)
      (hflush : Staging.Pool.Flushes p (.broken v) q events) :
      Ends r (.broken v) (r.putPool q) events

theorem ends_of_run {r r' : Replica} {s s' : σ} {ending : Ending StagingError Unit}
    {events : List Event} (h : (submissionEnded d).run r s = ⟨ending, r', s', events⟩) :
    Ends r ending r' events := by
  simp only [submissionEnded, withPool, Action.run_bind, Action.run_attempt, Action.run_subject,
    Outcome.andThen_done, Outcome.after_nil] at h
  cases hpool : r.pool with
  | none =>
    rw [hpool] at h
    cases h
    exact .shutDown hpool
  | some p =>
    rcases hrun : (Staging.Pool.flush d).run p s with ⟨flushed, q, s₁, es⟩
    have hflush := Staging.Pool.flushes_of_run hrun
    simp only [hpool, Action.run_focus, hrun, Outcome.within_mk] at h
    cases flushed with
    | done value =>
      simp only [Outcome.caught_done, Outcome.andThen_done, Action.run_pure, Outcome.after_mk,
        List.append_nil] at h
      cases h
      exact .flushed hpool hflush
    | failed e =>
      simp only [Outcome.caught_failed, Outcome.andThen_done, Action.run_bind, Action.run_emit,
        Action.run_fail, Outcome.after_mk, List.append_nil] at h
      cases h
      exact .failed hpool hflush
    | broken v =>
      cases h
      exact .broken hpool hflush

/-! ## The end -/

/-- A replica that was shut down. -/
def closed (r : Replica) : Replica :=
  { r with store := none, pool := none, access := r.access.reset }

/-- What a shutdown gives back: the staging pages first, then the buffer. -/
def closing (r : Replica) : List Event :=
  (r.pool.elim [] fun pool => Staging.Pool.released pool.pages) ++ r.store.elim [] Store.destroyed

theorem shutdown_run (d : Device σ) (r : Replica) (s : σ) :
    ∃ s', (shutdown d : Action Replica ε σ Unit).run r s = ⟨.done (), r.closed, s', r.closing⟩ := by
  obtain ⟨store, pool, access, pageBits, tessellation⟩ := r
  cases pool with
  | none =>
    cases store with
    | none => exact ⟨s, rfl⟩
    | some store =>
      obtain ⟨s', hstore⟩ := Store.destroy_run (ε := ε) d store
        (⟨some store, none, access.reset, pageBits, tessellation⟩ : Replica) s
      exact ⟨s', by simp [shutdown, withPool, hstore, closed, closing]⟩
  | some pool =>
    obtain ⟨s₁, hpool⟩ := Staging.Pool.destroy_run (ε := ε) d pool s
    cases store with
    | none => exact ⟨s₁, by simp [shutdown, withPool, hpool, closed, closing]⟩
    | some store =>
      obtain ⟨s', hstore⟩ := Store.destroy_run (ε := ε) d store
        (⟨some store, none, access.reset, pageBits, tessellation⟩ : Replica) s₁
      exact ⟨s', by simp [shutdown, withPool, hpool, hstore, closed, closing]⟩

end Replica

end GuestReplica
