import GuestReplica.Proofs.Runs
import GuestReplica.Proofs.Staging.Invariant

set_option autoImplicit false

/-!
# Runs of a staging pool

A client requests memory of a pool, reclaims pages when submissions complete, and
flushes what it has written.
-/

namespace GuestReplica.Staging.Pool

variable {σ : Type}

/-- What a client does with a pool. -/
inductive Use where
  | request (submission size alignment : Nat)
  | reclaim (completed : Nat)
  | flush
  deriving DecidableEq, Repr, Inhabited

namespace Use

/-- Does it.  Only a request answers with an allocation. -/
def action (d : Device σ) : Use → Action Pool StagingError σ (Option Allocation)
  | .request submission size alignment => some <$> Pool.request d submission size alignment
  | .reclaim completed => do
    Action.update (Pool.reclaim completed)
    return none
  | .flush => do
    Pool.flush d
    return none

/-- The submission that a request is made for. -/
def submission? : Use → Option Nat
  | .request submission _ _ => some submission
  | .reclaim _ | .flush => none

end Use

/-- A step of a run of a pool. -/
abbrev PoolStep : Type := Step Use StagingError (Option Allocation)

/-- How a step can end. -/
inductive Performs (d : Device σ) (p : Pool) :
    Use → Ending StagingError (Option Allocation) → Pool → List Event → Prop where
  | allocated {q : Pool} {submission size alignment : Nat} {a : Allocation} {events : List Event}
      (hrequest : Requests d p submission size alignment (.done a) q events) :
      Performs d p (.request submission size alignment) (.done (some a)) q events
  | unserved {q : Pool} {submission size alignment : Nat} {e : StagingError} {events : List Event}
      (hrequest : Requests d p submission size alignment (.failed e) q events) :
      Performs d p (.request submission size alignment) (.failed e) q events
  | stopped {q : Pool} {submission size alignment : Nat} {v : Violation} {events : List Event}
      (hrequest : Requests d p submission size alignment (.broken v) q events) :
      Performs d p (.request submission size alignment) (.broken v) q events
  | reclaimed (completed : Nat) :
      Performs d p (.reclaim completed) (.done none) (p.reclaim completed) []
  | flushed {q : Pool} {events : List Event} (hflush : Flushes p (.done ()) q events) :
      Performs d p .flush (.done none) q events
  | unflushed {q : Pool} {e : StagingError} {events : List Event}
      (hflush : Flushes p (.failed e) q events) : Performs d p .flush (.failed e) q events
  | overflow {q : Pool} {v : Violation} {events : List Event}
      (hflush : Flushes p (.broken v) q events) : Performs d p .flush (.broken v) q events

theorem performs_of_run {d : Device σ} {p q : Pool} {s s' : σ} {use : Use}
    {answer : Ending StagingError (Option Allocation)} {events : List Event}
    (h : (use.action d).run p s = ⟨answer, q, s', events⟩) : Performs d p use answer q events := by
  cases use with
  | request submission size alignment =>
    simp only [Use.action, Action.run_map] at h
    rcases hrun : (request d submission size alignment).run p s with ⟨ending, p₁, s₁, es⟩
    have hrequest := requests_of_run hrun
    rw [hrun] at h
    cases ending with
    | done a =>
      rw [Outcome.map_done] at h
      cases h
      exact .allocated hrequest
    | failed e =>
      cases h
      exact .unserved hrequest
    | broken v =>
      cases h
      exact .stopped hrequest
  | reclaim completed =>
    cases h
    exact .reclaimed completed
  | flush =>
    simp only [Use.action, Action.run_bind] at h
    rcases hrun : (flush d).run p s with ⟨ending, p₁, s₁, es⟩
    have hflush := flushes_of_run hrun
    rw [hrun] at h
    cases ending with
    | done value =>
      simp only [Outcome.andThen_done, Action.run_pure, Outcome.after_mk, List.append_nil] at h
      cases h
      exact .flushed hflush
    | failed e =>
      cases h
      exact .unflushed hflush
    | broken v =>
      cases h
      exact .overflow hflush

variable {d : Device σ} {p q : Pool} {s s' : σ}

theorem Performs.valid {use : Use} {answer : Ending StagingError (Option Allocation)}
    {events : List Event} (h : Performs d p use answer q events) (hp : p.Valid) : q.Valid := by
  cases h with
  | allocated hrequest => exact hrequest.valid hp
  | unserved hrequest => exact hrequest.valid hp
  | stopped hrequest => exact hrequest.valid hp
  | reclaimed completed => exact hp.reclaim completed
  | flushed hflush => exact hflush.valid hp
  | unflushed hflush => exact hflush.valid hp
  | overflow hflush => exact hflush.valid hp

theorem Performs.config_eq {use : Use} {answer : Ending StagingError (Option Allocation)}
    {events : List Event} (h : Performs d p use answer q events) : q.config = p.config := by
  cases h with
  | allocated hrequest => exact hrequest.config_eq
  | unserved hrequest => exact hrequest.config_eq
  | stopped hrequest => exact hrequest.config_eq
  | reclaimed _ => rfl
  | flushed hflush => exact hflush.config_eq
  | unflushed hflush => exact hflush.config_eq
  | overflow hflush => exact hflush.config_eq

theorem Performs.gains {use : Use} {answer : Ending StagingError (Option Allocation)}
    {events : List Event} (h : Performs d p use answer q events) : Gains p q events := by
  cases h with
  | allocated hrequest => exact hrequest.gains
  | unserved hrequest => exact hrequest.gains
  | stopped hrequest => exact hrequest.gains
  | reclaimed completed => exact gains_of_leaveBuffers rfl leaveBuffers_nil
  | flushed hflush => exact hflush.gains
  | unflushed hflush => exact hflush.gains
  | overflow hflush => exact hflush.gains

/-- Whatever a client does with a pool, it stays valid. -/
theorem valid_of_runs {steps : List PoolStep}
    (h : Runs (Use.action d) p s steps q s') (hp : p.Valid) : q.Valid :=
  h.keeps (fun hstep => (performs_of_run hstep).valid) hp

/-- Nothing that a client does changes what the pool is like. -/
theorem config_of_runs {steps : List PoolStep}
    (h : Runs (Use.action d) p s steps q s') : q.config = p.config := by
  induction h with
  | nil p s => rfl
  | cons hstep _ ih => exact ih.trans (performs_of_run hstep).config_eq

theorem gains_of_runs {steps : List PoolStep}
    (h : Runs (Use.action d) p s steps q s') : Gains p q (eventsOf steps) := by
  induction h with
  | nil p s => exact .refl p
  | cons hstep _ ih => exact (performs_of_run hstep).gains.trans ih

end GuestReplica.Staging.Pool
