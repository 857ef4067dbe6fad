import GuestReplica.Proofs.Replica.Steps
import GuestReplica.Proofs.Runs
import GuestReplica.Proofs.Upload.Progress

set_option autoImplicit false

/-!
# Runs of a replica

A client uploads pages, declares uses of the buffer, tells of submissions, and shuts
the replica down, in any order.  What a run can reach from a replica that was
created is a valid replica: its staging pool is valid and hands out whole guest
pages.
-/

namespace GuestReplica.Replica

variable {τ σ : Type} {d : Device σ} {r r' : Replica} {s s' : σ} {events : List Event}

/-- What a client does with a replica. -/
inductive Use where
  | upload (guest : GuestMemory) (trace : ReadTrace) (submission : Nat) (ranges : List PageRange)
  | declare (mode : Access.Mode) (written : Span)
  | complete (completed : Nat)
  | endSubmission
  | shutdown
  deriving Inhabited

/-- Does it.  An upload that fails answers with the cause of its failure. -/
def Use.action (d : Device σ) : Use → Action Replica StagingError σ Unit
  | .upload guest trace submission ranges => do
    match ← (Replica.upload d guest trace submission ranges).attempt with
    | .ok () => return ()
    | .error (.stagingAllocation cause) => Action.fail cause
  | .declare mode written => Replica.declare mode written
  | .complete completed => submissionCompleted completed
  | .endSubmission => submissionEnded d
  | .shutdown => Replica.shutdown d

/-- A step of a run of a replica. -/
abbrev ReplicaStep : Type := Step Use StagingError Unit

/-- How a step can end. -/
inductive Performs (d : Device σ) (r : Replica) :
    Use → Ending StagingError Unit → Replica → List Event → Prop where
  | uploaded {r' : Replica} {guest : GuestMemory} {trace : ReadTrace} {submission : Nat}
      {ranges : List PageRange} {events : List Event}
      (hupload : Uploads d guest trace submission r ranges (.done ()) r' events) :
      Performs d r (.upload guest trace submission ranges) (.done ()) r' events
  | unstaged {r' : Replica} {guest : GuestMemory} {trace : ReadTrace} {submission : Nat}
      {ranges : List PageRange} {cause : StagingError} {events : List Event}
      (hupload : Uploads d guest trace submission r ranges (.failed (.stagingAllocation cause)) r'
        events) :
      Performs d r (.upload guest trace submission ranges) (.failed cause) r' events
  | stopped {r' : Replica} {guest : GuestMemory} {trace : ReadTrace} {submission : Nat}
      {ranges : List PageRange} {v : Violation} {events : List Event}
      (hupload : Uploads d guest trace submission r ranges (.broken v) r' events) :
      Performs d r (.upload guest trace submission ranges) (.broken v) r' events
  | declared {mode : Access.Mode} {written : Span} (hallows : r.access.Allows mode written) :
      Performs d r (.declare mode written) (.done ()) (r.declared mode written) (r.barriers mode)
  | refused {mode : Access.Mode} {written : Span} {v : Violation}
      (hallows : ¬ r.access.Allows mode written) :
      Performs d r (.declare mode written) (.broken v) r []
  | completed (completed : Nat) :
      Performs d r (.complete completed) (.done ())
        { r with pool := r.pool.map (Staging.Pool.reclaim completed) } []
  | ended {r' : Replica} {ending : Ending StagingError Unit} {events : List Event}
      (hends : Ends r ending r' events) : Performs d r .endSubmission ending r' events
  | shutDown : Performs d r .shutdown (.done ()) r.closed r.closing

theorem performs_of_run {use : Use} {answer : Ending StagingError Unit}
    (h : (use.action d).run r s = ⟨answer, r', s', events⟩) : Performs d r use answer r' events := by
  cases use with
  | upload guest trace submission ranges =>
    simp only [Use.action, Action.run_bind, Action.run_attempt] at h
    rcases hrun : (Replica.upload d guest trace submission ranges).run r s with ⟨ending, r₁, s₁, es⟩
    have hupload := uploads_of_run hrun
    rw [hrun] at h
    cases ending with
    | done value =>
      simp only [Outcome.caught_done, Outcome.andThen_done, Action.run_pure, Outcome.after_mk,
        List.append_nil] at h
      cases h
      exact .uploaded hupload
    | failed e =>
      obtain ⟨cause⟩ := e
      simp only [Outcome.caught_failed, Outcome.andThen_done, Action.run_fail, Outcome.after_mk,
        List.append_nil] at h
      cases h
      exact .unstaged hupload
    | broken v =>
      cases h
      exact .stopped hupload
  | declare mode written =>
    rw [Use.action, declare_run] at h
    split at h
    · next hallows =>
      cases h
      exact .declared hallows
    · next hallows =>
      cases h
      exact .refused hallows
  | complete completed =>
    rw [Use.action, submissionCompleted_run] at h
    cases h
    exact .completed completed
  | endSubmission => exact .ended (ends_of_run h)
  | shutdown =>
    obtain ⟨s₁, hrun⟩ := shutdown_run (ε := StagingError) d r s
    rw [Use.action, hrun] at h
    cases h
    exact .shutDown

/-! ## Validity -/

/-- The guest pages are not too large, the tracker knows the size of the buffer, and
the staging pool hands out whole guest pages. -/
structure Valid (r : Replica) : Prop where
  pageBits_le : r.pageBits ≤ Config.maxPageBits
  size_eq : r.access.size = size
  pool_valid : ∀ p ∈ r.pool, p.Valid
  pool_aligned : ∀ p ∈ r.pool, p.Aligned (1 <<< r.pageBits)

/-- A replica with a store and a pool that nothing has used yet. -/
def initial (config : Config) (store : Store) (staging : Staging.Config) : Replica where
  store := some store
  pool := some (Staging.Pool.ofConfig staging)
  access := Access.Tracker.new size
  pageBits := config.pageBits
  tessellation := config.tessellation

/-- How the creation of a replica can end. -/
inductive Creates (path : SparsePath) (config : Config) :
    Ending CreationError Replica → List Event → Prop where
  | tooLarge (hbits : Config.maxPageBits < config.pageBits) :
      Creates path config (.broken .guestPageTooLarge) []
  | failed {e : CreationError} {events : List Event}
      (hstore : Store.Creates path size config.memoryTypes.deviceLocal config.strategies
        (.bufferCreation Code.initializationFailed) (.failed e) events) :
      Creates path config (.failed e) (events ++ [.notice (.creationFailed size e)])
  | broken {v : Violation} {events : List Event}
      (hstore : Store.Creates path size config.memoryTypes.deviceLocal config.strategies
        (.bufferCreation Code.initializationFailed) (.broken v) events) :
      Creates path config (.broken v) events
  /-- there can be no such staging pool -/
  | misconfigured {store : Store} {v : Violation} {events : List Event}
      (hstore : Store.Creates path size config.memoryTypes.deviceLocal config.strategies
        (.bufferCreation Code.initializationFailed) (.done store) events) :
      Creates path config (.broken v) events
  | created {store : Store} {staging : Staging.Config} {events : List Event}
      (hbits : config.pageBits ≤ Config.maxPageBits)
      (hstore : Store.Creates path size config.memoryTypes.deviceLocal config.strategies
        (.bufferCreation Code.initializationFailed) (.done store) events)
      (hstaging : config.staging? = .ok staging)
      (hnew : Staging.Pool.new staging = .ok (Staging.Pool.ofConfig staging)) :
      Creates path config (.done (initial config store staging)) events

/-- How the creation of a replica ends once that of its store has ended. -/
inductive Completes (config : Config) (creation : Ending CreationError Store)
    (earlier : List Event) : Ending CreationError Replica → List Event → Prop where
  | failed {e : CreationError} (hstore : creation = .failed e) :
      Completes config creation earlier (.failed e)
        (earlier ++ [.notice (.creationFailed size e)])
  | broken {v : Violation} (hstore : creation = .broken v) :
      Completes config creation earlier (.broken v) earlier
  /-- there can be no such staging pool -/
  | misconfigured {store : Store} {v : Violation} (hstore : creation = .done store) :
      Completes config creation earlier (.broken v) earlier
  | created {store : Store} {staging : Staging.Config} (hstore : creation = .done store)
      (hstaging : config.staging? = .ok staging)
      (hnew : Staging.Pool.new staging = .ok (Staging.Pool.ofConfig staging)) :
      Completes config creation earlier (.done (initial config store staging)) earlier

theorem completes_of_run {config : Config} {t t' : τ} {ending : Ending CreationError Replica}
    {creation : Outcome τ CreationError σ Store} (hbits : config.pageBits ≤ Config.maxPageBits)
    (hstore : (Store.create d size config.strategies config.memoryTypes.deviceLocal).run t s =
      creation)
    (h : (create d config).run t s = ⟨ending, t', s', events⟩) :
    Completes config creation.ending creation.events ending events := by
  unfold create at h
  rw [if_neg (Nat.not_lt_of_le hbits)] at h
  simp only [Action.run_bind, Action.run_attempt, hstore] at h
  obtain ⟨creation, t₁, s₁, earlier⟩ := creation
  cases creation with
  | failed e =>
    cases h
    exact .failed rfl
  | broken v =>
    cases h
    exact .broken rfl
  | done store =>
    simp only [Outcome.caught_done, Outcome.andThen_done, Action.run_bind] at h
    cases hstaging : config.staging? with
    | error v =>
      simp only [hstaging, Action.check_error, Action.run_violate, Outcome.andThen_broken,
        Outcome.after_mk, List.append_nil] at h
      cases h
      exact .misconfigured rfl
    | ok staging =>
      rw [hstaging] at h
      cases hpool : Staging.Pool.new staging with
      | error v =>
        simp only [hpool, Action.check_ok, Action.check_error, Action.run_pure,
          Action.run_violate, Outcome.andThen_done, Outcome.andThen_broken, Outcome.after_mk,
          List.append_nil] at h
        cases h
        exact .misconfigured rfl
      | ok pool =>
        obtain ⟨_, _, rfl⟩ := Staging.Pool.new_eq_ok_iff.mp hpool
        simp only [hpool, Action.check_ok, Action.run_pure, Outcome.andThen_done,
          Outcome.after_mk, List.append_nil] at h
        cases h
        exact .created rfl hstaging hpool

theorem creates_of_run {config : Config} {t t' : τ} {ending : Ending CreationError Replica}
    (h : (create d config).run t s = ⟨ending, t', s', events⟩) :
    Creates d.sparsePath config ending events := by
  by_cases hbits : Config.maxPageBits < config.pageBits
  · unfold create at h
    rw [if_pos hbits] at h
    cases h
    exact .tooLarge hbits
  · have hle := Nat.le_of_not_lt hbits
    rcases hrun : (Store.create d size config.strategies config.memoryTypes.deviceLocal :
      Action τ CreationError σ Store).run t s with ⟨creation, t₁, s₁, earlier⟩
    obtain ⟨hstore, _⟩ := Store.creates_of_run hrun
    have hcompletes := completes_of_run hle hrun h
    cases hcompletes with
    | failed hending =>
      cases hending
      exact .failed hstore
    | broken hending =>
      cases hending
      exact .broken hstore
    | misconfigured hending =>
      cases hending
      exact .misconfigured hstore
    | created hending hstaging hnew =>
      cases hending
      exact .created hle hstore hstaging hnew

/-- A replica is created from a store with a live buffer and a staging configuration
that passes all checks. -/
theorem create_done {config : Config} {t t' : τ}
    (h : (create d config).run t s = ⟨.done r, t', s', events⟩) :
    ∃ store staging, config.pageBits ≤ Config.maxPageBits ∧ config.staging? = .ok staging ∧
      Staging.Pool.new staging = .ok (Staging.Pool.ofConfig staging) ∧
      r = initial config store staging ∧ ∀ live, store.buffer ∈ liveBuffers live events := by
  cases creates_of_run h with
  | created hbits hstore hstaging hnew =>
    exact ⟨_, _, hbits, hstaging, hnew, rfl, hstore.live⟩

theorem dvd_pageSize_of_staging? {config : Config} {staging : Staging.Config}
    (h : config.staging? = .ok staging) : 1 <<< config.pageBits ∣ staging.pageSize := by
  unfold Config.staging? at h
  split at h
  · cases h
  · next pageSize hround =>
    cases h
    obtain ⟨_, rfl⟩ := Size.roundUp?_eq_some_iff.mp hround
    exact Size.dvd_roundUp _ _

theorem valid_of_create {config : Config} {t t' : τ}
    (h : (create d config).run t s = ⟨.done r, t', s', events⟩) : r.Valid := by
  obtain ⟨store, staging, hbits, hstaging, hnew, rfl, _⟩ := create_done h
  refine ⟨hbits, rfl, ?_, ?_⟩
  · rintro p ⟨⟩
    exact Staging.Pool.valid_of_new hnew
  · rintro p ⟨⟩
    exact ⟨dvd_pageSize_of_staging? hstaging, Nat.dvd_zero _⟩

/-! ## What all operations keep -/

/-- The parts of a replica that only a shutdown changes. -/
structure SameFrame (r r' : Replica) : Prop where
  store_eq : r'.store = r.store
  pageBits_eq : r'.pageBits = r.pageBits
  tessellation_eq : r'.tessellation = r.tessellation
  size_eq : r'.access.size = r.access.size

theorem SameFrame.refl (r : Replica) : SameFrame r r := ⟨rfl, rfl, rfl, rfl⟩

theorem SameFrame.trans {r₁ : Replica} (h : SameFrame r r₁) (h' : SameFrame r₁ r') :
    SameFrame r r' :=
  ⟨h'.store_eq.trans h.store_eq, h'.pageBits_eq.trans h.pageBits_eq,
    h'.tessellation_eq.trans h.tessellation_eq, h'.size_eq.trans h.size_eq⟩

theorem SameFrame.buffer_eq (h : SameFrame r r') : r'.buffer = r.buffer := by
  rw [buffer, buffer, h.store_eq]

theorem Uploads.frame {guest : GuestMemory} {trace : ReadTrace} {submission : Nat}
    {ranges : List PageRange} {ending : Ending UploadError Unit}
    (h : Uploads d guest trace submission r ranges ending r' events) : SameFrame r r' := by
  cases h <;> exact ⟨rfl, rfl, rfl, rfl⟩

theorem Ends.frame {ending : Ending StagingError Unit} (h : Ends r ending r' events) :
    SameFrame r r' := by
  cases h <;> exact ⟨rfl, rfl, rfl, rfl⟩

theorem Performs.frame {use : Use} {answer : Ending StagingError Unit}
    (h : Performs d r use answer r' events) (huse : use ≠ .shutdown) : SameFrame r r' := by
  cases h with
  | uploaded hupload => exact hupload.frame
  | unstaged hupload => exact hupload.frame
  | stopped hupload => exact hupload.frame
  | declared _ => exact ⟨rfl, rfl, rfl, rfl⟩
  | refused _ => exact .refl r
  | completed _ => exact ⟨rfl, rfl, rfl, rfl⟩
  | ended hends => exact hends.frame
  | shutDown => exact absurd rfl huse

theorem frame_of_runs {steps : List ReplicaStep} (h : Runs (Use.action d) r s steps r' s')
    (hopen : ∀ step ∈ steps, step.use ≠ .shutdown) : SameFrame r r' := by
  induction h with
  | nil r s => exact .refl r
  | cons hstep _ ih =>
    have hfirst := (performs_of_run hstep).frame (hopen _ List.mem_cons_self)
    exact hfirst.trans (ih fun step hmem => hopen step (List.mem_cons_of_mem _ hmem))

/-- A property of pools that the operations of a replica keep, which requests whole
units of its pool. -/
structure Keeps (d : Device σ) (unit : Nat) (Inv : Staging.Pool → Prop) : Prop where
  request : ∀ {p q submission size ending events},
    Staging.Pool.Requests d p submission size unit ending q events → unit ∣ size → Inv p → Inv q
  flush : ∀ {p q ending events}, Staging.Pool.Flushes p ending q events → Inv p → Inv q
  reclaim : ∀ {p} completed, Inv p → Inv (Staging.Pool.reclaim completed p)

variable {Inv : Staging.Pool → Prop}

theorem Uploads.keeps {guest : GuestMemory} {trace : ReadTrace} {submission : Nat}
    {ranges : List PageRange} {ending : Ending UploadError Unit}
    (h : Uploads d guest trace submission r ranges ending r' events)
    (hkeeps : Keeps d (1 <<< r.pageBits) Inv) (hr : ∀ p ∈ r.pool, Inv p) :
    ∀ p ∈ r'.pool, Inv p := by
  cases h with
  | idle _ => exact hr
  | refused _ _ => exact hr
  | shutDown _ _ => exact hr
  | broken _ hpool hstages =>
    rintro q ⟨⟩
    exact hstages.keeps hkeeps.request (hr _ hpool)
  | finished _ hpool hstages =>
    rintro q ⟨⟩
    exact hstages.keeps hkeeps.request (hr _ hpool)
  | failed _ hpool hstages =>
    rintro q ⟨⟩
    exact hstages.keeps hkeeps.request (hr _ hpool)

theorem Ends.keeps {unit : Nat} {ending : Ending StagingError Unit} (h : Ends r ending r' events)
    (hkeeps : Keeps d unit Inv) (hr : ∀ p ∈ r.pool, Inv p) : ∀ p ∈ r'.pool, Inv p := by
  cases h with
  | shutDown _ => exact hr
  | flushed hpool hflush =>
    rintro q ⟨⟩
    exact hkeeps.flush hflush (hr _ hpool)
  | failed hpool hflush =>
    rintro q ⟨⟩
    exact hkeeps.flush hflush (hr _ hpool)
  | broken hpool hflush =>
    rintro q ⟨⟩
    exact hkeeps.flush hflush (hr _ hpool)

theorem Performs.keeps {use : Use} {answer : Ending StagingError Unit}
    (h : Performs d r use answer r' events) (hkeeps : Keeps d (1 <<< r.pageBits) Inv)
    (hr : ∀ p ∈ r.pool, Inv p) : ∀ p ∈ r'.pool, Inv p := by
  cases h with
  | uploaded hupload => exact hupload.keeps hkeeps hr
  | unstaged hupload => exact hupload.keeps hkeeps hr
  | stopped hupload => exact hupload.keeps hkeeps hr
  | declared _ => exact hr
  | refused _ => exact hr
  | completed completed =>
    intro q hq
    obtain ⟨p, hpool, rfl⟩ := Option.map_eq_some_iff.mp hq
    exact hkeeps.reclaim completed (hr p hpool)
  | ended hends => exact hends.keeps hkeeps hr
  | shutDown => rintro q ⟨⟩

theorem keeps_valid (d : Device σ) (unit : Nat) : Keeps d unit Staging.Pool.Valid :=
  ⟨fun h _ hp => h.valid hp, fun h hp => h.valid hp, fun completed hp => hp.reclaim completed⟩

theorem keeps_aligned (d : Device σ) (unit : Nat) : Keeps d unit (·.Aligned unit) :=
  ⟨fun h hsize hp => h.aligned hp hsize, fun h hp => h.aligned hp,
    fun _ hp => ⟨hp.dvd_pageSize, hp.dvd_used⟩⟩

/-- Nothing changes what a pool is like. -/
theorem keeps_config (d : Device σ) (unit : Nat) (P : Staging.Config → Prop) :
    Keeps d unit fun p => P p.config :=
  ⟨fun h _ hp => by rwa [h.config_eq], fun h hp => by rwa [h.config_eq], fun _ hp => hp⟩

theorem keeps_nonNull (hd : d.NeverNull) (unit : Nat) : Keeps d unit Staging.Pool.NonNull :=
  ⟨fun h _ hp => h.nonNull hd hp, fun h hp => h.nonNull hp, fun _ hp => hp⟩

theorem Performs.valid {use : Use} {answer : Ending StagingError Unit}
    (h : Performs d r use answer r' events) (hr : r.Valid) : r'.Valid := by
  have hpool := h.keeps (keeps_valid d _) hr.pool_valid
  have haligned := h.keeps (keeps_aligned d _) hr.pool_aligned
  by_cases huse : use = .shutdown
  · rw [huse] at h
    cases h
    refine ⟨hr.pageBits_le, hr.size_eq, ?_, ?_⟩
    · rintro p ⟨⟩
    · rintro p ⟨⟩
  · have hframe := h.frame huse
    rw [← hframe.pageBits_eq] at haligned
    refine ⟨?_, hframe.size_eq.trans hr.size_eq, hpool, haligned⟩
    rw [hframe.pageBits_eq]
    exact hr.pageBits_le

theorem valid_of_runs {steps : List ReplicaStep} (h : Runs (Use.action d) r s steps r' s')
    (hr : r.Valid) : r'.Valid :=
  h.keeps (fun hstep => (performs_of_run hstep).valid) hr

/-- A step of a run is performed by a replica with the frame of the first one. -/
theorem performs_of_mem {steps : List ReplicaStep} {step : ReplicaStep}
    (h : Runs (Use.action d) r s steps r' s') (hopen : ∀ step ∈ steps, step.use ≠ .shutdown)
    (hmem : step ∈ steps) :
    ∃ r₁ r₂, SameFrame r r₁ ∧ Performs d r₁ step.use step.answer r₂ step.events := by
  obtain ⟨before, after, rfl⟩ := List.append_of_mem hmem
  obtain ⟨r₁, s₁, hbefore, hfrom⟩ := h.split
  obtain ⟨r₂, s₂, hstep, _⟩ := hfrom.uncons
  have hframe := frame_of_runs hbefore fun other hother =>
    hopen other (List.mem_append_left _ hother)
  exact ⟨r₁, r₂, hframe, performs_of_run hstep⟩

/-! ## Reachable replicas -/

/-- A replica that some run leads to, from one that was created. -/
inductive Reachable (d : Device σ) (r : Replica) : Prop where
  | intro {config : Config} {r₀ : Replica} {s s₀ s' : σ} {created : List Event}
      {steps : List ReplicaStep}
      (hcreate : (create d config).run () s = ⟨.done r₀, (), s₀, created⟩)
      (hrun : Runs (Use.action d) r₀ s₀ steps r s') : Reachable d r

theorem Reachable.valid (h : Reachable d r) : r.Valid := by
  obtain ⟨hcreate, hrun⟩ := h
  exact valid_of_runs hrun (valid_of_create hcreate)

/-- The staging buffers of a reachable replica have handles, if the device gives them
some. -/
theorem Reachable.nonNull (h : Reachable d r) (hd : d.NeverNull) : ∀ p ∈ r.pool, p.NonNull := by
  obtain @⟨config, r₀, _, _, _, _, _, hcreate, hrun⟩ := h
  have hinitial : ∀ p ∈ r₀.pool, p.NonNull := by
    obtain ⟨store, staging, _, _, _, rfl, _⟩ := create_done hcreate
    rintro p ⟨⟩ page hpage
    cases hpage
  exact hrun.keeps (fun hstep => (performs_of_run hstep).keeps (keeps_nonNull hd _)) hinitial

end GuestReplica.Replica
