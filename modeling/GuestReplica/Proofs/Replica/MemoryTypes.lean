import GuestReplica.Device.Simulated
import GuestReplica.Proofs.Replica.Runs
import GuestReplica.Proofs.Staging.MemoryTypes
import GuestReplica.Proofs.Store.MemoryTypes

set_option autoImplicit false

/-!
# The memory types of a replica

What a device reports of its memory types decides where the buffer of a replica and its
staging pages live.  The store gets the local types and the pool gets the others, and all that
is done with the replica later creates staging pages only as the pool does.
-/

namespace GuestReplica

open Staging (Pool)

variable {ε σ : Type} {d : Device σ} {past events : List Event}

/-! ## Staging pages of uploads -/

namespace Upload

variable {u : Upload} {p q : Pool} {batch : Batch} {ranges : List PageRange}

theorem StagesPages.accounted {start remaining : Nat}
    {ending : Ending ε (Batch × Option StagingError)}
    (h : StagesPages d u p batch start remaining ending q events) (hp : p.Accounted past) :
    q.Accounted (past ++ events) := by
  induction h generalizing past with
  | finished _ _ _ => exact hp.append_right []
  | failed _ hrequest => exact hrequest.accounted hp
  | stopped _ hrequest => exact hrequest.accounted hp
  | broken _ hrequest _ =>
    rw [← List.append_assoc]
    exact (hrequest.accounted hp).append_right _
  | uneven _ hrequest _ _ =>
    rw [← List.append_assoc]
    exact (hrequest.accounted hp).append_right _
  | piece _ hrequest _ _ _ ih =>
    rw [← List.append_assoc, ← List.append_assoc]
    exact ih ((hrequest.accounted hp).append_right _)

theorem StagesRanges.accounted {ending : Ending ε (Batch × Option StagingError)}
    (h : StagesRanges d u p batch ranges ending q events) (hp : p.Accounted past) :
    q.Accounted (past ++ events) := by
  induction h generalizing past with
  | finished _ _ => exact hp.append_right []
  | failed hpages =>
    rw [← List.append_assoc]
    exact hpages.accounted (hp.append_right _)
  | broken hpages =>
    rw [← List.append_assoc]
    exact hpages.accounted (hp.append_right _)
  | range hpages _ ih =>
    rw [← List.append_assoc, ← List.append_assoc]
    exact ih (hpages.accounted (hp.append_right _))

/-- However an upload is staged, it is known how the pages of its pool were created. -/
theorem Stages.accounted {ending : Ending ε (Option StagingError)}
    (h : Stages d u p ranges ending q events) (hp : p.Accounted past) :
    q.Accounted (past ++ events) := by
  cases h with
  | broken hranges => exact hranges.accounted hp
  | sourceless hranges _ => exact hranges.accounted hp
  | staged hranges _ =>
    rw [← List.append_assoc]
    exact (hranges.accounted hp).append_right _

end Upload

namespace Replica

variable {τ : Type} {r r' : Replica} {s s' : σ}

/-! ## Steps and runs -/

/-- It is known how the staging pages were created. -/
def Accounted (r : Replica) (past : List Event) : Prop := ∀ p ∈ r.pool, p.Accounted past

theorem Accounted.append_right (h : r.Accounted past) (later : List Event) :
    r.Accounted (past ++ later) :=
  fun p hpool => (h p hpool).append_right later

theorem Uploads.accounted {guest : GuestMemory} {trace : ReadTrace} {submission : Nat}
    {ranges : List PageRange} {ending : Ending UploadError Unit}
    (h : Uploads d guest trace submission r ranges ending r' events) (hr : r.Accounted past) :
    r'.Accounted (past ++ events) := by
  cases h with
  | idle _ => exact hr.append_right []
  | refused _ _ => exact hr.append_right []
  | shutDown _ _ => exact hr.append_right _
  | broken _ hpool hstages =>
    rintro q ⟨⟩
    rw [← List.append_assoc]
    exact hstages.accounted ((hr _ hpool).append_right _)
  | finished _ hpool hstages =>
    rintro q ⟨⟩
    rw [← List.append_assoc]
    exact hstages.accounted ((hr _ hpool).append_right _)
  | failed _ hpool hstages =>
    rintro q ⟨⟩
    rw [← List.append_assoc, ← List.append_assoc]
    exact (hstages.accounted ((hr _ hpool).append_right _)).append_right _

theorem Ends.accounted {ending : Ending StagingError Unit} (h : Ends r ending r' events)
    (hr : r.Accounted past) : r'.Accounted (past ++ events) := by
  cases h with
  | shutDown _ => exact hr.append_right []
  | flushed hpool hflush =>
    rintro q ⟨⟩
    exact hflush.accounted (hr _ hpool)
  | failed hpool hflush =>
    rintro q ⟨⟩
    rw [← List.append_assoc]
    exact (hflush.accounted (hr _ hpool)).append_right _
  | broken hpool hflush =>
    rintro q ⟨⟩
    exact hflush.accounted (hr _ hpool)

theorem Performs.accounted {use : Use} {answer : Ending StagingError Unit}
    (h : Performs d r use answer r' events) (hr : r.Accounted past) :
    r'.Accounted (past ++ events) := by
  cases h with
  | uploaded hupload => exact hupload.accounted hr
  | unstaged hupload => exact hupload.accounted hr
  | stopped hupload => exact hupload.accounted hr
  | declared _ => exact hr.append_right _
  | refused _ => exact hr.append_right []
  | completed _ =>
    intro q hq
    obtain ⟨p, hpool, rfl⟩ := Option.map_eq_some_iff.mp hq
    exact (hr p hpool).of_pages_eq rfl rfl []
  | ended hends => exact hends.accounted hr
  | shutDown => rintro q ⟨⟩

theorem accounted_of_runs {steps : List ReplicaStep} (h : Runs (Use.action d) r s steps r' s')
    (hr : r.Accounted past) : r'.Accounted (past ++ eventsOf steps) := by
  induction h generalizing past with
  | nil r s => exact hr.append_right []
  | cons hstep _ ih =>
    rw [eventsOf_cons, ← List.append_assoc]
    exact ih ((performs_of_run hstep).accounted hr)

/-! ## Creation -/

/-- A replica comes of the creation of a store, which it waits for and whose failure it hands
on, and gets a pool that knows the other types. -/
structure CreatedFrom (creation : Outcome τ CreationError σ Store) (types : MemoryTypes)
    (config : Config) (ending : Ending CreationError Replica) (events : List Event) : Prop where
  events_prefix : creation.events <+: events
  failed_iff : ∀ e, ending = .failed e ↔ creation.ending = .failed e
  created : ∀ r, ending = .done r → ∃ store staging, creation.ending = .done store ∧
    staging.Knows types ∧ Pool.new staging = .ok (.ofConfig staging) ∧
    r = initial config store staging

/-- The pool of a replica is told the types that its configuration has. -/
theorem knows_of_staging? {config : Config} {staging : Staging.Config}
    (h : config.staging? = .ok staging) : staging.Knows config.memoryTypes := by
  unfold Config.staging? at h
  split at h
  · cases h
  · cases h
    exact ⟨rfl, rfl⟩

theorem createdFrom_of_run {config : Config} {t t' : τ} {ending : Ending CreationError Replica}
    {creation : Outcome τ CreationError σ Store} (hbits : config.pageBits ≤ Config.maxPageBits)
    (hstore : (Store.create d size config.strategies config.memoryTypes.deviceLocal).run t s =
      creation)
    (h : (create d config).run t s = ⟨ending, t', s', events⟩) :
    CreatedFrom creation config.memoryTypes config ending events := by
  cases completes_of_run hbits hstore h with
  | failed hending => exact ⟨List.prefix_append _ _, by simp [hending], nofun⟩
  | broken hending => exact ⟨List.prefix_rfl, by simp [hending], nofun⟩
  | misconfigured hending => exact ⟨List.prefix_rfl, by simp [hending], nofun⟩
  | @created store staging hending hstaging hnew =>
    refine ⟨List.prefix_rfl, by simp [hending], ?_⟩
    rintro r ⟨⟩
    exact ⟨store, staging, hending, knows_of_staging? hstaging, hnew, rfl⟩

/-! ## All choices -/

variable {count : Nat} {properties : Nat → Mask}

/-- The pool of a replica goes by the types that the device has reported, whatever is done with
the replica. -/
theorem respectsTypes_of_runs {config : Config} {t t' : τ} {r₀ : Replica} {s₀ s₁ : σ}
    {created : List Event} {steps : List ReplicaStep}
    (htypes : config.memoryTypes = .ofProperties count properties)
    (hcreate : (create d config).run t s₁ = ⟨.done r₀, t', s₀, created⟩)
    (hrun : Runs (Use.action d) r₀ s₀ steps r s) :
    ∀ p ∈ r.pool, p.RespectsTypes d count properties s (created ++ eventsOf steps) := by
  obtain ⟨store, staging, _, hstaging, _, rfl, _⟩ := create_done hcreate
  have hinitial : ∀ p ∈ (initial config store staging).pool, p.config.Knows config.memoryTypes := by
    rintro p ⟨⟩
    exact knows_of_staging? hstaging
  have hkeeps := fun unit => keeps_config d unit (·.Knows config.memoryTypes)
  have hknows : ∀ p ∈ r.pool, p.config.Knows config.memoryTypes :=
    hrun.keeps (fun hstep => (performs_of_run hstep).keeps (hkeeps _)) hinitial
  have haccounted : (initial config store staging).Accounted created := by
    rintro p ⟨⟩
    exact Pool.accounted_ofConfig staging created
  intro p hpool
  have hp := hknows p hpool
  rw [htypes] at hp
  exact (accounted_of_runs hrun haccounted p hpool).respectsTypes hp d s

/-- Memory types are chosen rightly, whatever a device reports of them, and however it answers.
A store is created by attempts that each use the lowest local type that will do.  A pool that
was told the types that are visible and coherent takes the best of them for each page, and
flushes a page just if it is not coherent.  The creation of a replica tells its store and its
pool what the device has reported, and the pool goes by it for as long as there is one. -/
theorem memoryTypes_chosen (d : Device σ) (count : Nat) (properties : Nat → Mask) :
    (∀ {bytes strategies ending events} {t t' : τ} {s s'},
      (Store.create d bytes strategies (MemoryTypes.ofProperties count properties).deviceLocal).run
          t s = ⟨ending, t', s', events⟩ →
        ∃ attempts, Runs (fun strategy => Store.createWith d bytes strategy
            (MemoryTypes.ofProperties count properties).deviceLocal) t s attempts t' s' ∧
          events = Store.told bytes attempts ∧
          Store.FirstThatWorks strategies (.bufferCreation Code.initializationFailed) attempts
            ending ∧
          ∀ attempt ∈ attempts,
            Store.ChoosesType count properties bytes attempt.use attempt.answer attempt.events) ∧
      (∀ {staging p₀ s₀ steps p s}, staging.Knows (.ofProperties count properties) →
        Pool.new staging = .ok p₀ → Runs (Pool.OwnerUse.action d) p₀ s₀ steps p s →
          p.RespectsTypes d count properties s (eventsOf steps)) ∧
      ∀ {config ending events} {t t' : τ} {s s'},
        config.memoryTypes = .ofProperties count properties →
        config.pageBits ≤ Config.maxPageBits →
        (create d config).run t s = ⟨ending, t', s', events⟩ →
          CreatedFrom ((Store.create d size config.strategies
            (MemoryTypes.ofProperties count properties).deviceLocal).run t s)
            (.ofProperties count properties) config ending events ∧
          ∀ {r₀ steps r s''}, ending = .done r₀ → Runs (Use.action d) r₀ s' steps r s'' →
            ∀ p ∈ r.pool, p.RespectsTypes d count properties s'' (events ++ eventsOf steps) := by
  refine ⟨fun hstore => ?_, Pool.respectsTypes_of_ownerRuns, fun htypes hbits hcreate => ?_⟩
  · obtain ⟨attempts, hruns, hevents, hworks⟩ := Store.exists_attempts hstore
    exact ⟨attempts, hruns, hevents, hworks, fun attempt hmem =>
      (Store.attempts_of_mem hruns hmem).choosesType⟩
  · rw [← htypes]
    refine ⟨createdFrom_of_run hbits rfl hcreate, ?_⟩
    rintro r₀ steps r s'' rfl hrun
    exact respectsTypes_of_runs htypes hcreate hrun

/-! ## A type past the count -/

/-- Of two types, one is coherent without being visible, and the other is visible without being
coherent.  What would be better comes after them. -/
def pastCount : Nat → Mask
  | 0 => MemoryProperty.deviceLocal ||| MemoryProperty.hostCoherent
  | 1 => MemoryProperty.hostVisible
  | _ => MemoryProperty.deviceLocal ||| MemoryProperty.hostVisible ||| MemoryProperty.hostCoherent

/-- A replica on a device that reports two types. -/
def twoTypes : Config where
  pageBits := 0
  memoryTypes := .ofProperties 2 pastCount
  stagingPageSize := 16

/-- What is created when nothing fails. -/
def createTwoTypes : Outcome Unit CreationError Simulated.State Replica :=
  (create (Simulated.device .direct) twoTypes).run () (Simulated.State.new {})

/-- The store of it. -/
def storeTwoTypes : Outcome Unit CreationError Simulated.State Store :=
  (Store.create (Simulated.device .direct) size [.plain]
    (MemoryTypes.ofProperties 2 pastCount).deviceLocal).run () (Simulated.State.new {})

/-- The configuration of its pool. -/
def stagingTwoTypes : Staging.Config where
  pageSize := 16
  hostVisible := 2
  hostCoherent := 1

/-- The replica that is created. -/
def replicaTwoTypes : Replica := initial twoTypes ⟨1, size, [2], 0, .plain⟩ stagingTwoTypes

/-- A page of the guest is uploaded. -/
def uploadTwoTypes : List ReplicaStep × Replica × Simulated.State :=
  play (Use.action (Simulated.device .direct)) replicaTwoTypes createTwoTypes.device
    [.upload ⟨0, ⟨#[7]⟩⟩ .off 1 [⟨0, 1⟩]]

/-- A byte is requested of such a pool without a replica. -/
def requestTwoTypes : List Pool.OwnerStep × Pool × Simulated.State :=
  play (Pool.OwnerUse.action (Simulated.device .direct)) (.ofConfig stagingTwoTypes)
    (Simulated.State.new {}) [.client (.request 1 1 1)]

/-- The staging pages are of the visible type, and not coherent. -/
theorem memoryTypes_chosen_past_count :
    (∃ attempts, storeTwoTypes.events = Store.told size attempts ∧
        ∀ attempt ∈ attempts, Store.ChoosesType 2 pastCount size attempt.use attempt.answer
          attempt.events) ∧
      (⟨1, 2, false, 1⟩ : Staging.Page).HasBestType 2 pastCount 16 (eventsOf requestTwoTypes.1) ∧
      (⟨3, 4, false, 1⟩ : Staging.Page).HasBestType 2 pastCount 16
        (createTwoTypes.events ++ eventsOf uploadTwoTypes.1) := by
  obtain ⟨hstore, hpool, hreplica⟩ :=
    memoryTypes_chosen (τ := Unit) (Simulated.device .direct) 2 pastCount
  refine ⟨?_, ?_, ?_⟩
  · obtain ⟨attempts, _, hevents, _, hchooses⟩ := hstore (Outcome.eta storeTwoTypes)
    exact ⟨attempts, hevents, hchooses⟩
  · have hknows : stagingTwoTypes.Knows (.ofProperties 2 pastCount) := ⟨by decide, by decide⟩
    have hrun : Runs (Pool.OwnerUse.action (Simulated.device .direct)) (.ofConfig stagingTwoTypes)
        (Simulated.State.new {}) requestTwoTypes.1 requestTwoTypes.2.1 requestTwoTypes.2.2 :=
      runs_play _ _ _ _
    exact (hpool hknows rfl hrun).pages _ (by decide)
  · have htypes : twoTypes.memoryTypes = .ofProperties 2 pastCount := rfl
    have hcreated : createTwoTypes.ending = .done replicaTwoTypes := by decide +kernel
    have hrun : Runs (Use.action (Simulated.device .direct)) replicaTwoTypes createTwoTypes.device
        uploadTwoTypes.1 uploadTwoTypes.2.1 uploadTwoTypes.2.2 := runs_play _ _ _ _
    have huploaded : uploadTwoTypes.2.1.pool =
        some ⟨stagingTwoTypes, [⟨3, 4, false, 1⟩], [], [], some 0, 1, 0⟩ := by decide +kernel
    obtain ⟨_, hrespects⟩ := hreplica htypes (by decide) (Outcome.eta createTwoTypes)
    exact (hrespects hcreated hrun _ huploaded).pages _ (by decide)

end Replica

end GuestReplica
