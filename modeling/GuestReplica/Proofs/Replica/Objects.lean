import GuestReplica.Proofs.Replica.Closed
import GuestReplica.Proofs.Store.Objects
import GuestReplica.Proofs.Upload.Objects

set_option autoImplicit false

/-!
# The objects of a replica

The live objects are at all times those of the store and of the staging pages: nothing is
lost and nothing is destroyed twice, wherever the device fails.  Up to the shutdown, the
buffers that recorded commands name are among them; after it, nothing is left.
-/

namespace GuestReplica.Replica

open Ledger

variable {σ : Type} {d : Device σ} {r r' : Replica} {s s' : σ} {events : List Event}
variable {use : Use} {answer : Ending StagingError Unit} {o : Ledger} {store : Store}

/-- The objects of the staging pages and of the store. -/
def objects (r : Replica) : List Object :=
  r.pool.elim [] Staging.Pool.objects ++ r.store.elim [] Store.objects

theorem objects_eq {p : Staging.Pool} (hpool : r.pool = some p) (hstore : r.store = some store) :
    r.objects = p.objects ++ store.objects := by
  rw [objects, hpool, hstore]
  rfl

theorem buffer_mem_objects (hstore : r.store = some store) : .buffer r.buffer ∈ r.objects := by
  rw [objects, buffer, hstore]
  exact List.mem_append_right _ List.mem_cons_self

/-! ## Steps -/

/-- A barrier names the buffer. -/
theorem leads_barriers (ho : o.Holds r.objects) (hstore : r.store = some store)
    (mode : Access.Mode) : o.Leads (r.barriers mode) r.objects := by
  unfold barriers
  split
  · exact ho.leads_nil
  · refine ⟨⟨trivial, trivial⟩, ⟨fun buffer hmem => ?_, trivial⟩, ho.perm⟩
    obtain rfl := List.mem_singleton.mp hmem
    exact ho.mem (buffer_mem_objects hstore)

theorem Uploads.leads {guest : GuestMemory} {trace : ReadTrace} {submission : Nat}
    {ranges : List PageRange} {ending : Ending UploadError Unit}
    (h : Uploads d guest trace submission r ranges ending r' events)
    (hstore : r.store = some store) (ho : o.Holds r.objects) (hfresh : o.Fresh events) :
    o.Leads events r'.objects := by
  have hbarrier := leads_barriers ho hstore .transferDestination
  have hstaged : ∀ {r' : Replica} {p q : Staging.Pool} {ending : Ending UploadError (Option StagingError)}
      {staged : List Event}, r.pool = some p → r'.pool = some q → r'.store = r.store →
      (r.job guest trace submission).Stages d p ranges ending q staged →
      o.Fresh (r.barriers .transferDestination ++ staged) →
      o.Leads (r.barriers .transferDestination ++ staged) r'.objects := by
    intro r' p q ending staged hpool hpool' hstore' hstages hfresh
    have htarget : .buffer (r.job guest trace submission).target ∈ store.objects := by
      rw [job, buffer, hstore]
      exact List.mem_cons_self
    rw [objects_eq hpool' (hstore'.trans hstore)]
    refine ho.leads_append hfresh (fun _ => hbarrier) fun hafter hrest => ?_
    rw [objects_eq hpool hstore] at hafter
    exact hstages.leads hafter htarget hrest
  cases h with
  | idle _ => exact ho.leads_nil
  | refused _ _ => exact ho.leads_nil
  | shutDown _ _ => exact hbarrier
  | broken _ hpool hstages => exact hstaged hpool rfl rfl hstages hfresh
  | finished _ hpool hstages => exact hstaged hpool rfl rfl hstages hfresh
  | failed _ hpool hstages =>
    refine Leads.notice ?_ _
    exact hstaged hpool rfl rfl hstages (fresh_append.mp hfresh).1

theorem Ends.leads {ending : Ending StagingError Unit} (h : Ends r ending r' events)
    (hstore : r.store = some store) (ho : o.Holds r.objects) : o.Leads events r'.objects := by
  have hflushed : ∀ {p q : Staging.Pool} {ending : Ending StagingError Unit} {flushing : List Event},
      r.pool = some p → Staging.Pool.Flushes p ending q flushing →
      o.Leads flushing (r.putPool q).objects := by
    intro p q ending flushing hpool hflush
    rw [objects_eq hpool hstore] at ho
    have hobjects : (r.putPool q).objects = q.objects ++ store.objects := objects_eq rfl hstore
    rw [hobjects]
    exact hflush.leads ho
  cases h with
  | shutDown _ => exact ho.leads_nil
  | flushed hpool hflush => exact hflushed hpool hflush
  | failed hpool hflush => exact (hflushed hpool hflush).notice _
  | broken hpool hflush => exact hflushed hpool hflush

/-- Up to the shutdown, each step keeps the objects of the store and of the staging pages
live, whichever way it ends. -/
theorem Performs.leads (h : Performs d r use answer r' events) (huse : use ≠ .shutdown)
    (hstore : r.store = some store) (ho : o.Holds r.objects) (hfresh : o.Fresh events) :
    o.Leads events r'.objects := by
  cases h with
  | uploaded hupload => exact hupload.leads hstore ho hfresh
  | unstaged hupload => exact hupload.leads hstore ho hfresh
  | stopped hupload => exact hupload.leads hstore ho hfresh
  | declared _ => exact leads_barriers ho hstore _
  | refused _ => exact ho.leads_nil
  | completed completed =>
    have hobjects : { r with pool := r.pool.map (Staging.Pool.reclaim completed) }.objects =
        r.objects := by
      unfold objects
      cases r.pool <;> rfl
    rw [hobjects]
    exact ho.leads_nil
  | ended hends => exact hends.leads hstore ho
  | shutDown => exact absurd rfl huse

/-- A shutdown gives everything back. -/
theorem orderly_closing (hstore : r.store = some store) (hnull : store.buffer ≠ Handle.null)
    (ho : o.Holds r.objects) :
    o.Orderly r.closing ∧ (o.noteAll r.closing).live = [] := by
  have hdestroy : ∀ {o : Ledger}, o.Named → o.live.Perm store.objects →
      o.Orderly store.destroyed ∧ (o.noteAll store.destroyed).live = [] := by
    intro o hnamed hperm
    rw [← List.append_nil store.objects] at hperm
    obtain ⟨horderly, hnothing⟩ := Store.orderly_destroyed hnull hnamed hperm
    exact ⟨horderly, List.perm_nil.mp hnothing⟩
  have hobjects := ho.perm
  rw [objects, hstore] at hobjects
  rw [closing, hstore]
  cases hpool : r.pool with
  | none =>
    rw [hpool] at hobjects
    exact hdestroy ho.named hobjects
  | some p =>
    rw [hpool] at hobjects
    obtain ⟨hreleased, hrest⟩ := Staging.Pool.orderly_released ho.named hobjects
    have hnamed := ho.named.noteAll (Staging.Pool.fresh_released o p.pages)
    obtain ⟨hdestroyed, hnothing⟩ := hdestroy hnamed hrest
    rw [Option.elim_some, Option.elim_some, noteAll_append]
    exact ⟨orderly_append.mpr ⟨hreleased, hdestroyed⟩, hnothing⟩

/-! ## Creation -/

/-- A replica is created with its store, and nothing else is left; if it cannot be
created, nothing at all is. -/
theorem Creates.leads {path : SparsePath} {config : Config} {ending : Ending CreationError Replica}
    (h : Creates path config ending events) (ho : o.Holds []) (hfresh : o.Fresh events)
    (hreturns : ending.Returns) :
    (∀ e, ending = .failed e → o.Leads events []) ∧
      ∀ r, ending = .done r → o.Leads events r.objects ∧
        ∃ store, r.store = some store ∧ store.buffer ≠ Handle.null := by
  cases h with
  | tooLarge _ => exact absurd rfl (hreturns _)
  | @failed cause creating hstore =>
    have hfirst := (fresh_append.mp hfresh).1
    refine ⟨fun e _ => ?_, nofun⟩
    exact (hstore.leads ho hfirst (Ending.returns_failed cause)).1.notice _
  | broken _ => exact absurd rfl (hreturns _)
  | misconfigured _ => exact absurd rfl (hreturns _)
  | @created store _ _ _ hstore _ _ =>
    obtain ⟨hleads, hnull⟩ := hstore.leads ho hfresh (Ending.returns_done store)
    refine ⟨nofun, ?_⟩
    rintro r ⟨⟩
    refine ⟨?_, store, rfl, hnull store rfl⟩
    rw [Store.objectsOf, List.append_nil] at hleads
    exact hleads

/-! ## Runs -/

theorem leads_of_runs {steps : List ReplicaStep} (h : Runs (Use.action d) r s steps r' s')
    (hopen : ∀ step ∈ steps, step.use ≠ .shutdown) (hstore : r.store = some store)
    (ho : o.Holds r.objects) (hfresh : o.Fresh (eventsOf steps)) :
    o.Leads (eventsOf steps) r'.objects := by
  induction h generalizing o with
  | nil r s => exact ho.leads_nil
  | cons hstep _ ih =>
    have hperforms := performs_of_run hstep
    have huse := hopen _ List.mem_cons_self
    have hstore' := (hperforms.frame huse).store_eq.trans hstore
    have hopen' := fun step hmem => hopen step (List.mem_cons_of_mem _ hmem)
    exact ho.leads_append hfresh (hperforms.leads huse hstore ho) (ih hopen' hstore')

theorem callsOf_of_runs_closed {steps : List ReplicaStep}
    (h : Runs (Use.action d) r s steps r' s') (hr : r.Closed) : callsOf (eventsOf steps) = [] := by
  induction h with
  | nil r s => rfl
  | cons hstep _ ih =>
    have hperforms := (performs_of_run hstep).of_closed hr
    rw [eventsOf_cons, callsOf_append, hperforms.callsOf_eq, ih (hperforms.closed hr),
      List.append_nil]

/-- A run is cut at its first shutdown, if there is one. -/
theorem exists_first_shutdown (steps : List ReplicaStep) :
    (∀ step ∈ steps, step.use ≠ .shutdown) ∨
      ∃ opened closing later, steps = opened ++ closing :: later ∧
        (∀ step ∈ opened, step.use ≠ .shutdown) ∧ closing.use = .shutdown := by
  induction steps with
  | nil => exact .inl (by simp)
  | cons step rest ih =>
    by_cases huse : step.use = .shutdown
    · exact .inr ⟨[], step, rest, rfl, by simp, huse⟩
    · rcases ih with hrest | ⟨opened, closing, later, rfl, hopened, hclosing⟩
      · exact .inl (List.forall_mem_cons.mpr ⟨huse, hrest⟩)
      · exact .inr ⟨step :: opened, closing, later, rfl,
          List.forall_mem_cons.mpr ⟨huse, hopened⟩, hclosing⟩

/-- A run with a shutdown is in order, and leaves no live objects. -/
theorem orderly_of_runs_shutdown {opened later : List ReplicaStep} {closing : ReplicaStep}
    (hrun : Runs (Use.action d) r s (opened ++ closing :: later) r' s')
    (hopen : ∀ step ∈ opened, step.use ≠ .shutdown) (hclosing : closing.use = .shutdown)
    (hstore : r.store = some store) (hnull : store.buffer ≠ Handle.null) (ho : o.Holds r.objects)
    (hfresh : o.Fresh (eventsOf (opened ++ closing :: later))) :
    o.Orderly (eventsOf (opened ++ closing :: later)) ∧
      (o.noteAll (eventsOf (opened ++ closing :: later))).live = [] := by
  obtain ⟨r₀, s₀, hopened, hfrom⟩ := hrun.split
  obtain ⟨r₁, s₁, hclose, hlater⟩ := hfrom.uncons
  have hperforms := performs_of_run hclose
  rw [hclosing] at hperforms
  obtain ⟨rfl, hevents⟩ := hperforms.eq_closed
  rw [eventsOf_append, eventsOf_cons, hevents] at hfresh ⊢
  obtain ⟨hfirst, _⟩ := fresh_append.mp hfresh
  have hleads := leads_of_runs hopened hopen hstore ho hfirst
  have hstore₀ := (frame_of_runs hopened hopen).store_eq.trans hstore
  obtain ⟨horderly, hgone⟩ := orderly_closing hstore₀ hnull (ho.after hfirst hleads)
  obtain ⟨hidle, hstays⟩ := orderly_of_callsOf_eq_nil
    (callsOf_of_runs_closed hlater (closed_closed r₀))
  refine ⟨orderly_append.mpr ⟨hleads.orderly, orderly_append.mpr ⟨horderly, hidle⟩⟩, ?_⟩
  rw [noteAll_append, noteAll_append, hstays, hgone]

/-- What a replica does from its creation on, as far as objects of the device matter.
All calls are in order: nothing is named that is not live, so nothing is destroyed twice,
and memory is freed after its buffer.  Up to a shutdown, the buffers that were named by
commands so far are live at any moment.  After it, nothing is. -/
structure Balanced (created : List Event) (steps : List ReplicaStep) : Prop where
  orderly : empty.Orderly (created ++ eventsOf steps)
  live_of_command : ∀ {opened rest}, steps = opened ++ rest →
    (∀ step ∈ opened, step.use ≠ .shutdown) →
    ∀ {earlier later}, created ++ eventsOf opened = earlier ++ later →
    ∀ command ∈ commandsOf earlier, ∀ buffer ∈ command.buffers,
      .buffer buffer ∈ (empty.noteAll earlier).live
  live_eq_nil : (∃ step ∈ steps, step.use = .shutdown) →
    (empty.noteAll (created ++ eventsOf steps)).live = []

/-- Let a device name the objects that it creates afresh, and fail wherever it likes.
All that the creation of a replica does is in order.  If it fails, it leaves no live
objects; if it succeeds, all that follows in any run is balanced. -/
theorem balanced_of_runs {config : Config} {ending : Ending CreationError Replica} {s₀ : σ}
    {created : List Event} (hcreate : (create d config).run () s = ⟨ending, (), s₀, created⟩)
    (hreturns : ending.Returns) (hfresh : empty.Fresh created) :
    empty.Orderly created ∧ (∀ e, ending = .failed e → (empty.noteAll created).live = []) ∧
      ∀ r, ending = .done r → ∀ {steps r' s'}, Runs (Use.action d) r s₀ steps r' s' →
        (empty.noteAll created).Fresh (eventsOf steps) → Balanced created steps := by
  obtain ⟨hfailed, hdone⟩ := (creates_of_run hcreate).leads holds_empty hfresh hreturns
  refine ⟨?_, fun e he => List.perm_nil.mp (hfailed e he).perm, ?_⟩
  · cases ending with
    | done r => exact (hdone r rfl).1.orderly
    | failed e => exact (hfailed e rfl).orderly
    | broken v => exact absurd rfl (hreturns v)
  · rintro r rfl steps r' s' hrun hafter
    obtain ⟨hleads, store, hstore, hnull⟩ := hdone r rfl
    have ho := holds_empty.after hfresh hleads
    have hopened : ∀ {opened rest : List ReplicaStep}, steps = opened ++ rest →
        (∀ step ∈ opened, step.use ≠ .shutdown) →
        ∃ objects, (empty.noteAll created).Leads (eventsOf opened) objects := by
      rintro opened rest rfl hopen
      obtain ⟨r₁, s₁, hopened, _⟩ := hrun.split
      rw [eventsOf_append] at hafter
      exact ⟨_, leads_of_runs hopened hopen hstore ho (fresh_append.mp hafter).1⟩
    have hcommands : ∀ {opened rest : List ReplicaStep}, steps = opened ++ rest →
        (∀ step ∈ opened, step.use ≠ .shutdown) →
        ∀ {earlier later}, created ++ eventsOf opened = earlier ++ later →
        ∀ command ∈ commandsOf earlier, ∀ buffer ∈ command.buffers,
          .buffer buffer ∈ (empty.noteAll earlier).live := by
      intro opened rest hsteps hopen earlier later hcut command hcommand buffer hbuffer
      obtain ⟨_, hrest⟩ := hopened hsteps hopen
      have hall := hleads.trans hrest
      rw [hcut] at hall
      exact hall.live_of_command hcommand hbuffer
    rcases exists_first_shutdown steps with hopen | ⟨opened, closing, later, rfl, hopen, hclosing⟩
    · obtain ⟨_, hrest⟩ := hopened (List.append_nil steps).symm hopen
      refine ⟨(hleads.trans hrest).orderly, hcommands, ?_⟩
      rintro ⟨step, hstep, huse⟩
      exact absurd huse (hopen step hstep)
    · obtain ⟨horderly, hgone⟩ :=
        orderly_of_runs_shutdown hrun hopen hclosing hstore hnull ho hafter
      refine ⟨orderly_append.mpr ⟨hleads.orderly, horderly⟩, hcommands, fun _ => ?_⟩
      rw [noteAll_append, hgone]

/-- A replica uploads two pages and is shut down. -/
def uploadAndShutDown : List ReplicaStep × Replica × Simulated.State :=
  play (Use.action (Simulated.device .direct)) (bytewiseReplica 1) (createBytewise 1).device
    [.upload twoPages .off 1 [⟨0, 2⟩], .shutdown]

/-- After the upload there are three buffers with memory, two of which are copied from.
All of them are given back. -/
theorem balanced_of_runs_uploadAndShutDown :
    Balanced (createBytewise 1).events uploadAndShutDown.1 ∧
      (empty.noteAll ((createBytewise 1).events ++ eventsOf (uploadAndShutDown.1.take 1))).live =
        [.memory 6 5 true, .buffer 5, .memory 4 3 true, .buffer 3, .memory 2 1 false, .buffer 1] ∧
      (empty.noteAll ((createBytewise 1).events ++ eventsOf uploadAndShutDown.1)).live = [] := by
  have hcreated : (createBytewise 1).ending = .done (bytewiseReplica 1) := by decide +kernel
  have hfresh : empty.Fresh (createBytewise 1).events := by decide +kernel
  have hafter : (empty.noteAll (createBytewise 1).events).Fresh (eventsOf uploadAndShutDown.1) := by
    decide +kernel
  have hrun : Runs (Use.action (Simulated.device .direct)) (bytewiseReplica 1)
      (createBytewise 1).device uploadAndShutDown.1 uploadAndShutDown.2.1 uploadAndShutDown.2.2 :=
    runs_play _ _ _ _
  have hbalanced : Balanced (createBytewise 1).events uploadAndShutDown.1 :=
    (balanced_of_runs (createBytewise_run hcreated) (Ending.returns_done _) hfresh).2.2 _ rfl hrun
      hafter
  refine ⟨hbalanced, by decide +kernel, hbalanced.live_eq_nil ?_⟩
  exact ⟨_, List.mem_cons_of_mem _ List.mem_cons_self, rfl⟩

end GuestReplica.Replica
