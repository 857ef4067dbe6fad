import GuestReplica.Proofs.Replica.Contents
import GuestReplica.Proofs.Replica.Declarations

set_option autoImplicit false

/-!
# After a shutdown

A replica that was shut down has no buffer and no staging memory, and never calls the
device again.  It still remembers declared uses, and records the barriers between them:
these name the null handle.  An upload is stopped, but only after it has declared its use.
-/

namespace GuestReplica.Replica

variable {σ : Type} {d : Device σ} {r r' : Replica} {s s' : σ} {events : List Event}
variable {use : Use} {answer : Ending StagingError Unit}

/-- There is neither a buffer nor staging memory any more. -/
structure Closed (r : Replica) : Prop where
  store_eq : r.store = none
  pool_eq : r.pool = none

theorem closed_closed (r : Replica) : r.closed.Closed := ⟨rfl, rfl⟩

theorem Closed.buffer_eq (h : r.Closed) : r.buffer = Handle.null := by
  rw [buffer, h.store_eq]

theorem Closed.pool_ne_some (h : r.Closed) (p : Staging.Pool) : r.pool ≠ some p := by
  rw [h.pool_eq]
  exact nofun

theorem Closed.closing_eq (h : r.Closed) : r.closing = [] := by
  rw [closing, h.store_eq, h.pool_eq]
  rfl

/-! ## Steps -/

/-- The use is not refused for what it is: the ranges of an upload are in order, and a
read does not write. -/
def Use.Accepted (access : Access.Tracker) : Use → Prop
  | .upload _ _ _ ranges => ∃ first last, Accepts ranges first last
  | .declare mode written => access.Allows mode written
  | .complete _ | .endSubmission | .shutdown => True

/-- How a step of a closed replica can end. -/
inductive PerformsClosed (r : Replica) (use : Use) :
    Ending StagingError Unit → Replica → List Event → Prop where
  /-- the use is remembered; only then an upload is stopped -/
  | declared {mode : Access.Mode} {written : Span} {answer : Ending StagingError Unit}
      (hdeclared : use.declared? r.pageBits = some (mode, written))
      (haccepted : use.Accepted r.access)
      (hreturns : answer.Returns ↔ use = .declare mode written) :
      PerformsClosed r use answer (r.declared mode written) (r.barriers mode)
  | refused {v : Violation} (hdeclared : (use.declared? r.pageBits).isSome)
      (hrefused : ¬ use.Accepted r.access) : PerformsClosed r use (.broken v) r []
  | idle (huse : use ≠ .shutdown) (hnone : use.declared? r.pageBits = none) :
      PerformsClosed r use (.done ()) r []
  | shutDown (huse : use = .shutdown) : PerformsClosed r use (.done ()) r.closed []

theorem declared?_upload_isSome {guest : GuestMemory} {trace : ReadTrace} {submission : Nat}
    {ranges : List PageRange} (hranges : ranges ≠ []) (pageBits : Nat) :
    ((Use.upload guest trace submission ranges).declared? pageBits).isSome := by
  have hhead := List.head?_eq_some_head hranges
  have hlast := List.getLast?_eq_some_getLast hranges
  simp [Use.declared?, hhead, hlast]

/-- Nothing of an upload is staged when there is no pool. -/
theorem Uploads.of_closed {guest : GuestMemory} {trace : ReadTrace} {submission : Nat}
    {ranges : List PageRange} {ending : Ending UploadError Unit}
    (h : Uploads d guest trace submission r ranges ending r' events) (hr : r.Closed) :
    (ranges = [] ∧ ending = .done () ∧ r' = r ∧ events = []) ∨
      ∃ v, ending = .broken v ∧
        PerformsClosed r (.upload guest trace submission ranges) (.broken v) r' events := by
  cases h with
  | idle hnil => exact .inl ⟨hnil, rfl, rfl, rfl⟩
  | @refused v hranges hrefused =>
    exact .inr ⟨v, rfl, .refused (declared?_upload_isSome hranges _) hrefused⟩
  | @shutDown first last haccepts _ =>
    refine .inr ⟨_, rfl, .declared (haccepts.declared?_eq r) ⟨first, last, haccepts⟩ ?_⟩
    simp [Ending.Returns]
  | broken _ hpool _ => exact absurd hpool (hr.pool_ne_some _)
  | finished _ hpool _ => exact absurd hpool (hr.pool_ne_some _)
  | failed _ hpool _ => exact absurd hpool (hr.pool_ne_some _)

theorem Ends.of_closed {ending : Ending StagingError Unit} (h : Ends r ending r' events)
    (hr : r.Closed) : ending = .done () ∧ r' = r ∧ events = [] := by
  cases h with
  | shutDown _ => exact ⟨rfl, rfl, rfl⟩
  | flushed hpool _ => exact absurd hpool (hr.pool_ne_some _)
  | failed hpool _ => exact absurd hpool (hr.pool_ne_some _)
  | broken hpool _ => exact absurd hpool (hr.pool_ne_some _)

theorem Performs.of_closed (h : Performs d r use answer r' events) (hr : r.Closed) :
    PerformsClosed r use answer r' events := by
  cases h with
  | uploaded hupload =>
    rcases hupload.of_closed hr with ⟨rfl, _, rfl, rfl⟩ | ⟨v, hending, _⟩
    · exact .idle nofun rfl
    · cases hending
  | unstaged hupload =>
    rcases hupload.of_closed hr with ⟨_, hending, _⟩ | ⟨v, hending, _⟩
    · cases hending
    · cases hending
  | stopped hupload =>
    rcases hupload.of_closed hr with ⟨_, hending, _⟩ | ⟨v, hending, hperforms⟩
    · cases hending
    · cases hending
      exact hperforms
  | declared hallows =>
    exact .declared rfl hallows ⟨fun _ => rfl, fun _ => Ending.returns_done _⟩
  | refused hallows => exact .refused rfl hallows
  | completed completed =>
    have hsame : { r with pool := r.pool.map (Staging.Pool.reclaim completed) } = r := by
      rw [hr.pool_eq, Option.map_none, ← hr.pool_eq]
    rw [hsame]
    exact .idle nofun rfl
  | ended hends =>
    obtain ⟨rfl, rfl, rfl⟩ := hends.of_closed hr
    exact .idle nofun rfl
  | shutDown =>
    rw [hr.closing_eq]
    exact .shutDown rfl

namespace PerformsClosed

theorem closed (h : PerformsClosed r use answer r' events) (hr : r.Closed) : r'.Closed := by
  cases h with
  | declared _ _ _ => exact ⟨hr.store_eq, hr.pool_eq⟩
  | refused _ _ => exact hr
  | idle _ _ => exact hr
  | shutDown _ => exact closed_closed r

/-- The device is not called any more. -/
theorem callsOf_eq (h : PerformsClosed r use answer r' events) : callsOf events = [] := by
  cases h with
  | declared _ _ _ => exact filterMap_barriers (fun _ => rfl) r _
  | refused _ _ => rfl
  | idle _ _ => rfl
  | shutDown _ => rfl

/-- All that is recorded is barriers that name no buffer. -/
theorem null_of_command {command : Command} (h : PerformsClosed r use answer r' events)
    (hr : r.Closed) (hmem : command ∈ commandsOf events) :
    ∃ barrier, command = .barrier barrier ∧ barrier.buffer = Handle.null := by
  cases h with
  | declared _ _ _ =>
    unfold barriers at hmem
    split at hmem
    · cases hmem
    · obtain rfl := List.mem_singleton.mp hmem
      exact ⟨_, rfl, hr.buffer_eq⟩
  | refused _ _ => cases hmem
  | idle _ _ => cases hmem
  | shutDown _ => cases hmem

end PerformsClosed

/-- The barrier before a use is needed if the mode changes or something was written. -/
theorem commandsOf_barriers_eq_nil_iff {mode : Access.Mode} :
    commandsOf (r.barriers mode) = [] ↔ mode = r.access.mode ∧ r.access.pending.IsEmpty := by
  rw [← Access.Tracker.transition?_eq_none_iff, barriers]
  cases r.access.transition? mode <;> simp [commandsOf, Event.command?]

/-- What a step does when it finds no buffer.  A barrier on the null handle is recorded
exactly if the step declares a use, is not refused, and needs a barrier before this use.
Such a use is remembered, also if the step is stopped; uploads of any pages are. -/
structure FindsNoBuffer (r : Replica) (use : Use) (answer : Ending StagingError Unit)
    (r' : Replica) (events : List Event) : Prop where
  calls_eq : callsOf events = []
  null_of_command : ∀ command ∈ commandsOf events,
    ∃ barrier, command = .barrier barrier ∧ barrier.buffer = Handle.null
  commands_ne_nil_iff : commandsOf events ≠ [] ↔
    ∃ mode written, use.declared? r.pageBits = some (mode, written) ∧
      use.Accepted r.access ∧ (mode ≠ r.access.mode ∨ ¬ r.access.pending.IsEmpty)
  access_eq : ∀ {mode written}, use.declared? r.pageBits = some (mode, written) →
    use.Accepted r.access → r'.access = r.access.advance mode written
  access_eq_of_refused : ((use.declared? r.pageBits).isSome → ¬ use.Accepted r.access) →
    use ≠ .shutdown → r'.access = r.access
  broken_of_upload : ∀ {guest trace submission ranges},
    use = .upload guest trace submission ranges → ranges ≠ [] → ∃ v, answer = .broken v

namespace PerformsClosed

/-- What is remembered of a use that is declared and not refused. -/
theorem access_eq {mode : Access.Mode} {written : Span}
    (h : PerformsClosed r use answer r' events)
    (hdeclared : use.declared? r.pageBits = some (mode, written))
    (haccepted : use.Accepted r.access) : r'.access = r.access.advance mode written := by
  cases h with
  | declared hdeclared' _ _ =>
    cases hdeclared'.symm.trans hdeclared
    rfl
  | refused _ hrefused => exact absurd haccepted hrefused
  | idle _ hnone => cases hnone.symm.trans hdeclared
  | shutDown huse =>
    cases huse
    cases hdeclared

/-- Nothing else is remembered. -/
theorem access_eq_of_refused (h : PerformsClosed r use answer r' events)
    (hrefused : (use.declared? r.pageBits).isSome → ¬ use.Accepted r.access)
    (huse : use ≠ .shutdown) : r'.access = r.access := by
  cases h with
  | declared hdeclared haccepted _ =>
    exact absurd haccepted (hrefused (Option.isSome_of_eq_some hdeclared))
  | refused _ _ => rfl
  | idle _ _ => rfl
  | shutDown hshut => exact absurd hshut huse

theorem commands_ne_nil_iff (h : PerformsClosed r use answer r' events) :
    commandsOf events ≠ [] ↔
      ∃ mode written, use.declared? r.pageBits = some (mode, written) ∧
        use.Accepted r.access ∧ (mode ≠ r.access.mode ∨ ¬ r.access.pending.IsEmpty) := by
  cases h with
  | @declared mode written _ hdeclared haccepted _ =>
    rw [ne_eq, commandsOf_barriers_eq_nil_iff, Decidable.not_and_iff_not_or_not]
    constructor
    · exact fun hneeded => ⟨mode, written, hdeclared, haccepted, hneeded⟩
    · rintro ⟨mode', written', hdeclared', _, hneeded⟩
      cases hdeclared.symm.trans hdeclared'
      exact hneeded
  | refused _ hrefused =>
    refine ⟨fun hne => absurd rfl hne, ?_⟩
    rintro ⟨_, _, _, haccepted, _⟩
    exact absurd haccepted hrefused
  | idle _ hnone =>
    refine ⟨fun hne => absurd rfl hne, ?_⟩
    rintro ⟨_, _, hdeclared, _⟩
    cases hnone.symm.trans hdeclared
  | shutDown huse =>
    refine ⟨fun hne => absurd rfl hne, ?_⟩
    rintro ⟨_, _, hdeclared, _⟩
    cases huse
    cases hdeclared

/-- An upload of any pages is stopped. -/
theorem broken_of_upload {guest : GuestMemory} {trace : ReadTrace} {submission : Nat}
    {ranges : List PageRange} (h : PerformsClosed r use answer r' events)
    (huse : use = .upload guest trace submission ranges) (hranges : ranges ≠ []) :
    ∃ v, answer = .broken v := by
  subst huse
  cases h with
  | @declared _ _ answer _ _ hreturns =>
    cases answer with
    | broken v => exact ⟨v, rfl⟩
    | done _ => cases hreturns.mp (Ending.returns_done _)
    | failed _ => cases hreturns.mp (Ending.returns_failed _)
  | @refused v _ _ => exact ⟨v, rfl⟩
  | idle _ hnone =>
    exact absurd hnone (Option.isSome_iff_ne_none.mp (declared?_upload_isSome hranges _))
  | shutDown huse => cases huse

theorem findsNoBuffer (h : PerformsClosed r use answer r' events) (hr : r.Closed) :
    FindsNoBuffer r use answer r' events where
  calls_eq := h.callsOf_eq
  null_of_command _ := h.null_of_command hr
  commands_ne_nil_iff := h.commands_ne_nil_iff
  access_eq := h.access_eq
  access_eq_of_refused := h.access_eq_of_refused
  broken_of_upload := h.broken_of_upload

end PerformsClosed

/-! ## Runs -/

theorem Performs.eq_closed (h : Performs d r .shutdown answer r' events) :
    r' = r.closed ∧ events = r.closing := by
  cases h with
  | shutDown => exact ⟨rfl, rfl⟩

theorem closed_of_runs {steps : List ReplicaStep} (h : Runs (Use.action d) r s steps r' s')
    (hr : r.Closed) : r'.Closed :=
  h.keeps (fun hstep hr => ((performs_of_run hstep).of_closed hr).closed hr) hr

/-- Let a run go on after a shutdown, in any way.  The device is not called any more, and
all that is recorded is barriers on the null handle: no other command, and none that
names a buffer which was destroyed.  Each further step does what a step does that finds
no buffer, and the first one starts as if nothing had used the buffer yet. -/
theorem findsNoBuffer_after_shutdown {before later : List ReplicaStep} {closing : ReplicaStep}
    (hrun : Runs (Use.action d) r s (before ++ closing :: later) r' s')
    (hclosing : closing.use = .shutdown) :
    callsOf (eventsOf later) = [] ∧
      (∀ command ∈ commandsOf (eventsOf later),
        ∃ barrier, command = .barrier barrier ∧ barrier.buffer = Handle.null) ∧
      ∀ {earlier step rest}, later = earlier ++ step :: rest →
        ∃ r₁ s₁ r₂ s₂, Runs (Use.action d) r s (before ++ closing :: earlier) r₁ s₁ ∧
          (step.use.action d).run r₁ s₁ = ⟨step.answer, r₂, s₂, step.events⟩ ∧
          FindsNoBuffer r₁ step.use step.answer r₂ step.events ∧
          (earlier = [] → r₁.access = Access.Tracker.new r₁.access.size) := by
  have hsteps : ∀ {earlier step rest}, later = earlier ++ step :: rest →
      ∃ r₁ s₁ r₂ s₂, Runs (Use.action d) r s (before ++ closing :: earlier) r₁ s₁ ∧
        (step.use.action d).run r₁ s₁ = ⟨step.answer, r₂, s₂, step.events⟩ ∧
        FindsNoBuffer r₁ step.use step.answer r₂ step.events ∧
        (earlier = [] → r₁.access = Access.Tracker.new r₁.access.size) := by
    rintro earlier step rest rfl
    rw [← List.cons_append, ← List.append_assoc] at hrun
    obtain ⟨r₁, s₁, hearlier, hfrom⟩ := hrun.split
    obtain ⟨r₂, s₂, hstep, _⟩ := hfrom.uncons
    obtain ⟨r₀, s₀, hbefore, hclosed⟩ := hearlier.split
    obtain ⟨r₀', s₀', hclose, hafter⟩ := hclosed.uncons
    have hperforms := performs_of_run hclose
    rw [hclosing] at hperforms
    obtain ⟨rfl, _⟩ := hperforms.eq_closed
    have hr₁ : r₁.Closed := closed_of_runs hafter (closed_closed r₀)
    refine ⟨r₁, s₁, r₂, s₂, hearlier, hstep, ?_, ?_⟩
    · exact ((performs_of_run hstep).of_closed hr₁).findsNoBuffer hr₁
    · rintro rfl
      cases hafter with
      | nil _ _ => rfl
  have hevents : ∀ event ∈ eventsOf later, ∃ (r₁ r₂ : Replica) (step : ReplicaStep),
      event ∈ step.events ∧ FindsNoBuffer r₁ step.use step.answer r₂ step.events := by
    intro event hmem
    obtain ⟨step, hstep, hevent⟩ := List.mem_flatMap.mp hmem
    obtain ⟨earlier, rest, hlater⟩ := List.append_of_mem hstep
    obtain ⟨r₁, _, r₂, _, _, _, hfinds, _⟩ := hsteps hlater
    exact ⟨r₁, r₂, step, hevent, hfinds⟩
  refine ⟨?_, ?_, hsteps⟩
  · rw [callsOf, List.filterMap_eq_nil_iff]
    intro event hmem
    obtain ⟨_, _, step, hevent, hfinds⟩ := hevents event hmem
    exact List.filterMap_eq_nil_iff.mp hfinds.calls_eq event hevent
  · intro command hmem
    obtain ⟨event, hmem, hcommand⟩ := List.mem_filterMap.mp hmem
    obtain ⟨_, _, step, hevent, hfinds⟩ := hevents event hmem
    exact hfinds.null_of_command command (List.mem_filterMap.mpr ⟨event, hevent, hcommand⟩)

/-- A replica is shut down. -/
def shutsDown : Outcome Replica StagingError Simulated.State Unit :=
  useAfter ⟨.done (), bytewiseReplica 1, (createBytewise 1).device, []⟩ .shutdown

/-- After that, its buffer is declared to be read. -/
def readsClosed : Outcome Replica StagingError Simulated.State Unit :=
  useAfter shutsDown (.declare .read Span.empty)

/-- This records a barrier, and nothing tells the client that there is no buffer. -/
theorem findsNoBuffer_after_shutdown_read :
    ∃ barrier, commandsOf readsClosed.events = [.barrier barrier] ∧
      barrier.buffer = Handle.null ∧ readsClosed.ending = .done () := by
  let closing : ReplicaStep := ⟨.shutdown, shutsDown.ending, shutsDown.events⟩
  let reading : ReplicaStep :=
    ⟨.declare .read Span.empty, readsClosed.ending, readsClosed.events⟩
  have hrun : Runs (Use.action (Simulated.device .direct)) (bytewiseReplica 1)
      (createBytewise 1).device ([] ++ closing :: [reading]) readsClosed.subject
      readsClosed.device :=
    .cons (Outcome.eta shutsDown) (.cons (Outcome.eta readsClosed) (.nil _ _))
  obtain ⟨_, hnull, _⟩ := findsNoBuffer_after_shutdown hrun rfl
  have hevents : eventsOf [reading] = readsClosed.events := List.append_nil _
  have hcommands : commandsOf readsClosed.events =
      [.barrier (Barrier.ofTransition ⟨.transferDestination, .read, Span.all⟩ false 0)] := by
    decide +kernel
  rw [hevents, hcommands] at hnull
  obtain ⟨barrier, hbarrier, hbuffer⟩ := hnull _ List.mem_cons_self
  rw [hcommands, hbarrier]
  exact ⟨barrier, rfl, hbuffer, rfl⟩

end GuestReplica.Replica
