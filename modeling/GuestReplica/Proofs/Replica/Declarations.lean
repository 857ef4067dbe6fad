import GuestReplica.Device.Simulated
import GuestReplica.Proofs.Access
import GuestReplica.Proofs.Replica.Uploads

set_option autoImplicit false

/-!
# Declared uses and their barriers

Declarations and uploads declare a use of the buffer before anything else, so if they
record a barrier, it is their first command.  From one declared use to the next, the
replica remembers what the first one may have written.  The barrier of the next one
covers it, and waits for the mode that wrote it.
-/

namespace GuestReplica

/-- The barrier is for the whole buffer, or at least for the bytes of a span. -/
def Barrier.Includes (barrier : Barrier) (span : Span) : Prop :=
  barrier.offset = 0 ∧ barrier.size = Size.whole ∨
    barrier.offset ≤ span.start ∧ span.stop ≤ barrier.offset + barrier.size

instance (barrier : Barrier) (span : Span) : Decidable (barrier.Includes span) :=
  inferInstanceAs (Decidable (_ ∨ _))

/-- A barrier for a span is one for any part of it. -/
theorem Barrier.Includes.mono {barrier : Barrier} {span part : Span}
    (h : barrier.Includes span) (hstart : span.start ≤ part.start) (hstop : part.stop ≤ span.stop) :
    barrier.Includes part := by
  rcases h with hwhole | ⟨hbefore, hbehind⟩
  · exact .inl hwhole
  · exact .inr ⟨Nat.le_trans hbefore hstart, Nat.le_trans hstop hbehind⟩

namespace Replica

variable {σ : Type} {d : Device σ} {r r' : Replica} {s s' : σ} {events : List Event}
variable {use : Use} {answer : Ending StagingError Unit} {mode : Access.Mode} {written : Span}

/-- The mode and the bytes that are declared as written, if a use declares any.  An
upload declares all from its first page to its last. -/
def Use.declared? (pageBits : Nat) : Use → Option (Access.Mode × Span)
  | .upload _ _ _ ranges =>
    match ranges.head?, ranges.getLast? with
    | some first, some last =>
      some (.transferDestination, ⟨first.start <<< pageBits, last.stop <<< pageBits⟩)
    | _, _ => none
  | .declare mode written => some (mode, written)
  | .complete _ | .endSubmission | .shutdown => none

theorem Accepts.declared?_eq {guest : GuestMemory} {trace : ReadTrace} {submission : Nat}
    {ranges : List PageRange} {first last : PageRange} (h : Accepts ranges first last)
    (r : Replica) :
    (Use.upload guest trace submission ranges).declared? r.pageBits =
      some (.transferDestination, r.uploadSpan first last) := by
  simp [Use.declared?, uploadSpan, h.head_eq, h.last_eq]

/-! ## Steps -/

/-- An upload that returns was not asked for any pages, or it has declared its use. -/
theorem Uploads.declares {guest : GuestMemory} {trace : ReadTrace} {submission : Nat}
    {ranges : List PageRange} {ending : Ending UploadError Unit}
    (h : Uploads d guest trace submission r ranges ending r' events) (hreturns : ending.Returns)
    (hdeclared : (Use.upload guest trace submission ranges).declared? r.pageBits =
      some (mode, written)) :
    r'.access = r.access.advance mode written ∧ ∃ rest, events = r.barriers mode ++ rest := by
  rcases h.stages hreturns with ⟨rfl, _⟩ |
    ⟨first, last, _, _, failure, staged, haccepts, _, _, rfl, rfl, _⟩
  · cases hdeclared
  · rw [haccepts.declared?_eq r] at hdeclared
    cases hdeclared
    exact ⟨rfl, staged ++ complaint failure, List.append_assoc _ _ _⟩

/-- A step that is not stopped declares its use, and starts with the barrier for it. -/
theorem Performs.declares (h : Performs d r use answer r' events) (hreturns : answer.Returns)
    (hdeclared : use.declared? r.pageBits = some (mode, written)) :
    r'.access = r.access.advance mode written ∧ ∃ rest, events = r.barriers mode ++ rest := by
  cases h with
  | uploaded hupload => exact hupload.declares (Ending.returns_done _) hdeclared
  | unstaged hupload => exact hupload.declares (Ending.returns_failed _) hdeclared
  | stopped _ => exact absurd rfl (hreturns _)
  | declared _ =>
    cases hdeclared
    exact ⟨rfl, [], (List.append_nil _).symm⟩
  | refused _ => exact absurd rfl (hreturns _)
  | completed _ => cases hdeclared
  | ended _ => cases hdeclared
  | shutDown => cases hdeclared

/-- An upload that declares nothing has nothing to do. -/
theorem Uploads.idle_of_declared? {guest : GuestMemory} {trace : ReadTrace} {submission : Nat}
    {ranges : List PageRange} {ending : Ending UploadError Unit}
    (h : Uploads d guest trace submission r ranges ending r' events)
    (hnone : (Use.upload guest trace submission ranges).declared? r.pageBits = none) :
    r' = r ∧ events = [] := by
  have hrefused : ∀ {first last}, ¬ Accepts ranges first last := by
    intro first last haccepts
    rw [haccepts.declared?_eq r] at hnone
    cases hnone
  cases h with
  | idle _ => exact ⟨rfl, rfl⟩
  | refused _ _ => exact ⟨rfl, rfl⟩
  | shutDown haccepts _ => exact absurd haccepts hrefused
  | broken haccepts _ _ => exact absurd haccepts hrefused
  | finished haccepts _ _ => exact absurd haccepts hrefused
  | failed haccepts _ _ => exact absurd haccepts hrefused

/-- The end of a submission has nothing to do with the uses of the buffer. -/
theorem Ends.idle {ending : Ending StagingError Unit} (h : Ends r ending r' events) :
    r'.access = r.access ∧ commandsOf events = [] := by
  have hcalls : ∀ {ending : Ending StagingError Unit} {p q events},
      Staging.Pool.Flushes p ending q events → commandsOf events = [] := fun hflush =>
    filterMap_of_calls (fun _ => rfl) hflush.calls
  cases h with
  | shutDown _ => exact ⟨rfl, rfl⟩
  | flushed _ hflush => exact ⟨rfl, hcalls hflush⟩
  | failed _ hflush =>
    rw [commandsOf_append, hcalls hflush]
    exact ⟨rfl, rfl⟩
  | broken _ hflush => exact ⟨rfl, hcalls hflush⟩

/-- Until the shutdown, only declared uses are remembered and record commands. -/
theorem Performs.idle (h : Performs d r use answer r' events) (huse : use ≠ .shutdown)
    (hnone : use.declared? r.pageBits = none) :
    r'.access = r.access ∧ commandsOf events = [] := by
  have hupload : r' = r ∧ events = [] → r'.access = r.access ∧ commandsOf events = [] := by
    rintro ⟨rfl, rfl⟩
    exact ⟨rfl, rfl⟩
  cases h with
  | uploaded h => exact hupload (h.idle_of_declared? hnone)
  | unstaged h => exact hupload (h.idle_of_declared? hnone)
  | stopped h => exact hupload (h.idle_of_declared? hnone)
  | declared _ => cases hnone
  | refused _ => exact ⟨rfl, rfl⟩
  | completed _ => exact ⟨rfl, rfl⟩
  | ended hends => exact hends.idle
  | shutDown => exact absurd rfl huse

/-- A declared use starts with a barrier if the one before has written anything.  This
barrier waits for the mode of the use before and covers what was written. -/
theorem Performs.exists_barrier (h : Performs d r use answer r' events)
    (hreturns : answer.Returns) (hdeclared : (use.declared? r.pageBits).isSome)
    (hpending : ¬ r.access.pending.IsEmpty) :
    ∃ barrier rest, commandsOf events = .barrier barrier :: rest ∧ barrier.buffer = r.buffer ∧
      barrier.source = r.access.mode.scope r.tessellation ∧
      barrier.Includes r.access.pending := by
  obtain ⟨⟨mode, written⟩, hdeclared⟩ := Option.isSome_iff_exists.mp hdeclared
  obtain ⟨_, rest, rfl⟩ := h.declares hreturns hdeclared
  obtain ⟨transition, htransition, hsource, hspan⟩ :=
    Access.Tracker.transition?_of_pending hpending mode
  refine ⟨.ofTransition transition r.tessellation r.buffer, commandsOf rest, ?_, rfl, ?_, ?_⟩
  · simp [barriers, htransition, commandsOf, Event.command?]
  · rw [← hsource]
    rfl
  · rcases hspan with hall | hspan
    · refine .inl ⟨?_, ?_⟩ <;> simp [Barrier.ofTransition, hall, Span.all, Span.size]
    · refine .inr ⟨?_, ?_⟩
      · simp [Barrier.ofTransition, hspan]
      · simp only [Barrier.ofTransition, hspan, Span.size]
        omega

/-! ## Runs -/

theorem access_of_runs {steps : List ReplicaStep} (h : Runs (Use.action d) r s steps r' s')
    (hopen : ∀ step ∈ steps, step.use ≠ .shutdown)
    (hnone : ∀ step ∈ steps, step.use.declared? r.pageBits = none) : r'.access = r.access := by
  induction h with
  | nil r s => rfl
  | cons hstep _ ih =>
    have hperforms := performs_of_run hstep
    have huse := hopen _ List.mem_cons_self
    have hframe := hperforms.frame huse
    rw [← (hperforms.idle huse (hnone _ List.mem_cons_self)).1]
    apply ih fun step hmem => hopen step (List.mem_cons_of_mem _ hmem)
    intro step hmem
    rw [hframe.pageBits_eq]
    exact hnone step (List.mem_cons_of_mem _ hmem)

/-- What a step has written is covered by the first command of the next declared use,
whatever else is done in between. -/
theorem exists_next_barrier {before between after : List ReplicaStep} {first second : ReplicaStep}
    (hrun : Runs (Use.action d) r s (before ++ first :: between ++ second :: after) r' s')
    (hopen : ∀ step ∈ before ++ first :: between ++ second :: after, step.use ≠ .shutdown)
    (hreturns : second.answer.Returns)
    (hbetween : ∀ step ∈ between, step.use.declared? r.pageBits = none)
    (hsecond : (second.use.declared? r.pageBits).isSome) :
    ∃ r₁ r₂, SameFrame r r₁ ∧ (r.Valid → r₁.Valid) ∧
      Performs d r₁ first.use first.answer r₂ first.events ∧
      (¬ r₂.access.pending.IsEmpty →
        ∃ barrier rest, commandsOf second.events = .barrier barrier :: rest ∧
          barrier.buffer = r.buffer ∧ barrier.source = r₂.access.mode.scope r.tessellation ∧
          barrier.Includes r₂.access.pending) := by
  obtain ⟨r₃, s₃, hearlier, hfrom⟩ := hrun.split
  obtain ⟨r₁, s₁, hbefore, hmiddle⟩ := hearlier.split
  obtain ⟨r₂, s₂, hstep, hafter⟩ := hmiddle.uncons
  obtain ⟨r₄, s₄, hnext, _⟩ := hfrom.uncons
  have hopen₁ : ∀ step ∈ before, step.use ≠ .shutdown := fun step hmem =>
    hopen step (by simp [hmem])
  have hopen₂ : first.use ≠ .shutdown := hopen first (by simp)
  have hopen₃ : ∀ step ∈ between, step.use ≠ .shutdown := fun step hmem =>
    hopen step (by simp [hmem])
  have hframe₁ := frame_of_runs hbefore hopen₁
  have hframe₂ := hframe₁.trans ((performs_of_run hstep).frame hopen₂)
  have hframe₃ := hframe₂.trans (frame_of_runs hafter hopen₃)
  rw [← hframe₂.pageBits_eq] at hbetween
  have haccess := access_of_runs hafter hopen₃ hbetween
  refine ⟨r₁, r₂, hframe₁, valid_of_runs hbefore, performs_of_run hstep, fun hpending => ?_⟩
  rw [← haccess] at hpending ⊢
  rw [← hframe₃.pageBits_eq] at hsecond
  rw [← hframe₃.buffer_eq, ← hframe₃.tessellation_eq]
  exact (performs_of_run hnext).exists_barrier hreturns hsecond hpending

end Replica

end GuestReplica
