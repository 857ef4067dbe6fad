import GuestReplica.Proofs.Replica.Contents

set_option autoImplicit false

/-!
# Barriers on the buffer

A barrier that is recorded for one use was computed from what the use before declared.
Clients may declare any spans: reversed ones, and ones that reach behind the end of the
buffer.  What the tracker keeps of them ends in the buffer all the same, so a barrier is
for the whole buffer, or for some bytes that the buffer has.
-/

namespace GuestReplica

/-- The barrier is for the whole buffer, or for some bytes of a buffer of `size` bytes. -/
def Barrier.FitsIn (barrier : Barrier) (size : Nat) : Prop :=
  barrier.offset = 0 ∧ barrier.size = Size.whole ∨
    0 < barrier.size ∧ barrier.offset + barrier.size ≤ size

instance (barrier : Barrier) (size : Nat) : Decidable (barrier.FitsIn size) :=
  inferInstanceAs (Decidable (_ ∨ _))

/-- The barrier that is recorded, if the event records one. -/
def Event.barrier? : Event → Option Barrier
  | .command (.barrier barrier) => some barrier
  | _ => none

/-- The recorded barriers, in order. -/
def barriersOf (events : List Event) : List Barrier := events.filterMap Event.barrier?

@[simp] theorem barriersOf_nil : barriersOf [] = [] := rfl

@[simp] theorem barriersOf_append (a b : List Event) :
    barriersOf (a ++ b) = barriersOf a ++ barriersOf b :=
  List.filterMap_append

theorem barriersOf_of_calls {events : List Event}
    (h : ∀ event ∈ events, ∃ call, event = .call call) : barriersOf events = [] :=
  filterMap_of_calls (fun _ => rfl) h

/-! ## What a tracker keeps -/

namespace Access.Tracker

variable {t : Tracker} {mode : Mode} {written : Span} {transition : Transition}

/-- What is pending ends in the buffer. -/
def InBounds (t : Tracker) : Prop := t.pending.stop ≤ t.size

theorem inBounds_new (size : Nat) : (new size).InBounds := Nat.zero_le size

theorem inBounds_advance (t : Tracker) (mode : Mode) (written : Span) :
    (t.advance mode written).InBounds :=
  written.stop_clamp_le t.size

/-- Only a read is refused, and only if it writes a byte that the buffer has. -/
theorem not_allows_iff : ¬ t.Allows mode written ↔ mode = .read ∧ ∃ x ∈ written, x < t.size := by
  simp only [Allows, not_or, Bool.not_eq_true, Mode.isWrite_eq_false_iff, Span.isEmpty_iff,
    Span.mem_clamp, not_forall, not_not]

/-- A transition spans everything, or some bytes that are pending. -/
theorem InBounds.span_of_transition? (h : t.InBounds) (ht : t.transition? mode = some transition) :
    transition.span = Span.all ∨
      transition.span.start < transition.span.stop ∧ transition.span.stop ≤ t.size := by
  unfold transition? at ht
  split at ht
  · cases ht
    exact .inl rfl
  · split at ht
    · cases ht
    · next hpending =>
      cases ht
      exact .inr ⟨Nat.lt_of_not_le hpending, h⟩

/-- Nothing that a declaration computes is cut off at zero or at the end: the start of
what is written lies in the buffer, and no transition stops before it starts. -/
structure Exact (t : Tracker) (mode : Mode) (written : Span) : Prop where
  start_le_size : (written.clamp t.size).start ≤ t.size
  start_le_stop : ∀ transition ∈ t.transition? mode, transition.span.start ≤ transition.span.stop

theorem InBounds.exact (h : t.InBounds) (mode : Mode) (written : Span) : t.Exact mode written := by
  refine ⟨Nat.min_le_right _ _, fun transition ht => ?_⟩
  rcases h.span_of_transition? ht with hall | ⟨hlt, _⟩
  · rw [hall]
    exact Nat.zero_le _
  · exact Nat.le_of_lt hlt

/-- So the barrier of a transition fits in the buffer. -/
theorem InBounds.fitsIn (h : t.InBounds) (ht : t.transition? mode = some transition)
    (tessellation : Bool) (buffer : Handle) :
    (Barrier.ofTransition transition tessellation buffer).FitsIn t.size := by
  rcases h.span_of_transition? ht with hall | ⟨hlt, hle⟩
  · refine .inl ⟨?_, ?_⟩ <;> simp [Barrier.ofTransition, hall, Span.all, Span.size]
  · refine .inr ?_
    simp only [Barrier.ofTransition, Span.size]
    omega

end Access.Tracker

/-! ## Uploads stage without barriers -/

namespace Upload

open Staging (Allocation Pool)

variable {ε σ : Type} {d : Device σ} {u : Upload} {p q : Pool} {batch : Batch}
variable {events : List Event}

theorem barriersOf_commands (batch : Batch) (target : Handle) :
    barriersOf (batch.commands target) = [] := by
  unfold Batch.commands
  split <;> rfl

theorem barriersOf_announce (u : Upload) (range : PageRange) : barriersOf (u.announce range) = [] :=
  filterMap_announce (fun _ _ => rfl) (fun _ => rfl) u range

theorem StagesPiece.barriersOf_eq {address : Nat} {piece : Allocation} {ending : Ending ε Batch}
    (h : StagesPiece u batch address piece ending events) : barriersOf events = [] := by
  cases h with
  | outside _ => rfl
  | filled _ hpush =>
    cases hpush with
    | joined _ => rfl
    | sourceless _ _ => rfl
    | started _ _ => exact barriersOf_commands batch u.target

theorem StagesPages.barriersOf_eq {start remaining : Nat}
    {ending : Ending ε (Batch × Option StagingError)}
    (h : StagesPages d u p batch start remaining ending q events) : barriersOf events = [] := by
  induction h with
  | finished p batch start => rfl
  | failed _ hrequest => exact barriersOf_of_calls hrequest.calls
  | stopped _ hrequest => exact barriersOf_of_calls hrequest.calls
  | broken _ hrequest hpiece => simp [barriersOf_of_calls hrequest.calls, hpiece.barriersOf_eq]
  | uneven _ hrequest hpiece _ => simp [barriersOf_of_calls hrequest.calls, hpiece.barriersOf_eq]
  | piece _ hrequest hpiece _ _ ih =>
    simp [barriersOf_of_calls hrequest.calls, hpiece.barriersOf_eq, ih]

theorem StagesRanges.barriersOf_eq {ranges : List PageRange}
    {ending : Ending ε (Batch × Option StagingError)}
    (h : StagesRanges d u p batch ranges ending q events) : barriersOf events = [] := by
  induction h with
  | finished p batch => rfl
  | failed hpages => simp [barriersOf_announce, hpages.barriersOf_eq]
  | broken hpages => simp [barriersOf_announce, hpages.barriersOf_eq]
  | range hpages _ ih => simp [barriersOf_announce, hpages.barriersOf_eq, ih]

theorem Stages.barriersOf_eq {ranges : List PageRange} {ending : Ending ε (Option StagingError)}
    (h : Stages d u p ranges ending q events) : barriersOf events = [] := by
  cases h with
  | broken hranges => exact hranges.barriersOf_eq
  | sourceless hranges _ => exact hranges.barriersOf_eq
  | staged hranges _ => simp [hranges.barriersOf_eq, barriersOf_commands]

end Upload

namespace Replica

variable {σ : Type} {d : Device σ} {r r' : Replica} {s s' : σ} {events : List Event}
variable {use : Use} {answer : Ending StagingError Unit} {steps : List ReplicaStep}

/-! ## Steps -/

/-- Barriers that a replica may record now: each comes from a transition of its tracker, and
is for its buffer. -/
def Records (r : Replica) (barriers : List Barrier) : Prop :=
  ∀ barrier ∈ barriers, ∃ mode transition, r.access.transition? mode = some transition ∧
    barrier = .ofTransition transition r.tessellation r.buffer

theorem records_nil (r : Replica) : r.Records [] := by
  intro barrier hmem
  cases hmem

theorem records_barriers (r : Replica) (mode : Access.Mode) :
    r.Records (barriersOf (r.barriers mode)) := by
  intro barrier hmem
  unfold barriers at hmem
  cases htransition : r.access.transition? mode with
  | none =>
    rw [htransition] at hmem
    cases hmem
  | some transition =>
    rw [htransition] at hmem
    exact ⟨mode, transition, htransition, List.mem_singleton.mp hmem⟩

/-- The barriers of an upload are those that it declares. -/
theorem Uploads.records {guest : GuestMemory} {trace : ReadTrace} {submission : Nat}
    {ranges : List PageRange} {ending : Ending UploadError Unit}
    (h : Uploads d guest trace submission r ranges ending r' events) :
    r.Records (barriersOf events) := by
  have hdeclared : ∀ {staged : List Event}, barriersOf staged = [] →
      r.Records (barriersOf (r.barriers .transferDestination ++ staged)) := by
    intro staged hstaged
    rw [barriersOf_append, hstaged, List.append_nil]
    exact r.records_barriers _
  cases h with
  | idle _ => exact r.records_nil
  | refused _ _ => exact r.records_nil
  | shutDown _ _ => exact r.records_barriers _
  | broken _ _ hstages => exact hdeclared hstages.barriersOf_eq
  | finished _ _ hstages => exact hdeclared hstages.barriersOf_eq
  | failed _ _ hstages =>
    rw [List.append_assoc]
    refine hdeclared ?_
    rw [barriersOf_append, hstages.barriersOf_eq]
    rfl

theorem Ends.barriersOf_eq {ending : Ending StagingError Unit} (h : Ends r ending r' events) :
    barriersOf events = [] := by
  cases h with
  | shutDown _ => rfl
  | flushed _ hflush => exact barriersOf_of_calls hflush.calls
  | failed _ hflush =>
    rw [barriersOf_append, barriersOf_of_calls hflush.calls]
    rfl
  | broken _ hflush => exact barriersOf_of_calls hflush.calls

theorem Performs.records (h : Performs d r use answer r' events) (huse : use ≠ .shutdown) :
    r.Records (barriersOf events) := by
  cases h with
  | uploaded hupload => exact hupload.records
  | unstaged hupload => exact hupload.records
  | stopped hupload => exact hupload.records
  | declared _ => exact r.records_barriers _
  | refused _ => exact r.records_nil
  | completed _ => exact r.records_nil
  | ended hends =>
    rw [hends.barriersOf_eq]
    exact r.records_nil
  | shutDown => exact absurd rfl huse

theorem Uploads.inBounds {guest : GuestMemory} {trace : ReadTrace} {submission : Nat}
    {ranges : List PageRange} {ending : Ending UploadError Unit}
    (h : Uploads d guest trace submission r ranges ending r' events) (hr : r.access.InBounds) :
    r'.access.InBounds := by
  cases h with
  | idle _ => exact hr
  | refused _ _ => exact hr
  | _ => exact r.access.inBounds_advance _ _

theorem Ends.access_eq {ending : Ending StagingError Unit} (h : Ends r ending r' events) :
    r'.access = r.access := by
  cases h <;> rfl

theorem Performs.inBounds (h : Performs d r use answer r' events) (hr : r.access.InBounds) :
    r'.access.InBounds := by
  cases h with
  | uploaded hupload => exact hupload.inBounds hr
  | unstaged hupload => exact hupload.inBounds hr
  | stopped hupload => exact hupload.inBounds hr
  | declared _ => exact r.access.inBounds_advance _ _
  | refused _ => exact hr
  | completed _ => exact hr
  | ended hends =>
    rw [hends.access_eq]
    exact hr
  | shutDown => exact Access.Tracker.inBounds_new _

/-! ## Runs -/

theorem inBounds_of_runs (h : Runs (Use.action d) r s steps r' s') (hr : r.access.InBounds) :
    r'.access.InBounds := by
  induction h with
  | nil r s => exact hr
  | cons hstep _ ih => exact ih ((performs_of_run hstep).inBounds hr)

/-- Where what is pending ends in the buffer, all barriers are for the buffer and fit. -/
theorem barriers_of_runs (h : Runs (Use.action d) r s steps r' s') (hr : r.access.InBounds)
    (hopen : ∀ step ∈ steps, step.use ≠ .shutdown) :
    ∀ barrier ∈ barriersOf (eventsOf steps),
      barrier.buffer = r.buffer ∧ barrier.FitsIn r.access.size := by
  induction h with
  | nil r s =>
    intro barrier hmem
    cases hmem
  | cons hstep _ ih =>
    have hperforms := performs_of_run hstep
    have huse := hopen _ List.mem_cons_self
    have hframe := hperforms.frame huse
    intro barrier hmem
    rw [eventsOf_cons, barriersOf_append, List.mem_append] at hmem
    rcases hmem with hnow | hlater
    · obtain ⟨mode, transition, htransition, rfl⟩ := hperforms.records huse barrier hnow
      exact ⟨rfl, hr.fitsIn htransition _ _⟩
    · rw [← hframe.buffer_eq, ← hframe.size_eq]
      exact ih (hperforms.inBounds hr) (fun step hin => hopen step (List.mem_cons_of_mem _ hin))
        barrier hlater

/-- Let a replica be used in any way, whatever spans are declared, but not be shut down.
Then all barriers that it has recorded are for the buffer of its store, and each is for the
whole buffer or for some of its bytes.  A further declaration computes exactly; it is stopped
just if a read writes a byte that the buffer has, and then it leaves everything as it was. -/
theorem recorded_barriers_fit {config : Config} {r₀ : Replica} {s₁ s₀ : σ} {created : List Event}
    (hcreate : (create d config).run () s₁ = ⟨.done r₀, (), s₀, created⟩)
    (hrun : Runs (Use.action d) r₀ s₀ steps r s) (hopen : ∀ step ∈ steps, step.use ≠ .shutdown) :
    (∃ store, r.store = some store ∧ ∀ barrier ∈ barriersOf (eventsOf steps),
      barrier.buffer = store.buffer ∧ barrier.FitsIn size) ∧
    ∀ mode written, r.access.Exact mode written ∧
      ∀ {answer r' s' events}, (declare mode written).run r s = ⟨answer, r', s', events⟩ →
        ((∃ v, (answer : Ending StagingError Unit) = .broken v) ↔
          mode = .read ∧ ∃ x ∈ written, x < size) ∧
        ∀ v, answer = .broken v → r' = r ∧ s' = s ∧ events = [] := by
  have hsize := (valid_of_runs hrun (valid_of_create hcreate)).size_eq
  obtain ⟨store, staging, _, _, _, rfl, _⟩ := create_done hcreate
  have hstart : (initial config store staging).access.InBounds := Access.Tracker.inBounds_new size
  have hframe := frame_of_runs hrun hopen
  refine ⟨⟨store, hframe.store_eq, barriers_of_runs hrun hstart hopen⟩, fun mode written => ?_⟩
  refine ⟨(inBounds_of_runs hrun hstart).exact mode written, fun hdeclare => ?_⟩
  rw [declare_run] at hdeclare
  rw [← hsize, ← Access.Tracker.not_allows_iff (t := r.access)]
  split at hdeclare
  · next hallows =>
    cases hdeclare
    refine ⟨⟨?_, fun hrefused => absurd hallows hrefused⟩, ?_⟩
    · rintro ⟨v, ⟨⟩⟩
    · rintro v ⟨⟩
  · next hrefused =>
    cases hdeclare
    exact ⟨⟨fun _ => hrefused, fun _ => ⟨_, rfl⟩⟩, fun v _ => ⟨rfl, rfl, rfl⟩⟩

/-- A compute shader writes past the end of the buffer. -/
def writesPastEnd : Outcome Replica StagingError Simulated.State Unit :=
  useAfter ⟨.done (), bytewiseReplica 1, (createBytewise 1).device, []⟩
    (.declare .computeWrite ⟨size - 16, Size.whole⟩)

/-- Then a reversed span is declared, which starts behind the end. -/
def writesReversed : Outcome Replica StagingError Simulated.State Unit :=
  useAfter writesPastEnd (.declare .computeWrite ⟨Size.whole, 8⟩)

/-- The barrier between them is for the last bytes of the buffer, and a read of these bytes
that writes them is refused. -/
theorem recorded_barriers_fit_past_end :
    barriersOf writesReversed.events =
        [.ofTransition ⟨.computeWrite, .computeWrite, ⟨size - 16, size⟩⟩ false 1] ∧
      (∀ barrier ∈ barriersOf writesReversed.events, barrier.buffer = 1 ∧ barrier.FitsIn size) ∧
      (useAfter writesReversed (.declare .read ⟨size - 16, Size.whole⟩)).events = [] := by
  let steps : List ReplicaStep :=
    [⟨.declare .computeWrite ⟨size - 16, Size.whole⟩, writesPastEnd.ending, writesPastEnd.events⟩,
      ⟨.declare .computeWrite ⟨Size.whole, 8⟩, writesReversed.ending, writesReversed.events⟩]
  have hcreated : (createBytewise 1).ending = .done (bytewiseReplica 1) := by decide +kernel
  have hrun : Runs (Use.action (Simulated.device .direct)) (bytewiseReplica 1)
      (createBytewise 1).device steps writesReversed.subject writesReversed.device :=
    .cons (Outcome.eta writesPastEnd) (.cons (Outcome.eta writesReversed) (.nil _ _))
  have hstore : writesReversed.subject.store = some ⟨1, size, [2], 0, .plain⟩ := by decide +kernel
  obtain ⟨⟨store, hbuffer, hfit⟩, hdeclares⟩ :=
    recorded_barriers_fit (createBytewise_run hcreated) hrun (by simp [steps])
  obtain rfl := Option.some.inj (hbuffer.symm.trans hstore)
  obtain ⟨_, hdeclare⟩ := hdeclares .read ⟨size - 16, Size.whole⟩
  obtain ⟨hbroken, hunchanged⟩ :=
    hdeclare (Outcome.eta (useAfter writesReversed (.declare .read ⟨size - 16, Size.whole⟩)))
  have hwrites : (size - 16) ∈ (⟨size - 16, Size.whole⟩ : Span) := by decide
  obtain ⟨v, hv⟩ := hbroken.mpr ⟨rfl, size - 16, hwrites, by decide⟩
  refine ⟨by decide +kernel, fun barrier hmem => hfit barrier ?_, (hunchanged v hv).2.2⟩
  simp only [steps, eventsOf_cons, barriersOf_append, List.mem_append]
  exact .inr (.inl hmem)

end Replica

end GuestReplica
