import GuestReplica.Proofs.Replica.Contents
import GuestReplica.Proofs.Replica.Declarations
import GuestReplica.Proofs.Replica.Destinations

set_option autoImplicit false

/-!
# Written bytes become available

What a declared use has written is available to whatever comes after the next
declared use, because that one starts with a barrier for the written bytes.  The
barrier waits for the stages that wrote them, and for the access by which they did so
unless that was a compute write.  In particular, what an upload has copied is
committed before anything is recorded for another use, and before it is copied again.
-/

namespace GuestReplica.Replica

variable {σ : Type} {d : Device σ} {r r' : Replica} {s s' : σ} {events : List Event}
variable {use : Use} {answer : Ending StagingError Unit}
variable {steps before between after : List ReplicaStep} {first second : ReplicaStep}

/-! ## Writes of any mode -/

/-- Let a step write some bytes of the buffer, in any mode, and let other steps follow,
up to the next one that declares a use.  The first command of that step is a barrier
on the buffer.  It covers the bytes that were written, and its source has the stages
that wrote them.  It has the access by which they were written unless this was a
compute write. -/
theorem written_made_available {config : Config} {s₀ : σ} {created : List Event}
    {mode : Access.Mode} {written : Span}
    (hcreate : (create d config).run () s = ⟨.done r, (), s₀, created⟩)
    (hrun : Runs (Use.action d) r s₀ (before ++ first :: between ++ second :: after) r' s')
    (hopen : ∀ step ∈ before ++ first :: between ++ second :: after, step.use ≠ .shutdown)
    (hreturns : ∀ step ∈ before ++ first :: between ++ second :: after, step.answer.Returns)
    (hfirst : first.use.declared? r.pageBits = some (mode, written))
    (hwritten : ¬ (written.clamp size).IsEmpty)
    (hbetween : ∀ step ∈ between, step.use.declared? r.pageBits = none)
    (hsecond : (second.use.declared? r.pageBits).isSome) :
    ∃ barrier rest, commandsOf second.events = .barrier barrier :: rest ∧
      barrier.buffer = r.buffer ∧ barrier.Includes (written.clamp size) ∧
      barrier.source.stages.Covers (mode.writeScope r.tessellation).stages ∧
      (barrier.source.access.Covers (mode.writeScope r.tessellation).access ↔
        mode ≠ .computeWrite) := by
  obtain ⟨r₁, r₂, hframe, hvalid, hperforms, hbarrier⟩ := exists_next_barrier hrun hopen
    (hreturns second (by simp)) hbetween hsecond
  rw [← hframe.pageBits_eq] at hfirst
  obtain ⟨haccess, _⟩ := hperforms.declares (hreturns first (by simp)) hfirst
  have hmode : r₂.access.mode = mode := by
    rw [haccess, Access.Tracker.advance_mode]
  have hpending : r₂.access.pending = written.clamp size := by
    rw [haccess, Access.Tracker.advance_pending, (hvalid (valid_of_create hcreate)).size_eq]
  rw [hmode, hpending] at hbarrier
  obtain ⟨barrier, rest, hcommands, hbuffer, hsource, hincludes⟩ := hbarrier hwritten
  refine ⟨barrier, rest, hcommands, hbuffer, hincludes, ?_, ?_⟩
  · rw [hsource]
    exact mode.stages_scope_covers r.tessellation
  · rw [hsource]
    exact mode.access_scope_covers_iff r.tessellation

/-- A compute shader writes some bytes. -/
def computeWrites : Outcome Replica StagingError Simulated.State Unit :=
  useAfter ⟨.done (), bytewiseReplica 1, (createBytewise 1).device, []⟩
    (.declare .computeWrite ⟨0, 16⟩)

/-- They are read. -/
def readsComputed : Outcome Replica StagingError Simulated.State Unit :=
  useAfter computeWrites (.declare .read Span.empty)

/-- The barrier before the read covers what was computed, but does not wait for shaders
to have written it. -/
theorem unavailable_to_read :
    ∃ barrier rest, commandsOf readsComputed.events = .barrier barrier :: rest ∧
      barrier.Includes ⟨0, 16⟩ ∧ ¬ barrier.source.access.Covers MemoryAccess.shaderWrite := by
  let first : ReplicaStep :=
    ⟨.declare .computeWrite ⟨0, 16⟩, computeWrites.ending, computeWrites.events⟩
  let second : ReplicaStep :=
    ⟨.declare .read Span.empty, readsComputed.ending, readsComputed.events⟩
  have hcreated : (createBytewise 1).ending = .done (bytewiseReplica 1) := by decide +kernel
  have hrun : Runs (Use.action (Simulated.device .direct)) (bytewiseReplica 1)
      (createBytewise 1).device ([] ++ first :: [] ++ second :: []) readsComputed.subject
      readsComputed.device :=
    .cons (Outcome.eta computeWrites) (.cons (Outcome.eta readsComputed) (.nil _ _))
  have hreturns : ∀ step ∈ [] ++ first :: [] ++ second :: [], step.answer.Returns := by
    have hwrites : computeWrites.ending = .done () := by decide +kernel
    have hreads : readsComputed.ending = .done () := by decide +kernel
    simp [first, second, hwrites, hreads, Ending.Returns]
  obtain ⟨barrier, rest, hcommands, _, hincludes, _, haccess⟩ :=
    written_made_available (createBytewise_run hcreated) hrun (by simp [first, second]) hreturns
      rfl (by decide) (by simp) rfl
  exact ⟨barrier, rest, hcommands, hincludes, fun hcovers => haccess.mp hcovers rfl⟩

/-! ## Copies of uploads -/

/-- A barrier on a buffer that waits for the copies into it, as far as they write what
a region does. -/
structure Commits (buffer : Handle) (barrier : Barrier) (region : CopyRegion) : Prop where
  buffer_eq : barrier.buffer = buffer
  source_eq : barrier.source = ⟨Stage.transfer, MemoryAccess.transferWrite⟩
  includes : barrier.Includes ⟨region.targetOffset, region.targetOffset + region.size⟩

/-- What an upload copies into the buffer is pending after it. -/
theorem Uploads.region_pending {guest : GuestMemory} {trace : ReadTrace} {submission : Nat}
    {ranges : List PageRange} {ending : Ending UploadError Unit} {region : CopyRegion}
    (h : Uploads d guest trace submission r ranges ending r' events) (hr : r.Valid)
    (hreturns : ending.Returns)
    (hfits : ∀ last ∈ ranges.getLast?, last.stop <<< r.pageBits ≤ size)
    (hregion : region ∈ regionsOf events) :
    r'.access.mode = .transferDestination ∧ 0 < region.size ∧
      r'.access.pending.start ≤ region.targetOffset ∧
      region.targetOffset + region.size ≤ r'.access.pending.stop := by
  have hranges : ranges ≠ [] := by
    rintro rfl
    obtain ⟨_, rfl⟩ := h.idle_of_declared? rfl
    cases hregion
  obtain ⟨first, last, pieces, _, left, haccepts, haccess, huploaded, _⟩ :=
    h.uploaded hr hranges hreturns
  have hpending : r'.access.pending = (r.uploadSpan first last).clamp size := by
    rw [haccess, Access.Tracker.advance_pending, hr.size_eq]
  have htarget : (region.targetOffset, region.size) ∈ targetsOf events :=
    List.mem_map_of_mem hregion
  rw [huploaded.targetsOf_toAddress] at htarget
  obtain ⟨piece, hpiece, heq⟩ := List.mem_map.mp htarget
  obtain ⟨span, hspan, _, hstop⟩ := huploaded.cuts.piece_subset hpiece
  obtain ⟨range, hrange, rfl⟩ := List.mem_map.mp hspan
  have hin := stop_le_size haccepts.sorted haccepts.last_eq (hfits last haccepts.last_eq) hrange
  have hexpects : r'.Expects (toAddress piece.1, piece.2) := by
    apply (huploaded.expects_iff haccepts hpending hpiece).mpr
    intro x _ hx
    exact .inl (Nat.lt_of_lt_of_le hx (Nat.le_trans hstop hin))
  have hpos := huploaded.cuts.size_pos hpiece
  rw [heq] at hexpects
  obtain ⟨_, hsize⟩ := Prod.mk.inj heq
  rw [hsize] at hpos
  refine ⟨?_, hpos, hexpects.2⟩
  rw [haccess, Access.Tracker.advance_mode]

/-- Only uploads copy, so only what they copy can be pending. -/
theorem Performs.region_pending {region : CopyRegion} (h : Performs d r use answer r' events)
    (hr : r.Valid) (huse : use ≠ .shutdown) (hreturns : answer.Returns)
    (hfits : use.Fits r.pageBits) (hregion : region ∈ regionsOf events) :
    r'.access.mode = .transferDestination ∧ 0 < region.size ∧
      r'.access.pending.start ≤ region.targetOffset ∧
      region.targetOffset + region.size ≤ r'.access.pending.stop := by
  have hnothing : ∀ {events}, sourcedOf events = [] → region ∉ regionsOf events := by
    intro events hsourced
    simp [regionsOf, hsourced]
  cases h with
  | uploaded hupload => exact hupload.region_pending hr (Ending.returns_done _) hfits hregion
  | unstaged hupload => exact hupload.region_pending hr (Ending.returns_failed _) hfits hregion
  | stopped _ => exact absurd rfl (hreturns _)
  | @declared mode _ _ =>
    have hbarriers := staged_barriers (r.job default .off 0) r mode
    exact absurd hregion (hnothing hbarriers.2.1)
  | refused _ => exact absurd rfl (hreturns _)
  | completed _ => exact absurd hregion (hnothing rfl)
  | ended hends => exact absurd hregion (hnothing (by simp [sourcedOf, hends.idle.2]))
  | shutDown => exact absurd rfl huse

/-- The first step among some that declares a use, if there is one. -/
theorem exists_first_declared {pageBits : Nat}
    (hsome : ∃ step ∈ steps, (step.use.declared? pageBits).isSome) :
    ∃ before step after, steps = before ++ step :: after ∧
      (step.use.declared? pageBits).isSome ∧
      ∀ earlier ∈ before, earlier.use.declared? pageBits = none := by
  cases hfind : steps.find? fun step => (step.use.declared? pageBits).isSome with
  | none =>
    obtain ⟨step, hmem, hsome⟩ := hsome
    exact absurd hsome (List.find?_eq_none.mp hfind step hmem)
  | some step =>
    obtain ⟨hsome, before, after, hsteps, hearlier⟩ := List.find?_eq_some_iff_append.mp hfind
    refine ⟨before, step, after, hsteps, hsome, fun earlier hmem => ?_⟩
    simpa using hearlier earlier hmem

section

variable {earlier later earlier' later' : List Command} {region : CopyRegion}
variable {source target source' target' : Handle} {regions regions' : List CopyRegion}

/-- What a step copies is committed by the first command of the next declared use. -/
theorem committed_by_next_use (hr : r.Valid)
    (hrun : Runs (Use.action d) r s (before ++ first :: between ++ second :: after) r' s')
    (hopen : ∀ step ∈ before ++ first :: between ++ second :: after, step.use ≠ .shutdown)
    (hreturns : ∀ step ∈ before ++ first :: between ++ second :: after, step.answer.Returns)
    (hfits : first.use.Fits r.pageBits)
    (hbetween : ∀ step ∈ between, step.use.declared? r.pageBits = none)
    (hsecond : (second.use.declared? r.pageBits).isSome)
    (hregion : region ∈ regionsOf first.events) :
    ∃ barrier rest, commandsOf second.events = .barrier barrier :: rest ∧
      Commits r.buffer barrier region := by
  obtain ⟨r₁, r₂, hframe, hvalid, hperforms, hbarrier⟩ := exists_next_barrier hrun hopen
    (hreturns second (by simp)) hbetween hsecond
  rw [← hframe.pageBits_eq] at hfits
  obtain ⟨hmode, hpos, hstart, hstop⟩ := hperforms.region_pending (hvalid hr)
    (hopen first (by simp)) (hreturns first (by simp)) hfits hregion
  have hpending : ¬ r₂.access.pending.IsEmpty := by
    simp only [Span.IsEmpty]
    omega
  obtain ⟨barrier, rest, hcommands, hbuffer, hsource, hincludes⟩ := hbarrier hpending
  rw [hmode, Access.Mode.scope_transferDestination] at hsource
  exact ⟨barrier, rest, hcommands, hbuffer, hsource, hincludes.mono hstart hstop⟩

/-- What a step copies is committed before another step copies anything. -/
theorem committed_before_copy (hr : r.Valid)
    (hrun : Runs (Use.action d) r s (before ++ first :: between ++ second :: after) r' s')
    (hopen : ∀ step ∈ before ++ first :: between ++ second :: after, step.use ≠ .shutdown)
    (hreturns : ∀ step ∈ before ++ first :: between ++ second :: after, step.answer.Returns)
    (hfits : first.use.Fits r.pageBits) (hregion : region ∈ regionsOf first.events)
    (hsecond : commandsOf second.events = earlier' ++ .copy source' target' regions' :: later') :
    ∃ barrier, .barrier barrier ∈ commandsOf (eventsOf between) ++ earlier' ∧
      Commits r.buffer barrier region := by
  by_cases hsome : ∃ step ∈ between, (step.use.declared? r.pageBits).isSome
  · -- the first declared use in between commits the copies
    obtain ⟨idle, next, rest, rfl, hnext, hidle⟩ := exists_first_declared hsome
    have hsteps : before ++ first :: (idle ++ next :: rest) ++ second :: after =
        before ++ first :: idle ++ next :: (rest ++ second :: after) := by simp
    rw [hsteps] at hrun hopen hreturns
    obtain ⟨barrier, others, hcommands, hcommits⟩ := committed_by_next_use hr hrun hopen hreturns
      hfits hidle hnext hregion
    exact ⟨barrier, by simp [hcommands], hcommits⟩
  · have hbetween : ∀ step ∈ between, step.use.declared? r.pageBits = none := by
      intro step hmem
      exact Option.not_isSome_iff_eq_none.mp fun hdeclared => hsome ⟨step, hmem, hdeclared⟩
    have hmem : second ∈ before ++ first :: between ++ second :: after := by simp
    have hdeclared : (second.use.declared? r.pageBits).isSome := by
      obtain ⟨r₁, r₂, hframe, hperforms⟩ := performs_of_mem hrun hopen hmem
      by_contra hnone
      rw [Option.not_isSome_iff_eq_none, ← hframe.pageBits_eq] at hnone
      have hnothing := (hperforms.idle (hopen second hmem) hnone).2
      simp [hsecond] at hnothing
    obtain ⟨barrier, rest, hcommands, hcommits⟩ := committed_by_next_use hr hrun hopen hreturns
      hfits hbetween hdeclared hregion
    -- the barrier is the first command of that step, so it comes before the copy
    rw [hcommands] at hsecond
    cases earlier' with
    | nil => cases hsecond
    | cons head tail =>
      obtain ⟨rfl, _⟩ := List.cons.inj hsecond
      exact ⟨barrier, by simp, hcommits⟩

/-- Let a client use a replica from its creation on, without shutting it down, and let
all uploads end in the buffer and nothing stop a step; calls of the device may fail.
Whatever a step copies into the buffer is committed by the first command of the next
step that declares a use.  So in the stream of commands, the regions of a copy are
committed before the next copy of a later step, be it into the same bytes or not. -/
theorem copies_committed {config : Config} {s₀ : σ} {created : List Event}
    (hcreate : (create d config).run () s = ⟨.done r, (), s₀, created⟩)
    (hrun : Runs (Use.action d) r s₀ (before ++ first :: between ++ second :: after) r' s')
    (hopen : ∀ step ∈ before ++ first :: between ++ second :: after, step.use ≠ .shutdown)
    (hreturns : ∀ step ∈ before ++ first :: between ++ second :: after, step.answer.Returns)
    (hfits : ∀ step ∈ before ++ first :: between ++ second :: after, step.use.Fits r.pageBits) :
    ((∀ step ∈ between, step.use.declared? r.pageBits = none) →
        (second.use.declared? r.pageBits).isSome → ∀ region ∈ regionsOf first.events,
        ∃ barrier rest, commandsOf second.events = .barrier barrier :: rest ∧
          Commits r.buffer barrier region) ∧
      ∀ {earlier source target regions later earlier' source' target' regions' later'},
        commandsOf first.events = earlier ++ .copy source target regions :: later →
        commandsOf second.events = earlier' ++ .copy source' target' regions' :: later' →
        ∀ region ∈ regions, ∃ barrier,
          .barrier barrier ∈ later ++ commandsOf (eventsOf between) ++ earlier' ∧
            Commits r.buffer barrier region := by
  have hvalid := valid_of_create hcreate
  have hfirst := hfits first (by simp)
  constructor
  · intro hbetween hsecond region hregion
    exact committed_by_next_use hvalid hrun hopen hreturns hfirst hbetween hsecond hregion
  · intro earlier source target regions later earlier' source' target' regions' later' hcopies
      hcopies' region hregion
    have hmem : region ∈ regionsOf first.events := by
      simp [regionsOf, sourcedOf, hcopies, Command.sourced, hregion]
    obtain ⟨barrier, hbarrier, hcommits⟩ := committed_before_copy hvalid hrun hopen hreturns hfirst
      hmem hcopies'
    refine ⟨barrier, ?_, hcommits⟩
    rw [List.append_assoc]
    exact List.mem_append_right later hbarrier

/-- The first page that was uploaded is committed before it is uploaded again. -/
theorem copies_committed_rewritten :
    (⟨0, 0, 1⟩ : CopyRegion) ∈ regionsOf uploadBoth.events ∧
      (⟨0, 0, 1⟩ : CopyRegion) ∈ regionsOf uploadAgain.events ∧
      ∃ barrier rest, commandsOf uploadAgain.events = .barrier barrier :: rest ∧
        Commits 1 barrier ⟨0, 0, 1⟩ := by
  let first : ReplicaStep :=
    ⟨.upload twoPages .off 1 [⟨0, 2⟩], uploadBoth.ending, uploadBoth.events⟩
  let idle : ReplicaStep := ⟨.complete 1, bothCompleted.ending, bothCompleted.events⟩
  let second : ReplicaStep :=
    ⟨.upload changedPages .off 2 [⟨0, 1⟩], uploadAgain.ending, uploadAgain.events⟩
  have hcreated : (createBytewise 1).ending = .done (bytewiseReplica 1) := by decide +kernel
  have hrun : Runs (Use.action (Simulated.device .direct)) (bytewiseReplica 1)
      (createBytewise 1).device ([] ++ first :: [idle] ++ second :: []) uploadAgain.subject
      uploadAgain.device :=
    .cons (Outcome.eta uploadBoth) (.cons (Outcome.eta bothCompleted)
      (.cons (Outcome.eta uploadAgain) (.nil _ _)))
  obtain ⟨hopen, hreturns, hfits, _⟩ : Orderly 0 ([] ++ first :: [idle] ++ second :: []) :=
    orderly_rewriteSteps
  have hregion : (⟨0, 0, 1⟩ : CopyRegion) ∈ regionsOf uploadBoth.events := by decide +kernel
  have hcommitted := (copies_committed (createBytewise_run hcreated) hrun hopen hreturns hfits).1
    (by simp [idle, Use.declared?]) rfl ⟨0, 0, 1⟩ hregion
  exact ⟨hregion, by decide +kernel, hcommitted⟩

end

end GuestReplica.Replica
