import GuestReplica.Proofs.Staging.Steps
import GuestReplica.Upload

set_option autoImplicit false

/-!
# What the staging of guest pages can do

As for the pool, a relation for each operation says how it can end: adding a region
to a batch, staging one piece, the pages of a range, and a list of ranges.  The
relations follow the loops, one constructor for each way to leave an iteration and
one that goes on, so an induction on them is an induction on the iterations.
-/

namespace GuestReplica

variable {τ ε σ : Type}

/-! ## Batches -/

namespace Batch

/-- The events that record the regions of a batch. -/
def commands (batch : Batch) (target : Handle) : List Event :=
  if batch.regions = [] then [] else [.command (.copy batch.source target batch.regions)]

/-- There are regions, but no buffer to copy them from. -/
def LacksSource (batch : Batch) : Prop := batch.regions ≠ [] ∧ batch.source = Handle.null

instance (batch : Batch) : Decidable batch.LacksSource :=
  inferInstanceAs (Decidable (_ ∧ _))

theorem record_run (batch : Batch) (target : Handle) (t : τ) (s : σ) :
    (batch.record target : Action τ ε σ Unit).run t s =
      if batch.LacksSource then ⟨.broken .nullSource, t, s, []⟩
      else ⟨.done (), t, s, batch.commands target⟩ := by
  by_cases hregions : batch.regions = []
  · simp [record, commands, LacksSource, hregions]
  · by_cases hsource : batch.source = Handle.null
    · simp [record, LacksSource, hregions, hsource]
    · simp [record, commands, LacksSource, hregions, hsource]

/-- How the addition of a region to a batch can end. -/
inductive Pushes (batch : Batch) (target source : Handle) (region : CopyRegion) :
    Ending ε Batch → List Event → Prop where
  /-- the region comes from the same buffer as those before -/
  | joined (hsource : source = batch.source) :
      Pushes batch target source region
        (.done { batch with regions := batch.regions ++ [region] }) []
  | sourceless (hsource : source ≠ batch.source) (hlacks : batch.LacksSource) :
      Pushes batch target source region (.broken .nullSource) []
  /-- what was gathered so far is recorded -/
  | started (hsource : source ≠ batch.source) (hlacks : ¬ batch.LacksSource) :
      Pushes batch target source region (.done ⟨source, [region]⟩) (batch.commands target)

theorem pushes_of_run {batch : Batch} {target source : Handle} {region : CopyRegion} {t t' : τ}
    {s s' : σ} {ending : Ending ε Batch} {events : List Event}
    (h : (batch.push target source region).run t s = ⟨ending, t', s', events⟩) :
    batch.Pushes target source region ending events ∧ t' = t := by
  unfold push at h
  split at h
  · next hsource =>
    cases h
    exact ⟨.joined hsource, rfl⟩
  · next hsource =>
    rw [Action.run_bind, record_run] at h
    split at h
    · next hlacks =>
      cases h
      exact ⟨.sourceless hsource hlacks, rfl⟩
    · next hlacks =>
      simp only [Outcome.andThen_done, Action.run_pure, Outcome.after_mk, List.append_nil] at h
      cases h
      exact ⟨.started hsource hlacks, rfl⟩

end Batch

namespace Upload

open Staging (Allocation Pool)

variable {d : Device σ} {u : Upload}

/-! ## One piece -/

/-- What happens before the bytes of a piece are copied: the claim and the look-up. -/
def claims (address size : Nat) : List Event :=
  [.marked address (size % addressLimit) false, .lookup address size]

/-- How the staging of a piece can end. -/
inductive StagesPiece (u : Upload) (batch : Batch) (address : Nat) (piece : Allocation) :
    Ending ε Batch → List Event → Prop where
  | outside (hwindow : u.guest.window? address piece.size = none) :
      StagesPiece u batch address piece (.broken .guestOutOfBounds) (claims address piece.size)
  | filled {bytes : ByteArray} {ending : Ending ε Batch} {pushed : List Event}
      (hwindow : u.guest.window? address piece.size = some bytes)
      (hpush : batch.Pushes u.target piece.buffer ⟨piece.offset, address, piece.size⟩ ending
        pushed) :
      StagesPiece u batch address piece ending
        (claims address piece.size ++
          .hostWrite piece.buffer piece.memory piece.offset bytes :: pushed)

theorem stagesPiece_of_run {batch : Batch} {address : Nat} {piece : Allocation} {t t' : τ}
    {s s' : σ} {ending : Ending ε Batch} {events : List Event}
    (h : (stagePiece d u batch address piece).run t s = ⟨ending, t', s', events⟩) :
    StagesPiece u batch address piece ending events ∧ t' = t := by
  simp only [stagePiece, Action.run_bind, Action.run_emit, Outcome.andThen_done] at h
  split at h
  · next hwindow =>
    cases h
    exact ⟨.outside hwindow, rfl⟩
  · next bytes hwindow =>
    simp only [Action.run_bind, Allocation.write, Device.hostWrite, Action.run_tell,
      Outcome.andThen_done] at h
    generalize d.onHostWrite piece.memory piece.offset bytes s = s₁ at h
    rcases hrun : (batch.push u.target piece.buffer
      ⟨piece.offset, address, piece.size⟩ : Action τ ε σ Batch).run t s₁ with ⟨_, _, _, pushed⟩
    obtain ⟨hpush, rfl⟩ := Batch.pushes_of_run hrun
    rw [hrun] at h
    cases h
    exact ⟨.filled hwindow hpush, rfl⟩

/-! ## The pages of a range -/

/-- The number of pages that a piece holds. -/
def pages (u : Upload) (piece : Allocation) : Nat := (piece.size >>> u.pageBits) % addressLimit

/-- How the staging of the pages from `start` on can end, when `remaining` of them
are left. -/
inductive StagesPages (d : Device σ) (u : Upload) : Pool → Batch → (start remaining : Nat) →
    Ending ε (Batch × Option StagingError) → Pool → List Event → Prop where
  | finished (p : Pool) (batch : Batch) (start : Nat) :
      StagesPages d u p batch start 0 (.done (batch, none)) p []
  /-- no piece can be had for the pages that are left -/
  | failed {p q : Pool} {batch : Batch} {start remaining : Nat} {e : StagingError}
      {events : List Event} (hremaining : remaining ≠ 0)
      (hrequest : Pool.Requests d p u.submission (remaining <<< u.pageBits) (1 <<< u.pageBits)
        (.failed e) q events) :
      StagesPages d u p batch start remaining (.done (batch, some e)) q events
  | stopped {p q : Pool} {batch : Batch} {start remaining : Nat} {v : Violation}
      {events : List Event} (hremaining : remaining ≠ 0)
      (hrequest : Pool.Requests d p u.submission (remaining <<< u.pageBits) (1 <<< u.pageBits)
        (.broken v) q events) :
      StagesPages d u p batch start remaining (.broken v) q events
  | broken {p q : Pool} {batch : Batch} {start remaining : Nat} {piece : Allocation}
      {v : Violation} {events staged : List Event} (hremaining : remaining ≠ 0)
      (hrequest : Pool.Requests d p u.submission (remaining <<< u.pageBits) (1 <<< u.pageBits)
        (.done piece) q events)
      (hpiece : StagesPiece (ε := ε) u batch (toAddress (start <<< u.pageBits)) piece (.broken v)
        staged) :
      StagesPages d u p batch start remaining (.broken v) q (events ++ staged)
  /-- the piece holds no page, or more than are left -/
  | uneven {p q : Pool} {batch batch' : Batch} {start remaining : Nat} {piece : Allocation}
      {events staged : List Event} (hremaining : remaining ≠ 0)
      (hrequest : Pool.Requests d p u.submission (remaining <<< u.pageBits) (1 <<< u.pageBits)
        (.done piece) q events)
      (hpiece : StagesPiece (ε := ε) u batch (toAddress (start <<< u.pageBits)) piece
        (.done batch') staged)
      (hpages : ¬ (0 < u.pages piece ∧ u.pages piece ≤ remaining)) :
      StagesPages d u p batch start remaining (.broken .unevenPiece) q (events ++ staged)
  | piece {p q r : Pool} {batch batch' : Batch} {start remaining : Nat} {piece : Allocation}
      {ending : Ending ε (Batch × Option StagingError)} {events staged rest : List Event}
      (hremaining : remaining ≠ 0)
      (hrequest : Pool.Requests d p u.submission (remaining <<< u.pageBits) (1 <<< u.pageBits)
        (.done piece) q events)
      (hpiece : StagesPiece (ε := ε) u batch (toAddress (start <<< u.pageBits)) piece
        (.done batch') staged)
      (hpages : 0 < u.pages piece ∧ u.pages piece ≤ remaining)
      (hrest : StagesPages d u q batch' (start + u.pages piece) (remaining - u.pages piece) ending
        r rest) :
      StagesPages d u p batch start remaining ending r (events ++ staged ++ rest)

theorem StagesPiece.not_failed {batch : Batch} {address : Nat} {piece : Allocation} {e : ε}
    {events : List Event} : ¬ StagesPiece u batch address piece (.failed e) events := by
  intro h
  cases h with
  | filled _ hpush => cases hpush

theorem stagesPages_of_run {batch : Batch} {start remaining : Nat} {p q : Pool} {s s' : σ}
    {ending : Ending ε (Batch × Option StagingError)} {events : List Event}
    (h : (stagePages d u batch start remaining).run p s = ⟨ending, q, s', events⟩) :
    StagesPages d u p batch start remaining ending q events := by
  -- each piece leaves fewer pages, so the induction is on their number
  induction remaining using Nat.strongRecOn generalizing batch start p s events with
  | ind remaining ih =>
    rw [stagePages] at h
    split at h
    · next hzero =>
      subst hzero
      cases h
      exact .finished _ _ _
    · next hremaining =>
      simp only [Action.run_bind, Action.run_attempt] at h
      rcases hrun : (Pool.request d u.submission (remaining <<< u.pageBits)
        (1 <<< u.pageBits)).run p s with ⟨requested, p₁, s₁, es⟩
      have hrequest := Pool.requests_of_run hrun
      rw [hrun] at h
      cases requested with
      | failed e =>
        simp only [Outcome.caught_failed, Outcome.andThen_done, Action.run_pure, Outcome.after_mk,
          List.append_nil] at h
        cases h
        exact .failed hremaining hrequest
      | broken v =>
        cases h
        exact .stopped hremaining hrequest
      | done piece =>
        simp only [Outcome.caught_done, Outcome.andThen_done, Action.run_bind] at h
        rcases hstage : (stagePiece d u batch (toAddress (start <<< u.pageBits)) piece :
          Action Pool ε σ Batch).run p₁ s₁ with ⟨staging, p₂, s₂, staged⟩
        obtain ⟨hpiece, rfl⟩ := stagesPiece_of_run hstage
        rw [hstage] at h
        cases staging with
        | failed e => exact absurd hpiece StagesPiece.not_failed
        | broken v =>
          cases h
          exact .broken hremaining hrequest hpiece
        | done batch' =>
          simp only [Outcome.andThen_done] at h
          split at h
          · next hpages =>
            rcases hnext : (stagePages d u batch' (start + u.pages piece)
              (remaining - u.pages piece) : Action Pool ε σ _).run p₂ s₂ with ⟨last, p₃, s₃, rest⟩
            have hless : remaining - u.pages piece < remaining :=
              Nat.sub_lt_of_pos_le hpages.1 hpages.2
            unfold pages at hnext
            rw [hnext] at h
            simp only [Outcome.after_mk, ← List.append_assoc] at h
            cases h
            exact .piece hremaining hrequest hpiece hpages (ih _ hless hnext)
          · next hpages =>
            simp only [Action.run_violate, Outcome.after_mk, List.append_nil] at h
            cases h
            exact .uneven hremaining hrequest hpiece hpages

/-! ## Ranges -/

/-- The event that announces a range to the trace, if reads are traced. -/
def announce (u : Upload) (range : PageRange) : List Event :=
  u.trace.events (toAddress (range.start <<< u.pageBits)) (toAddress (range.count <<< u.pageBits))

/-- How the staging of ranges can end. -/
inductive StagesRanges (d : Device σ) (u : Upload) : Pool → Batch → List PageRange →
    Ending ε (Batch × Option StagingError) → Pool → List Event → Prop where
  | finished (p : Pool) (batch : Batch) : StagesRanges d u p batch [] (.done (batch, none)) p []
  | failed {p q : Pool} {batch batch' : Batch} {range : PageRange} {ranges : List PageRange}
      {e : StagingError} {events : List Event}
      (hpages : StagesPages (ε := ε) d u p batch range.start range.count (.done (batch', some e)) q
        events) :
      StagesRanges d u p batch (range :: ranges) (.done (batch', some e)) q
        (u.announce range ++ events)
  | broken {p q : Pool} {batch : Batch} {range : PageRange} {ranges : List PageRange}
      {v : Violation} {events : List Event}
      (hpages : StagesPages (ε := ε) d u p batch range.start range.count (.broken v) q events) :
      StagesRanges d u p batch (range :: ranges) (.broken v) q (u.announce range ++ events)
  | range {p q r : Pool} {batch batch' : Batch} {range : PageRange} {ranges : List PageRange}
      {ending : Ending ε (Batch × Option StagingError)} {events rest : List Event}
      (hpages : StagesPages (ε := ε) d u p batch range.start range.count
        (.done (batch', none)) q events)
      (hrest : StagesRanges d u q batch' ranges ending r rest) :
      StagesRanges d u p batch (range :: ranges) ending r (u.announce range ++ events ++ rest)

theorem StagesPages.not_failed {p q : Pool} {batch : Batch} {start remaining : Nat} {e : ε}
    {events : List Event} : ¬ StagesPages d u p batch start remaining (.failed e) q events := by
  intro h
  generalize hending : Ending.failed e = ending at h
  induction h with
  | piece _ _ _ _ _ ih => exact ih hending
  | _ => cases hending

theorem stagesRanges_of_run {batch : Batch} {ranges : List PageRange} {p q : Pool} {s s' : σ}
    {ending : Ending ε (Batch × Option StagingError)} {events : List Event}
    (h : (stageRanges d u batch ranges).run p s = ⟨ending, q, s', events⟩) :
    StagesRanges d u p batch ranges ending q events := by
  induction ranges generalizing batch p s events with
  | nil =>
    cases h
    exact .finished _ _
  | cons range ranges ih =>
    simp only [stageRanges, Action.run_bind, Action.run_emit, Outcome.andThen_done] at h
    rcases hrun : (stagePages d u batch range.start range.count : Action Pool ε σ _).run p s with
      ⟨staging, p₁, s₁, es⟩
    have hpages := stagesPages_of_run hrun
    rw [hrun] at h
    cases staging with
    | failed e => exact absurd hpages StagesPages.not_failed
    | broken v =>
      cases h
      exact .broken hpages
    | done value =>
      obtain ⟨batch', failure⟩ := value
      cases failure with
      | some e =>
        simp only [Outcome.andThen_done, Action.run_pure, Outcome.after_mk, List.append_nil] at h
        cases h
        exact .failed hpages
      | none =>
        simp only [Outcome.andThen_done] at h
        rcases hnext : (stageRanges d u batch' ranges : Action Pool ε σ _).run p₁ s₁ with
          ⟨last, p₂, s₂, rest⟩
        rw [hnext] at h
        simp only [Outcome.after_mk, ← List.append_assoc] at h
        cases h
        exact .range hpages (ih hnext)

/-! ## The whole -/

/-- How the staging of ranges with the recording of their copies can end. -/
inductive Stages (d : Device σ) (u : Upload) (p : Pool) (ranges : List PageRange) :
    Ending ε (Option StagingError) → Pool → List Event → Prop where
  | broken {q : Pool} {v : Violation} {events : List Event}
      (hranges : StagesRanges (ε := ε) d u p Batch.empty ranges (.broken v) q events) :
      Stages d u p ranges (.broken v) q events
  | sourceless {q : Pool} {batch : Batch} {failure : Option StagingError} {events : List Event}
      (hranges : StagesRanges (ε := ε) d u p Batch.empty ranges (.done (batch, failure)) q events)
      (hlacks : batch.LacksSource) :
      Stages d u p ranges (.broken .nullSource) q events
  | staged {q : Pool} {batch : Batch} {failure : Option StagingError} {events : List Event}
      (hranges : StagesRanges (ε := ε) d u p Batch.empty ranges (.done (batch, failure)) q events)
      (hlacks : ¬ batch.LacksSource) :
      Stages d u p ranges (.done failure) q (events ++ batch.commands u.target)

theorem StagesRanges.not_failed {p q : Pool} {batch : Batch} {ranges : List PageRange} {e : ε}
    {events : List Event} : ¬ StagesRanges d u p batch ranges (.failed e) q events := by
  intro h
  generalize hending : Ending.failed e = ending at h
  induction h with
  | range _ _ ih => exact ih hending
  | _ => cases hending

theorem Stages.not_failed {p q : Pool} {ranges : List PageRange} {e : ε} {events : List Event} :
    ¬ Stages d u p ranges (.failed e) q events := by
  intro h
  cases h

theorem stages_of_run {ranges : List PageRange} {p q : Pool} {s s' : σ}
    {ending : Ending ε (Option StagingError)} {events : List Event}
    (h : (stage d u ranges).run p s = ⟨ending, q, s', events⟩) :
    Stages d u p ranges ending q events := by
  simp only [stage, Action.run_bind] at h
  rcases hrun : (stageRanges d u Batch.empty ranges : Action Pool ε σ _).run p s with
    ⟨staging, p₁, s₁, es⟩
  have hranges := stagesRanges_of_run hrun
  rw [hrun] at h
  cases staging with
  | failed e => exact absurd hranges StagesRanges.not_failed
  | broken v =>
    cases h
    exact .broken hranges
  | done value =>
    obtain ⟨batch, failure⟩ := value
    simp only [Outcome.andThen_done, Batch.record_run] at h
    split at h
    · next hlacks =>
      cases h
      simpa using Stages.sourceless hranges hlacks
    · next hlacks =>
      simp only [Outcome.andThen_done, Action.run_pure, Outcome.after_mk, List.append_nil] at h
      cases h
      exact .staged hranges hlacks

end Upload

end GuestReplica
