import GuestReplica.Proofs.Replica.Tiling
import GuestReplica.Proofs.Upload.Capacity

set_option autoImplicit false

/-!
# Uploads succeed as far as there is room

While the device does what it is asked for, an upload of pages that the guest has
succeeds exactly when its pool has room for all of them.  Otherwise the pool runs out
of pages, when it has no room left for a byte more than was copied.
-/

namespace GuestReplica

/-- The bytes of ranges are those of their spans. -/
theorem PageRange.sum_size_bytes (ranges : List PageRange) (pageBits : Nat) :
    ((ranges.map (·.bytes pageBits)).map Span.size).sum = total ranges pageBits := by
  induction ranges with
  | nil => rfl
  | cons range rest ih =>
    have hsize : (range.bytes pageBits).size = range.count <<< pageBits := by
      simp only [Span.size, bytes, stop, Nat.shiftLeft_eq, Nat.add_mul, Nat.add_sub_cancel_left]
    rw [List.map_cons, List.map_cons, List.sum_cons, hsize, ih, total_cons]

/-- Spans without a byte are those whose sizes add up to nothing. -/
theorem sum_size_eq_zero_iff (spans : List Span) :
    (spans.map Span.size).sum = 0 ↔ ∀ span ∈ spans, span.IsEmpty := by
  simp only [List.sum_eq_zero_iff_forall_eq_nat, List.forall_mem_map, Span.size,
    Nat.sub_eq_zero_iff_le, Span.IsEmpty]

namespace Replica

variable {σ : Type} {d : Device σ} {r r' : Replica} {s s' : σ} {events : List Event}
variable {guest : GuestMemory} {trace : ReadTrace} {submission : Nat} {ranges : List PageRange}

/-- The bytes of the ranges were looked up, or they are left. -/
theorem Uploaded.total_eq {pieces : List Piece} {reached : List PageRange} {left : List Span}
    (h : Uploaded r guest trace submission ranges events pieces reached left) :
    PageRange.total ranges r.pageBits = lookedUp events + (left.map Span.size).sum := by
  rw [← PageRange.sum_size_bytes, h.cuts.sum_size, h.staged.lookedUp_eq, List.map_map]
  rfl

/-- An upload into the buffer copies as many bytes as it looks up. -/
theorem Uploaded.sum_targets {pieces : List Piece} {reached : List PageRange} {left : List Span}
    (h : Uploaded r guest trace submission ranges events pieces reached left)
    (hsize : ∀ range ∈ ranges, range.stop <<< r.pageBits ≤ size) :
    ((targetsOf events).map (·.2)).sum = lookedUp events := by
  rw [h.targetsOf_eq hsize, h.staged.lookedUp_eq, List.map_map]
  rfl

/-- An upload that returns has taken what it looked up of the room of its pool, and
fails only if that was all. -/
theorem Uploads.room_eq {p : Staging.Pool} {ending : Ending UploadError Unit}
    (h : Uploads d guest trace submission r ranges ending r' events) (hr : r.Valid)
    (hpool : r.pool = some p) (hcalls : CallsSucceed p.config.hostVisible events)
    (hreturns : ending.Returns) :
    (ending = .done () ∧ ∃ rest : Option Nat, p.room? = rest.map (lookedUp events + ·)) ∨
      (ending = .failed (.stagingAllocation .outOfPages) ∧ p.room? = some (lookedUp events)) := by
  have haligned := hr.pool_aligned p hpool
  have hbarriers := lookedUp_barriers r .transferDestination
  cases h with
  | idle _ => exact .inl ⟨rfl, p.room?, by simp [lookedUp, lookupsOf]⟩
  | refused _ _ => exact absurd rfl (hreturns _)
  | shutDown _ _ => exact absurd rfl (hreturns _)
  | broken _ _ _ => exact absurd rfl (hreturns _)
  | finished _ hpool' hstages =>
    rw [hpool] at hpool'
    cases hpool'
    have htakes := hstages.takes haligned (callsSucceed_append.mp hcalls).2
    rw [lookedUp_append, hbarriers, Nat.zero_add]
    cases htakes with
    | some hroom => exact .inl ⟨rfl, _, hroom⟩
  | @failed _ _ _ _ e _ _ hpool' hstages =>
    rw [hpool] at hpool'
    cases hpool'
    have hstaged := (callsSucceed_append.mp (callsSucceed_append.mp hcalls).1).2
    have htakes := hstages.takes haligned hstaged
    have hcomplaint : lookedUp [.notice (.uploadFailed (.stagingAllocation e))] = 0 := rfl
    rw [lookedUp_append, lookedUp_append, hbarriers, hcomplaint, Nat.zero_add, Nat.add_zero]
    cases htakes with
    | all hroom => exact .inr ⟨rfl, hroom⟩

/-- While all calls of the device succeed, an upload of sorted ranges that lie in the
buffer succeeds exactly when the pool has room for all their bytes, or has no limit,
provided that the guest has the pages, the device names its buffers, and no sum of
sizes that is needed is too large.  Where there is less room, the pool runs out of
pages after as many bytes were claimed and copied as there was room for, the first ones
of the ranges. -/
theorem upload_done_iff_room {p : Staging.Pool} {ending : Ending UploadError Unit}
    (hd : d.NeverNull) (hr : Reachable d r) (hpool : r.pool = some p)
    (hsorted : PageRange.Sorted ranges)
    (hsize : ∀ last ∈ ranges.getLast?, last.stop <<< r.pageBits ≤ size)
    (hcovers : ∀ range ∈ ranges, range.count ≠ 0 →
      guest.Covers (range.start <<< r.pageBits) (range.count <<< r.pageBits))
    (hflush : p.config.pageSize + p.config.flushUnit < Size.limit)
    (hunit : p.config.pageSize + (1 <<< r.pageBits) < Size.limit ∨
      p.used + PageRange.total ranges r.pageBits ≤ p.config.pageSize)
    (h : (upload d guest trace submission ranges).run r s = ⟨ending, r', s', events⟩)
    (hcalls : CallsSucceed p.config.hostVisible events) :
    (ending = .done () ↔ ∀ room ∈ p.room?, PageRange.total ranges r.pageBits ≤ room) ∧
      ∀ room ∈ p.room?, room < PageRange.total ranges r.pageBits →
        ending = .failed (.stagingAllocation .outOfPages) ∧
          marksOf events = (targetsOf events).map (fun target => (target.1, target.2, false)) ∧
          ((targetsOf events).map (·.2)).sum = room ∧
          ∃ left, Cuts (1 <<< r.pageBits) (ranges.map (·.bytes r.pageBits)) (targetsOf events)
            left := by
  have huploads := uploads_of_run h
  have hin : ∀ range ∈ ranges, range.stop <<< r.pageBits ≤ size := by
    intro range hmem
    have hlast := List.getLast?_eq_some_getLast (List.ne_nil_of_mem hmem)
    exact stop_le_size hsorted hlast (hsize _ hlast) hmem
  have hreturns := huploads.returns hd hr hpool hsorted hin hcovers hflush hunit
  have htaken := huploads.room_eq hr.valid hpool hcalls hreturns
  by_cases hranges : ranges = []
  · subst hranges
    cases h
    simp
  · obtain ⟨_, _, pieces, _, left, _, _, huploaded, hdone⟩ :=
      huploads.uploaded hr.valid hranges hreturns
    have htotal := huploaded.total_eq
    rw [huploaded.reaches.left_eq_nil_iff, ← sum_size_eq_zero_iff] at hdone
    rcases htaken with ⟨rfl, rest, hroom⟩ | ⟨rfl, hroom⟩
    · have hnone := hdone.mp rfl
      have hfits : ∀ room ∈ p.room?, PageRange.total ranges r.pageBits ≤ room := by
        intro room hmem
        rw [hroom] at hmem
        obtain ⟨more, _, rfl⟩ := Option.map_eq_some_iff.mp hmem
        omega
      refine ⟨iff_of_true rfl hfits, ?_⟩
      intro room hmem hless
      exact absurd hless (Nat.not_lt_of_le (hfits room hmem))
    · have hsome : (left.map Span.size).sum ≠ 0 := fun hzero => nomatch hdone.mpr hzero
      refine ⟨iff_of_false nofun ?_, ?_⟩
      · intro hfits
        have hle := hfits _ hroom
        omega
      · intro room hmem _
        rw [hroom] at hmem
        cases hmem
        refine ⟨rfl, huploaded.marksOf_eq hin, huploaded.sum_targets hin, left, ?_⟩
        rw [huploaded.targetsOf_eq hin]
        exact huploaded.cuts

/-! ## One staging page of one byte -/

/-- A replica whose guest pages and staging pages have one byte each, with one staging
page at most. -/
def cramped : Config := { bytewise 1 with maxStagingPages := some 1 }

/-- What is created when nothing fails. -/
def createCramped : Outcome Unit CreationError Simulated.State Replica :=
  (create (Simulated.device .direct) cramped).run () (Simulated.State.new {})

/-- The pool of the replica that is created. -/
def crampedPool : Staging.Pool :=
  .ofConfig { pageSize := 1, hostVisible := 2, flushUnit := 1, maxPages := some 1 }

/-- The replica that is created. -/
def crampedReplica : Replica := initial cramped ⟨1, size, [2], 0, .plain⟩ crampedPool.config

/-- Two pages are uploaded, though there is room for one. -/
def uploadCramped : Outcome Replica UploadError Simulated.State Unit :=
  (upload (Simulated.device .direct) twoPages .report 1 [⟨0, 2⟩]).run crampedReplica
    createCramped.device

theorem createCramped_run :
    (create (Simulated.device .direct) cramped).run () (Simulated.State.new {}) =
      ⟨.done crampedReplica, (), createCramped.device, createCramped.events⟩ := by
  have hending : createCramped.ending = .done crampedReplica := by decide +kernel
  rw [← hending]
  rfl

theorem upload_done_iff_room_cramped :
    crampedPool.room? = some 1 ∧
      uploadCramped.ending = .failed (.stagingAllocation .outOfPages) ∧
      ((targetsOf uploadCramped.events).map (·.2)).sum = 1 := by
  have hr : Reachable (Simulated.device .direct) crampedReplica :=
    .intro createCramped_run (.nil _ _)
  have hcovers : ∀ range ∈ ([⟨0, 2⟩] : List PageRange), range.count ≠ 0 →
      twoPages.Covers (range.start <<< crampedReplica.pageBits)
        (range.count <<< crampedReplica.pageBits) := by decide
  have hroom : crampedPool.room? = some 1 := by decide
  obtain ⟨_, hfails⟩ := upload_done_iff_room Simulated.neverNull hr
    (p := crampedPool) rfl (by decide) (by decide) hcovers (by decide) (.inl (by decide))
    (Outcome.eta uploadCramped) (by decide +kernel)
  obtain ⟨hending, _, hsum, _⟩ := hfails 1 hroom (by decide)
  exact ⟨hroom, hending, hsum⟩

/-- Where a page and a flush unit add up to no size, an upload can be stopped though its
pool has no limit. -/
theorem stopped_with_room :
    Reachable (Simulated.device .direct) (bytewiseReplica Size.whole) ∧
      (∀ p ∈ (bytewiseReplica Size.whole).pool,
        p.config.pageSize + p.config.flushUnit = Size.limit ∧ p.room? = none ∧
          CallsSucceed p.config.hostVisible (uploadTwoPages Size.whole).events) ∧
      PageRange.Sorted [⟨0, 2⟩] ∧
      PageRange.stop ⟨0, 2⟩ <<< (bytewiseReplica Size.whole).pageBits ≤ size ∧
      twoPages.Covers 0 2 ∧
      (uploadTwoPages Size.whole).ending = .broken .sizeOverflow := by
  refine ⟨reachable_bytewise _ (by decide +kernel), ?_, by decide, by decide, by decide, ?_⟩
  · rintro p ⟨⟩
    exact ⟨by decide, by decide, by decide +kernel⟩
  · decide +kernel

end Replica

end GuestReplica
