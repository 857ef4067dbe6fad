import GuestReplica.Device.Simulated
import GuestReplica.Proofs.Replica.Uploads

set_option autoImplicit false

/-!
# Uploads tile their ranges

What an upload claims, looks up and copies are the same bytes, piece by piece, and
these pieces cut the given ranges front to back: all of them if it succeeds, and all
up to some byte of one of them if staging memory runs out.  It takes sizes whose sum
is no size to stop an upload of pages that the guest has.
-/

namespace GuestReplica

/-- The simulated device counts its handles from one. -/
theorem Simulated.neverNull {sparsePath : SparsePath} : (Simulated.device sparsePath).NeverNull := by
  intro info s h
  simp only [Simulated.device, Simulated.State.unlessFaulty] at h
  split at h
  · cases h
  · simp [Simulated.State.createObject, Handle.null] at h

namespace Replica

variable {σ : Type} {d : Device σ} {r r' : Replica} {s s' : σ} {events : List Event}
variable {guest : GuestMemory} {trace : ReadTrace} {submission : Nat} {ranges : List PageRange}

theorem size_lt_addressLimit : size < addressLimit := by decide

/-- The ranges of an upload end in the buffer if the last one does. -/
theorem stop_le_size {last range : PageRange} (hsorted : PageRange.Sorted ranges)
    (hlast : ranges.getLast? = some last) (hsize : last.stop <<< r.pageBits ≤ size)
    (hmem : range ∈ ranges) : range.stop <<< r.pageBits ≤ size := by
  have hle := hsorted.stop_le_last hlast hmem
  exact Nat.le_trans (shiftLeft_le_shiftLeft r.pageBits hle) hsize

/-- An upload into the buffer, of pages that the guest has, is not stopped as long as no
sum of a page size with a flush unit or with a guest page is too large, or no page has
to be turned to for it. -/
theorem Uploads.returns {p : Staging.Pool} {ending : Ending UploadError Unit}
    (h : Uploads d guest trace submission r ranges ending r' events) (hd : d.NeverNull)
    (hr : Reachable d r) (hpool : r.pool = some p) (hsorted : PageRange.Sorted ranges)
    (hin : ∀ range ∈ ranges, range.stop <<< r.pageBits ≤ size)
    (hcovers : ∀ range ∈ ranges, range.count ≠ 0 →
      guest.Covers (range.start <<< r.pageBits) (range.count <<< r.pageBits))
    (hflush : p.config.pageSize + p.config.flushUnit < Size.limit)
    (hunit : p.config.pageSize + (1 <<< r.pageBits) < Size.limit ∨
      p.used + PageRange.total ranges r.pageBits ≤ p.config.pageSize) : ending.Returns := by
  rintro v rfl
  have hserves : p.Serves (1 <<< r.pageBits) (PageRange.total ranges r.pageBits) :=
    ⟨hr.valid.pool_valid p hpool, hr.valid.pool_aligned p hpool, hr.nonNull hd p hpool, hunit,
      hflush⟩
  refine Uploads.not_broken hd hpool hserves hsorted ?_ hcovers h
  intro range hmem
  exact Nat.lt_of_le_of_lt (hin range hmem) size_lt_addressLimit

/-- A piece of ranges that lie in the buffer has the address that its offset is, and a
length that is claimed as it is. -/
theorem Uploaded.piece_exact {pieces : List Piece} {reached : List PageRange} {left : List Span}
    {piece : Piece} (h : Uploaded r guest trace submission ranges events pieces reached left)
    (hsize : ∀ range ∈ ranges, range.stop <<< r.pageBits ≤ size) (hmem : piece ∈ pieces) :
    piece.address = piece.start ∧
      piece.allocation.size % addressLimit = piece.allocation.size := by
  obtain ⟨span, hspan, _, hstop⟩ := h.cuts.piece_subset (List.mem_map_of_mem hmem)
  obtain ⟨range, hrange, rfl⟩ := List.mem_map.mp hspan
  have hin : piece.start + piece.allocation.size ≤ size := Nat.le_trans hstop (hsize range hrange)
  have hlimit := size_lt_addressLimit
  constructor
  · rw [Piece.address]
    exact toAddress_of_lt (by omega)
  · exact Nat.mod_eq_of_lt (by omega)

/-- The copies of an upload into the buffer have the offsets and the sizes of its
pieces. -/
theorem Uploaded.targetsOf_eq {pieces : List Piece} {reached : List PageRange} {left : List Span}
    (h : Uploaded r guest trace submission ranges events pieces reached left)
    (hsize : ∀ range ∈ ranges, range.stop <<< r.pageBits ≤ size) :
    targetsOf events = pieces.map Piece.extent := by
  rw [targetsOf, regionsOf, h.sourced, List.map_map, List.map_map]
  apply List.map_congr_left
  intro piece hmem
  have hexact := h.piece_exact hsize hmem
  simp [Piece.sourced, Piece.region, Piece.extent, hexact.1]

/-- What such an upload claims is what its copies write. -/
theorem Uploaded.marksOf_eq {pieces : List Piece} {reached : List PageRange} {left : List Span}
    (h : Uploaded r guest trace submission ranges events pieces reached left)
    (hsize : ∀ range ∈ ranges, range.stop <<< r.pageBits ≤ size) :
    marksOf events = (targetsOf events).map fun target => (target.1, target.2, false) := by
  rw [h.targetsOf_eq hsize, h.staged.marks, List.map_map]
  apply List.map_congr_left
  intro piece hmem
  obtain ⟨haddress, hlength⟩ := h.piece_exact hsize hmem
  simp [Piece.mark, Piece.extent, haddress, hlength]

/-- An upload of sorted ranges that lie in the buffer is not stopped if the guest has
their pages, the device names its buffers, and no sum of a page size with a flush unit
or with a guest page is too large.  Whenever such an upload returns, it has claimed
and looked up exactly what its copies write, piece by piece; these pieces cut the
ranges front to back, all of them if it succeeds, and else up to some byte of one of
them; the ranges that it reached, that one included, were traced; and for each region,
the bytes that the guest has at its target were stored where it is copied from. -/
theorem upload_tiles {p : Staging.Pool} {last : PageRange} {ending : Ending UploadError Unit}
    (hr : Reachable d r) (hpool : r.pool = some p) (hlast : ranges.getLast? = some last)
    (hsorted : PageRange.Sorted ranges) (hsize : last.stop <<< r.pageBits ≤ size)
    (hcovers : ∀ range ∈ ranges, range.count ≠ 0 →
      guest.Covers (range.start <<< r.pageBits) (range.count <<< r.pageBits))
    (h : (upload d guest trace submission ranges).run r s = ⟨ending, r', s', events⟩) :
    (d.NeverNull → p.config.pageSize + p.config.flushUnit < Size.limit →
        p.config.pageSize + (1 <<< r.pageBits) < Size.limit → ending.Returns) ∧
      (ending.Returns →
        marksOf events = (targetsOf events).map (fun target => (target.1, target.2, false)) ∧
        lookupsOf events = targetsOf events ∧
        (∃ reached left,
          Cuts (1 <<< r.pageBits) (ranges.map (·.bytes r.pageBits)) (targetsOf events) left ∧
          PageRange.Reaches r.pageBits ranges reached left ∧ (ending = .done () ↔ left = []) ∧
          tracesOf events = reached.flatMap fun range =>
            trace.events (toAddress (range.start <<< r.pageBits))
              (toAddress (range.count <<< r.pageBits))) ∧
        (writesOf events).map (fun write => (write.1, write.2.1, some write.2.2)) =
          (sourcedOf events).map fun region => (region.1, region.2.sourceOffset,
            guest.window? region.2.targetOffset region.2.size)) := by
  have huploads := uploads_of_run h
  have hin : ∀ range ∈ ranges, range.stop <<< r.pageBits ≤ size := by
    intro range hmem
    exact stop_le_size hsorted hlast hsize hmem
  constructor
  · intro hd hflush hunit
    exact huploads.returns hd hr hpool hsorted hin hcovers hflush (.inl hunit)
  · intro hreturns
    have hranges : ranges ≠ [] := by
      rintro rfl
      cases hlast
    obtain ⟨_, _, pieces, reached, left, _, _, huploaded, hleft⟩ :=
      huploads.uploaded hr.valid hranges hreturns
    have htargets := huploaded.targetsOf_eq hin
    refine ⟨huploaded.marksOf_eq hin, ?_,
      ⟨reached, left, ?_, huploaded.reaches, hleft, huploaded.traces⟩, ?_⟩
    · rw [htargets, huploaded.staged.lookups]
      apply List.map_congr_left
      intro piece hmem
      simp [Piece.lookup, Piece.extent, (huploaded.piece_exact hin hmem).1]
    · rw [htargets]
      exact huploaded.cuts
    · rw [huploaded.staged.writes, huploaded.sourced, List.map_map]
      rfl

/-! ## Pages of one byte -/

/-- A replica whose guest pages and staging pages have one byte each. -/
def bytewise (flushUnit : Nat) : Config where
  pageBits := 0
  memoryTypes := ⟨1, 2, 0⟩
  stagingPageSize := 1
  flushUnit := flushUnit

/-- What is created when nothing fails. -/
def createBytewise (flushUnit : Nat) : Outcome Unit CreationError Simulated.State Replica :=
  (create (Simulated.device .direct) (bytewise flushUnit)).run () (Simulated.State.new {})

/-- The replica that is created. -/
def bytewiseReplica (flushUnit : Nat) : Replica :=
  initial (bytewise flushUnit) ⟨1, size, [2], 0, .plain⟩
    { pageSize := 1, hostVisible := 2, flushUnit := flushUnit }

/-- A guest with two pages of one byte. -/
def twoPages : GuestMemory := ⟨0, ⟨#[7, 8]⟩⟩

/-- Both of them are uploaded. -/
def uploadTwoPages (flushUnit : Nat) : Outcome Replica UploadError Simulated.State Unit :=
  (upload (Simulated.device .direct) twoPages .report 1 [⟨0, 2⟩]).run (bytewiseReplica flushUnit)
    (createBytewise flushUnit).device

theorem createBytewise_run {flushUnit : Nat}
    (h : (createBytewise flushUnit).ending = .done (bytewiseReplica flushUnit)) :
    (create (Simulated.device .direct) (bytewise flushUnit)).run () (Simulated.State.new {}) =
      ⟨.done (bytewiseReplica flushUnit), (), (createBytewise flushUnit).device,
        (createBytewise flushUnit).events⟩ := by
  rw [← h]
  rfl

theorem reachable_bytewise (flushUnit : Nat)
    (h : (createBytewise flushUnit).ending = .done (bytewiseReplica flushUnit)) :
    Reachable (Simulated.device .direct) (bytewiseReplica flushUnit) :=
  .intro (createBytewise_run h) (.nil _ _)

/-- Two pieces of a byte each are all of the range, which is traced once. -/
theorem upload_tiles_two_pages :
    (uploadTwoPages 1).ending = .done () ∧
      marksOf (uploadTwoPages 1).events =
        (targetsOf (uploadTwoPages 1).events).map (fun target => (target.1, target.2, false)) ∧
      targetsOf (uploadTwoPages 1).events = [(0, 1), (1, 1)] ∧
      ∃ reached, Cuts 1 [⟨0, 2⟩] (targetsOf (uploadTwoPages 1).events) [] ∧
        PageRange.Reaches 0 [⟨0, 2⟩] reached [] ∧
        tracesOf (uploadTwoPages 1).events = reached.flatMap fun range =>
          ReadTrace.report.events (toAddress (range.start <<< 0)) (toAddress (range.count <<< 0)) := by
  have hr := reachable_bytewise 1 (by decide +kernel)
  have hcovers : ∀ range ∈ ([⟨0, 2⟩] : List PageRange), range.count ≠ 0 →
      twoPages.Covers (range.start <<< (bytewiseReplica 1).pageBits)
        (range.count <<< (bytewiseReplica 1).pageBits) := by decide
  have hdone : (uploadTwoPages 1).ending = .done () := by decide +kernel
  obtain ⟨hreturns, htiles⟩ := upload_tiles hr rfl rfl (by decide) (by decide) hcovers
    (Outcome.eta (uploadTwoPages 1))
  have hreturned := hreturns Simulated.neverNull (by decide) (by decide)
  obtain ⟨hmarks, _, ⟨reached, left, hcuts, hreaches, hleft, htraces⟩, _⟩ := htiles hreturned
  rw [hleft.mp hdone] at hcuts hreaches
  exact ⟨hdone, hmarks, by decide +kernel, reached, hcuts, hreaches, htraces⟩

/-- Where a page and a flush unit add up to no size, an upload can be stopped between
two pieces, when the first one is claimed but not copied. -/
theorem marked_without_copy :
    Reachable (Simulated.device .direct) (bytewiseReplica Size.whole) ∧
      (∀ p ∈ (bytewiseReplica Size.whole).pool,
        p.config.pageSize + p.config.flushUnit = Size.limit) ∧
      PageRange.Sorted [⟨0, 2⟩] ∧
      PageRange.stop ⟨0, 2⟩ <<< (bytewiseReplica Size.whole).pageBits ≤ size ∧
      twoPages.Covers 0 2 ∧
      (uploadTwoPages Size.whole).ending = .broken .sizeOverflow ∧
      marksOf (uploadTwoPages Size.whole).events ≠
        (targetsOf (uploadTwoPages Size.whole).events).map
          (fun target => (target.1, target.2, false)) := by
  refine ⟨reachable_bytewise _ (by decide +kernel), ?_, by decide, by decide, by decide, ?_, ?_⟩
  · rintro p ⟨⟩
    decide
  · decide +kernel
  · decide +kernel

end Replica

end GuestReplica
