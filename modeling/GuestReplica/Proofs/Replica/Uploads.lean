import GuestReplica.Proofs.Replica.Runs
import GuestReplica.Proofs.Upload.Ranges

set_option autoImplicit false

/-!
# Uploads into a replica

An upload that returns has declared the bytes from its first page to its last, and
has staged pieces of its ranges.  It does return when the guest has the pages, and
the pool serves them.
-/

namespace GuestReplica.Replica

variable {σ : Type} {d : Device σ} {r r' : Replica} {s s' : σ} {events : List Event}
variable {guest : GuestMemory} {trace : ReadTrace} {submission : Nat} {ranges : List PageRange}

/-- The offsets and sizes of all recorded copies, in order. -/
def targetsOf (events : List Event) : List (Nat × Nat) :=
  (regionsOf events).map fun region => (region.targetOffset, region.size)

theorem Accepts.sorted {first last : PageRange} (h : Accepts ranges first last) :
    PageRange.Sorted ranges :=
  PageRange.sorted_of_checkOrder h.ordered

theorem Accepts.stop_lt_of_mem {first last range : PageRange} (h : Accepts ranges first last)
    (hmem : range ∈ ranges) : range.stop < addressLimit :=
  Nat.lt_of_le_of_lt (h.sorted.stop_le_last h.last_eq hmem) h.stop_lt

/-- What an upload says about its failure, if it has failed. -/
def complaint : Option StagingError → List Event
  | none => []
  | some e => [.notice (.uploadFailed (.stagingAllocation e))]

/-- An upload that returns had nothing to do, or it has staged its ranges, after the
barrier and before the complaint. -/
theorem Uploads.stages {ending : Ending UploadError Unit}
    (h : Uploads d guest trace submission r ranges ending r' events) (hreturns : ending.Returns) :
    (ranges = [] ∧ r' = r ∧ events = []) ∨
      ∃ first last p q failure staged, Accepts ranges first last ∧ r.pool = some p ∧
        (r.job guest trace submission).Stages (ε := UploadError) d p ranges (.done failure) q
          staged ∧
        r' = (r.declared .transferDestination (r.uploadSpan first last)).putPool q ∧
        events = r.barriers .transferDestination ++ staged ++ complaint failure ∧
        (ending = .done () ↔ failure = none) := by
  cases h with
  | idle hnil => exact .inl ⟨hnil, rfl, rfl⟩
  | @refused v _ _ => exact absurd rfl (hreturns v)
  | shutDown _ _ => exact absurd rfl (hreturns _)
  | @broken _ _ _ _ v _ _ _ _ => exact absurd rfl (hreturns v)
  | @finished first last p q staged haccepts hpool hstages =>
    refine .inr ⟨first, last, p, q, none, staged, haccepts, hpool, hstages, rfl, ?_, by simp⟩
    exact (List.append_nil _).symm
  | @failed first last p q e staged haccepts hpool hstages =>
    exact .inr ⟨first, last, p, q, some e, staged, haccepts, hpool, hstages, rfl, rfl, by simp⟩

/-- The barrier is a command, but not a copy. -/
theorem filterMap_barriers {α : Type} {f : Event → Option α}
    (hf : ∀ barrier, f (.command (.barrier barrier)) = none) (r : Replica) (mode : Access.Mode) :
    (r.barriers mode).filterMap f = [] := by
  unfold barriers
  cases r.access.transition? mode <;> simp [hf]

/-- The barrier stages nothing. -/
theorem staged_barriers (u : Upload) (r : Replica) (mode : Access.Mode) :
    u.Staged (r.barriers mode) [] ∧ sourcedOf (r.barriers mode) = [] ∧
      tracesOf (r.barriers mode) = [] := by
  unfold barriers
  cases r.access.transition? mode <;> exact ⟨⟨rfl, rfl, rfl⟩, rfl, rfl⟩

theorem lookedUp_barriers (r : Replica) (mode : Access.Mode) : lookedUp (r.barriers mode) = 0 := by
  rw [lookedUp, lookupsOf, filterMap_barriers (fun _ => rfl)]
  rfl

/-- Neither does the complaint. -/
theorem staged_complaint (u : Upload) (failure : Option StagingError) :
    u.Staged (complaint failure) [] ∧ sourcedOf (complaint failure) = [] ∧
      tracesOf (complaint failure) = [] := by
  cases failure <;> exact ⟨⟨rfl, rfl, rfl⟩, rfl, rfl⟩

/-- What an upload that returns has done: it has staged pieces, which cut its ranges
front to back as far as these were reached, and has announced the ranges that were reached. -/
structure Uploaded (r : Replica) (guest : GuestMemory) (trace : ReadTrace) (submission : Nat)
    (ranges : List PageRange) (events : List Event) (pieces : List Piece)
    (reached : List PageRange) (left : List Span) : Prop where
  staged : (r.job guest trace submission).Staged events pieces
  sourced : sourcedOf events = pieces.map Piece.sourced
  cuts : Cuts (1 <<< r.pageBits) (ranges.map (·.bytes r.pageBits)) (pieces.map Piece.extent) left
  reaches : PageRange.Reaches r.pageBits ranges reached left
  traces : tracesOf events = reached.flatMap (r.job guest trace submission).announce

theorem Uploads.uploaded {ending : Ending UploadError Unit}
    (h : Uploads d guest trace submission r ranges ending r' events) (hr : r.Valid)
    (hranges : ranges ≠ []) (hreturns : ending.Returns) :
    ∃ first last pieces reached left, Accepts ranges first last ∧
      r'.access = r.access.advance .transferDestination (r.uploadSpan first last) ∧
      Uploaded r guest trace submission ranges events pieces reached left ∧
      (ending = .done () ↔ left = []) := by
  rcases h.stages hreturns with ⟨hnil, _⟩ |
    ⟨first, last, p, q, failure, staged, haccepts, hpool, hstages, rfl, rfl, hdone⟩
  · exact absurd hnil hranges
  · have hcounts : ∀ range ∈ ranges, range.count < addressLimit := by
      intro range hmem
      exact Nat.lt_of_le_of_lt range.count_le_stop (haccepts.stop_lt_of_mem hmem)
    obtain ⟨pieces, reached, left, hstaged, hsourced, hcuts, hreaches, hleft, htraces⟩ :=
      hstages.advances (hr.pool_valid p hpool) (hr.pool_aligned p hpool) hcounts
    obtain ⟨hbarriers, hnosource, hnotrace⟩ :=
      staged_barriers (r.job guest trace submission) r .transferDestination
    obtain ⟨hcomplaint, hnosource', hnotrace'⟩ :=
      staged_complaint (r.job guest trace submission) failure
    refine ⟨first, last, pieces, reached, left, haccepts, rfl, ⟨?_, ?_, hcuts, hreaches, ?_⟩,
      hdone.trans hleft⟩
    · simpa using (hbarriers.append hstaged).append hcomplaint
    · simp [hnosource, hnosource', hsourced]
    · simp [hnotrace, hnotrace', htraces]

/-- An upload of pages that the guest has is not stopped, unless the pool gets stuck. -/
theorem Uploads.stuck {p : Staging.Pool} {v : Violation}
    (h : Uploads d guest trace submission r ranges (.broken v) r' events) (hd : d.NeverNull)
    (hpool : r.pool = some p) (hp : p.Sound (1 <<< r.pageBits))
    (hsorted : PageRange.Sorted ranges)
    (hlimit : ∀ range ∈ ranges, range.stop <<< r.pageBits < addressLimit)
    (hcovers : ∀ range ∈ ranges, range.count ≠ 0 →
      guest.Covers (range.start <<< r.pageBits) (range.count <<< r.pageBits)) :
    v = .sizeOverflow ∧ ∃ q, r'.pool = some q ∧ q.config = p.config ∧ q.Valid ∧
      Staging.Pool.Stuck p q (1 <<< r.pageBits) (lookedUp events)
        (PageRange.total ranges r.pageBits) := by
  have hstop : ∀ range ∈ ranges, range.stop < addressLimit := by
    intro range hmem
    exact Nat.lt_of_shiftLeft_lt (hlimit range hmem)
  cases h with
  | refused hranges hrefused =>
    have hhead := List.head?_eq_some_head hranges
    have hlast := List.getLast?_eq_some_getLast hranges
    exact absurd ⟨_, _, hhead, hlast, hsorted.checkOrder_eq hstop,
      hstop _ (List.getLast_mem hranges)⟩ hrefused
  | shutDown _ hclosed =>
    rw [hpool] at hclosed
    cases hclosed
  | @broken _ _ _ q _ _ _ hpool' hstages =>
    rw [hpool] at hpool'
    cases hpool'
    obtain ⟨hv, hstuck⟩ := Upload.Stages.progress hd hstages hp hcovers hlimit
    have hconfig : q.config = p.config :=
      hstages.keeps (fun hrequest _ heq => hrequest.config_eq.trans heq) rfl
    have hvalid : q.Valid := hstages.keeps (fun hrequest _ => hrequest.valid) hp.valid
    rw [lookedUp_append, lookedUp_barriers, Nat.zero_add]
    exact ⟨hv, q, rfl, hconfig, hvalid, hstuck⟩

/-- An upload of pages that the guest has, through a pool that serves them, is not
stopped. -/
theorem Uploads.not_broken {p : Staging.Pool} {v : Violation} (hd : d.NeverNull)
    (hpool : r.pool = some p)
    (hp : p.Serves (1 <<< r.pageBits) (PageRange.total ranges r.pageBits))
    (hsorted : PageRange.Sorted ranges)
    (hlimit : ∀ range ∈ ranges, range.stop <<< r.pageBits < addressLimit)
    (hcovers : ∀ range ∈ ranges, range.count ≠ 0 →
      guest.Covers (range.start <<< r.pageBits) (range.count <<< r.pageBits)) :
    ¬ Uploads d guest trace submission r ranges (.broken v) r' events := by
  intro h
  obtain ⟨_, q, _, hconfig, hq, hstuck⟩ := h.stuck hd hpool ⟨hp.valid, hp.aligned, hp.nonNull⟩
    hsorted hlimit hcovers
  exact hp.not_stuck hq hconfig hstuck

end GuestReplica.Replica
