import GuestReplica.Proofs.Replica.Closed
import GuestReplica.Proofs.Upload.Batches

set_option autoImplicit false

/-!
# Copies into the buffer of a replica

Until a replica is shut down, its buffer and the buffers of its staging pages are live
buffers.  As long as these have different handles, an upload records one copy for each
staging page that it uses, whether it succeeds or fails, and each region is copied from
where its bytes were staged before.
-/

namespace GuestReplica.Replica

open Staging (Pool)

variable {σ : Type} {d : Device σ} {r r' : Replica} {s s' : σ} {events : List Event}
variable {p q : Pool} {guest : GuestMemory} {trace : ReadTrace} {submission : Nat}
variable {ranges : List PageRange} {steps : List ReplicaStep} {live : List Handle}

/-! ## Live buffers -/

/-- A replica that has a pool was not shut down. -/
theorem stays_open_of_pool (h : Runs (Use.action d) r s steps r' s') (hpool : r'.pool = some p) :
    ∀ step ∈ steps, step.use ≠ .shutdown := by
  intro step hmem huse
  obtain ⟨before, after, rfl⟩ := List.append_of_mem hmem
  obtain ⟨r₁, s₁, _, hfrom⟩ := h.split
  obtain ⟨r₂, s₂, hstep, hafter⟩ := hfrom.uncons
  rw [huse] at hstep
  obtain ⟨rfl, _⟩ := (performs_of_run hstep).eq_closed
  exact (closed_of_runs hafter (closed_closed r₁)).pool_ne_some p hpool

/-- Where the buffer and those of the pages are live buffers, they stay so. -/
theorem live_of_runs (h : Runs (Use.action d) r s steps r' s')
    (hopen : ∀ step ∈ steps, step.use ≠ .shutdown) (hpool : r.pool = some p)
    (hlive : (r.buffer :: p.buffers).Subperm live) :
    ∃ q, r'.pool = some q ∧
      (r'.buffer :: q.buffers).Subperm (liveBuffers live (eventsOf steps)) := by
  induction h generalizing p live with
  | nil r s => exact ⟨p, hpool, hlive⟩
  | @cons r r₁ r₂ s s₁ s₂ use answer events rest hstep _ ih =>
    have hperforms := performs_of_run hstep
    have huse := hopen _ List.mem_cons_self
    obtain ⟨q, hpool', hgains⟩ := hperforms.gains huse hpool
    have hheld : ([r.buffer] ++ p.buffers).Subperm live := hlive
    have hlive' : (r.buffer :: q.buffers).Subperm (liveBuffers live events) :=
      hgains.subperm hheld
    rw [← (hperforms.frame huse).buffer_eq] at hlive'
    rw [eventsOf_cons, liveBuffers_append]
    exact ih (fun step hmem => hopen step (List.mem_cons_of_mem _ hmem)) hpool' hlive'

/-! ## Uploads -/

theorem noCopies_barriers (r : Replica) (mode : Access.Mode) : NoCopies (r.barriers mode) :=
  ⟨filterMap_barriers (fun _ => rfl) r mode, filterMap_barriers (fun _ => rfl) r mode⟩

theorem noCopies_complaint (failure : Option StagingError) : NoCopies (complaint failure) := by
  cases failure <;> exact ⟨rfl, rfl⟩

/-- An upload that returns, whether or not it has failed, has recorded the copies of the pages
that it has written. -/
theorem Uploads.copiesPages {ending : Ending UploadError Unit}
    (h : Uploads d guest trace submission r ranges ending r' events) (hreturns : ending.Returns)
    (hp : p.Valid) (hpool : r.pool = some p) (hpool' : r'.pool = some q)
    (hnodup : (r.buffer :: q.buffers).Nodup) :
    (r.job guest trace submission).CopiesPages q events := by
  rcases h.stages hreturns with ⟨_, rfl, rfl⟩ |
    ⟨first, last, p₁, q₁, failure, staged, _, hpool₁, hstages, rfl, rfl, _⟩
  · exact ⟨Upload.allStaged_nil _, List.nodup_nil, fun _ => Iff.rfl, List.nil_subset _⟩
  · obtain rfl := Option.some.inj (hpool.symm.trans hpool₁)
    obtain rfl := Option.some.inj hpool'
    have hcopies := hstages.copiesPages hp hnodup (noCopies_barriers r .transferDestination)
    exact hcopies.append (noCopies_complaint failure)

/-- Let a replica be used in any way, but not be shut down, and let no two live buffers share
a handle.  If an upload returns, whether or not it has failed, each copy that it has recorded
has regions, goes to the buffer of the replica, and copies each region from where the guest's
bytes for it were stored before.  No two of these copies have the same source, and there are
as many of them as staging pages that were written. -/
theorem upload_copies_once {config : Config} {r₀ : Replica} {s₁ s₀ : σ} {created : List Event}
    {ending : Ending UploadError Unit}
    (hcreate : (create d config).run () s₁ = ⟨.done r₀, (), s₀, created⟩)
    (hrun : Runs (Use.action d) r₀ s₀ steps r s) (hpool : r.pool = some p)
    (hupload : (upload d guest trace submission ranges).run r s = ⟨ending, r', s', events⟩)
    (hbuffers : DistinctBuffers [] (created ++ eventsOf steps ++ events))
    (hreturns : ending.Returns) :
    ∃ q, r'.pool = some q ∧
      (∀ before after source target regions,
        events = before ++ .command (.copy source target regions) :: after →
        regions ≠ [] ∧ target = r.buffer ∧ ∀ region ∈ regions, ∃ bytes,
          (source, region.sourceOffset, bytes) ∈ writesOf before ∧
            guest.window? region.targetOffset region.size = some bytes) ∧
      (sourcesOf events).Nodup ∧
      (sourcesOf events).length =
        (q.pages.filter fun page => page.buffer ∈ writtenOf events).length := by
  have huploads := uploads_of_run hupload
  have hvalid := valid_of_runs hrun (valid_of_create hcreate)
  have hopen := stays_open_of_pool hrun hpool
  obtain ⟨store, staging, _, _, _, rfl, hlive⟩ := create_done hcreate
  have hheld : ([store.buffer] : List Handle).Subperm (liveBuffers [] created) :=
    List.singleton_subperm_iff.mpr (hlive [])
  obtain ⟨p', hp', hlive'⟩ := live_of_runs hrun hopen rfl hheld
  obtain rfl := Option.some.inj (hpool.symm.trans hp')
  obtain ⟨q, hpool', hgains⟩ := huploads.gains hpool
  -- the buffers of all pages are live after the upload, hence distinct
  have hnodup : (r.buffer :: q.buffers).Nodup := by
    have hall : ([r.buffer] ++ q.buffers).Subperm
        (liveBuffers (liveBuffers (liveBuffers [] created) (eventsOf steps)) events) :=
      hgains.subperm hlive'
    rw [← liveBuffers_append, ← liveBuffers_append] at hall
    obtain ⟨l, hperm, hsub⟩ := hall
    have hdistinct := (distinctBuffers_append (b := [])).mp (by simpa using hbuffers)
    exact hperm.nodup_iff.mp (hdistinct.2.nodup.sublist hsub)
  have hcopies := huploads.copiesPages hreturns (hvalid.pool_valid p hpool) hpool hpool' hnodup
  refine ⟨q, hpool', fun before after source target regions hcut => ?_, hcopies.nodup,
    hcopies.length_eq (List.nodup_cons.mp hnodup).2⟩
  obtain ⟨hregions, htarget, hwrote⟩ := hcopies.staged before after source target regions hcut
  exact ⟨hregions, htarget, hwrote⟩

/-- Two pages that do not fit in one staging page are copied by two commands. -/
theorem upload_copies_once_two_pages :
    sourcesOf (uploadTwoPages 1).events = [3, 5] ∧
      ∃ q, (uploadTwoPages 1).subject.pool = some q ∧
        2 = (q.pages.filter fun page => page.buffer ∈ writtenOf (uploadTwoPages 1).events).length := by
  have hcreated : (createBytewise 1).ending = .done (bytewiseReplica 1) := by decide +kernel
  have hreturns : (uploadTwoPages 1).ending.Returns := by
    have hdone : (uploadTwoPages 1).ending = .done () := by decide +kernel
    rw [hdone]
    exact Ending.returns_done ()
  have hbuffers : DistinctBuffers [] ((createBytewise 1).events ++
      eventsOf ([] : List ReplicaStep) ++ (uploadTwoPages 1).events) := by decide +kernel
  have hsources : sourcesOf (uploadTwoPages 1).events = [3, 5] := by decide +kernel
  obtain ⟨q, hpool, _, _, hlength⟩ := upload_copies_once (createBytewise_run hcreated) (.nil _ _)
    rfl (Outcome.eta (uploadTwoPages 1)) hbuffers hreturns
  rw [hsources] at hlength
  exact ⟨hsources, q, hpool, hlength⟩

end GuestReplica.Replica
