import GuestReplica.Proofs.Staging.Fit
import GuestReplica.Proofs.Upload.Deliveries

set_option autoImplicit false

/-!
# Copies of an upload

The copies that an upload records have different sources, one for each staging page that
it has written.  A batch is recorded when a piece comes from another page, so this takes
that the pool never returns to a page within an upload: a page that is left stays out of
reach until it is reclaimed, and what is recorded comes from pages that are left.
-/

namespace GuestReplica

open Staging (Allocation Pool)

/-! ## Sources of copies -/

/-- The buffer that a recorded copy reads. -/
def Event.source? : Event → Option Handle
  | .command (.copy source _ _) => some source
  | _ => none

/-- The sources of the recorded copies, in order. -/
def sourcesOf (events : List Event) : List Handle := events.filterMap Event.source?

@[simp] theorem sourcesOf_append (a b : List Event) :
    sourcesOf (a ++ b) = sourcesOf a ++ sourcesOf b :=
  List.filterMap_append

/-- The buffers that the host has written. -/
def writtenOf (events : List Event) : List Handle := (writesOf events).map (·.1)

@[simp] theorem writtenOf_append (a b : List Event) :
    writtenOf (a ++ b) = writtenOf a ++ writtenOf b := by
  simp [writtenOf]

/-- Some events neither record a copy nor write. -/
structure NoCopies (events : List Event) : Prop where
  sourcesOf_eq : sourcesOf events = []
  writesOf_eq : writesOf events = []

theorem NoCopies.sourcesOf_append {more : List Event} (h : NoCopies more) (events : List Event) :
    sourcesOf (events ++ more) = sourcesOf events := by
  rw [GuestReplica.sourcesOf_append, h.sourcesOf_eq, List.append_nil]

theorem NoCopies.writtenOf_append {more : List Event} (h : NoCopies more) (events : List Event) :
    writtenOf (events ++ more) = writtenOf events := by
  rw [writtenOf, writesOf_append, h.writesOf_eq, List.append_nil, writtenOf]

theorem noCopies_of_calls {events : List Event}
    (h : ∀ event ∈ events, ∃ call, event = .call call) : NoCopies events :=
  ⟨filterMap_of_calls (fun _ => rfl) h, filterMap_of_calls (fun _ => rfl) h⟩

theorem Upload.noCopies_announce (u : Upload) (range : PageRange) : NoCopies (u.announce range) :=
  ⟨filterMap_announce (fun _ _ => rfl) (fun _ => rfl) u range,
    filterMap_announce (fun _ _ => rfl) (fun _ => rfl) u range⟩

/-- The source of a batch, if that is to be recorded. -/
def Batch.sources (batch : Batch) : List Handle :=
  if batch.regions = [] then [] else [batch.source]

theorem Batch.mem_sources {batch : Batch} {source : Handle} :
    source ∈ batch.sources ↔ batch.regions ≠ [] ∧ source = batch.source := by
  by_cases hregions : batch.regions = [] <;> simp [sources, hregions]

theorem Batch.nodup_sources (batch : Batch) : batch.sources.Nodup := by
  unfold sources
  split <;> simp

@[simp] theorem Batch.sourcesOf_commands (batch : Batch) (target : Handle) :
    sourcesOf (batch.commands target) = batch.sources := by
  unfold commands sources
  split <;> rfl

@[simp] theorem Batch.writtenOf_commands (batch : Batch) (target : Handle) :
    writtenOf (batch.commands target) = [] := by
  unfold commands
  split <;> rfl

namespace Upload

variable {ε σ : Type} {d : Device σ} {u : Upload} {p q : Pool} {batch batch' : Batch}
variable {past events more : List Event}

/-! ## Regions that were staged -/

/-- The guest's bytes for a region were stored where the region is copied from. -/
def Wrote (u : Upload) (events : List Event) (source : Handle) (region : CopyRegion) : Prop :=
  ∃ bytes, (source, region.sourceOffset, bytes) ∈ writesOf events ∧
    u.guest.window? region.targetOffset region.size = some bytes

theorem Wrote.append {source : Handle} {region : CopyRegion} (h : u.Wrote events source region)
    (more : List Event) : u.Wrote (events ++ more) source region := by
  obtain ⟨bytes, hmem, hwindow⟩ := h
  refine ⟨bytes, ?_, hwindow⟩
  rw [writesOf_append]
  exact List.mem_append_left _ hmem

/-- A copy has regions, goes to the target, and copies what was stored before. -/
structure CopiesStaged (u : Upload) (before : List Event) (source target : Handle)
    (regions : List CopyRegion) : Prop where
  regions_ne : regions ≠ []
  target_eq : target = u.target
  wrote : ∀ region ∈ regions, u.Wrote before source region

/-- This is so of every copy among some events. -/
def AllStaged (u : Upload) (events : List Event) : Prop :=
  ∀ before after source target regions,
    events = before ++ .command (.copy source target regions) :: after →
    u.CopiesStaged before source target regions

theorem allStaged_nil (u : Upload) : u.AllStaged [] := by
  intro before after source target regions hcut
  cases before <;> cases hcut

theorem AllStaged.concat {event : Event} (h : u.AllStaged events)
    (hevent : ∀ {source target regions}, event = .command (.copy source target regions) →
      u.CopiesStaged events source target regions) : u.AllStaged (events ++ [event]) := by
  intro before after source target regions hcut
  rcases List.eq_nil_or_concat' after with rfl | ⟨after, last, rfl⟩
  · obtain ⟨rfl, hlast⟩ := List.append_inj' hcut rfl
    exact hevent (List.singleton_inj.mp hlast)
  · rw [← List.cons_append, ← List.append_assoc] at hcut
    exact h _ _ _ _ _ (List.append_inj' hcut rfl).1

theorem AllStaged.append (h : u.AllStaged events) (hmore : sourcesOf more = []) :
    u.AllStaged (events ++ more) := by
  rw [sourcesOf, List.filterMap_eq_nil_iff] at hmore
  induction more generalizing events with
  | nil => rwa [List.append_nil]
  | cons event rest ih =>
    obtain ⟨hevent, hrest⟩ := List.forall_mem_cons.mp hmore
    rw [List.append_cons]
    refine ih (h.concat fun heq => ?_) hrest
    rw [heq] at hevent
    cases hevent

theorem AllStaged.commands (h : u.AllStaged events)
    (hbatch : ∀ region ∈ batch.regions, u.Wrote events batch.source region) :
    u.AllStaged (events ++ batch.commands u.target) := by
  unfold Batch.commands
  split
  · rwa [List.append_nil]
  · next hregions =>
    refine h.concat fun heq => ?_
    cases heq
    exact ⟨hregions, rfl, hbatch⟩

end Upload

/-! ## Pages that are left -/

namespace Staging.Pool

variable {σ : Type} {d : Device σ} {p q : Pool} {submission : Nat} {buffer : Handle}
variable {events : List Event}

/-- The page with a buffer is not handed out anew before a submission is complete. -/
def Reserves (p : Pool) (submission : Nat) (buffer : Handle) : Prop :=
  ∃ stop, p.Guards submission buffer stop

/-- Nor is any more of it handed out. -/
def Leaves (p : Pool) (submission : Nat) (buffer : Handle) : Prop :=
  ∀ stop, p.Guards submission buffer stop

theorem Reserves.buffer_mem (h : p.Reserves submission buffer) : buffer ∈ p.buffers := by
  obtain ⟨_, index, page, hpage, rfl, _⟩ := h
  exact List.mem_map_of_mem (List.mem_of_getElem? hpage)

theorem Leaves.reserves (h : p.Leaves submission buffer) : p.Reserves submission buffer :=
  ⟨0, h 0⟩

/-- A page that is reserved is left when another one is current. -/
theorem Reserves.leaves {index : Nat} {a : Allocation} (h : p.Reserves submission buffer)
    (hcut : p.CutFrom index a) (hne : buffer ≠ a.buffer) : p.Leaves submission buffer := by
  obtain ⟨_, other, page, hpage, hbuffer, hlast, hwritable, _⟩ := h
  refine fun stop => ⟨other, page, hpage, hbuffer, hlast, hwritable, fun hcurrent => ?_⟩
  obtain ⟨current, hindex, ha, _⟩ := hcut.page
  obtain rfl := Option.some.inj (hcurrent.symm.trans hcut.current_eq)
  obtain rfl := Option.some.inj (hpage.symm.trans hindex)
  exact absurd (hbuffer.symm.trans ha.symm) hne

/-- A page that is left serves no request for the same submission. -/
theorem Requests.not_leaves {size alignment : Nat} {a : Allocation}
    (h : Requests d p submission size alignment (.done a) q events) (hnodup : q.buffers.Nodup) :
    ¬ p.Leaves submission a.buffer := by
  intro hleaves
  have hbehind := h.stop_le_offset hnodup (hleaves (a.offset + 1))
  omega

end Staging.Pool

namespace Upload

variable {ε σ : Type} {d : Device σ} {u : Upload} {p q : Pool} {batch batch' : Batch}
variable {past events more : List Event}

/-! ## Batches and the pages that they are gathered from -/

/-- The copies of an upload until now, and the batch that is to be recorded, have different
sources, which are all that was written.  The pages of the copies are left, and that of the
batch is reserved. -/
structure Gathers (u : Upload) (p : Pool) (batch : Batch) (past : List Event) : Prop where
  staged : u.AllStaged past
  gathered : ∀ region ∈ batch.regions, u.Wrote past batch.source region
  nodup : (sourcesOf past ++ batch.sources).Nodup
  leaves : ∀ source ∈ sourcesOf past, p.Leaves u.submission source
  reserves : ∀ source ∈ batch.sources, p.Reserves u.submission source
  written : ∀ buffer, buffer ∈ writtenOf past ↔ buffer ∈ sourcesOf past ++ batch.sources

/-- Nothing is gathered before the first piece. -/
theorem gathers_empty (u : Upload) (p : Pool) (h : NoCopies past) :
    u.Gathers p Batch.empty past := by
  have hstaged := (allStaged_nil u).append h.sourcesOf_eq
  refine ⟨hstaged, fun region hmem => ?_, ?_, fun source hmem => ?_, fun source hmem => ?_, ?_⟩
  · cases hmem
  · simp [h.sourcesOf_eq, Batch.nodup_sources]
  · rw [h.sourcesOf_eq] at hmem
    cases hmem
  · exact absurd rfl (Batch.mem_sources.mp hmem).1
  · simp [writtenOf, h.sourcesOf_eq, h.writesOf_eq, Batch.mem_sources, Batch.empty]

theorem Gathers.append (h : u.Gathers p batch past) (hmore : NoCopies more) :
    u.Gathers p batch (past ++ more) := by
  refine ⟨h.staged.append hmore.sourcesOf_eq,
    fun region hmem => (h.gathered region hmem).append more, ?_, ?_, h.reserves, ?_⟩
  · rw [hmore.sourcesOf_append]
    exact h.nodup
  · rw [hmore.sourcesOf_append]
    exact h.leaves
  · rw [hmore.sourcesOf_append, hmore.writtenOf_append]
    exact h.written

/-- Requests for the submission of the upload keep its pages. -/
theorem Gathers.request {size alignment : Nat} {ending : Ending StagingError Allocation}
    (h : u.Gathers p batch past)
    (hrequest : Pool.Requests d p u.submission size alignment ending q events) :
    u.Gathers q batch (past ++ events) := by
  have hkeeps : ∀ {source stop}, p.Guards u.submission source stop →
      q.Guards u.submission source stop := fun hguards => hrequest.guards (Nat.le_refl _) hguards
  have hq : u.Gathers q batch past :=
    ⟨h.staged, h.gathered, h.nodup, fun source hmem stop => hkeeps (h.leaves source hmem stop),
      fun source hmem => (h.reserves source hmem).imp fun _ => hkeeps, h.written⟩
  exact hq.append (noCopies_of_calls hrequest.calls)

/-! ## One piece -/

/-- The bytes of a piece were stored, and its region is to be added to the batch.  The piece
comes from the current page, which is not the source of a copy. -/
structure Offers (u : Upload) (p : Pool) (batch : Batch) (past : List Event) (a : Allocation)
    (region : CopyRegion) : Prop where
  staged : u.AllStaged past
  gathered : ∀ other ∈ batch.regions, u.Wrote past batch.source other
  wrote : u.Wrote past a.buffer region
  nodup : (sourcesOf past ++ batch.sources).Nodup
  not_mem : a.buffer ∉ sourcesOf past
  leaves : ∀ source ∈ sourcesOf past, p.Leaves u.submission source
  reserves : ∀ source ∈ batch.sources, p.Reserves u.submission source
  reserves_current : p.Reserves u.submission a.buffer
  current : ∃ index, p.CutFrom index a
  written : ∀ buffer, buffer ∈ writtenOf past ↔
    buffer ∈ sourcesOf past ++ batch.sources ++ [a.buffer]

variable {a : Allocation} {region : CopyRegion}

/-- The region is added to those of the same page. -/
theorem Offers.join (h : u.Offers p batch past a region) (hsame : a.buffer = batch.source) :
    u.Gathers p { batch with regions := batch.regions ++ [region] } past := by
  have hsources : Batch.sources { batch with regions := batch.regions ++ [region] } =
      [a.buffer] := by
    simp [Batch.sources, hsame]
  refine ⟨h.staged, ?_, ?_, h.leaves, ?_, fun buffer => ?_⟩
  · rw [List.forall_mem_append]
    refine ⟨h.gathered, fun other hmem => ?_⟩
    rw [List.mem_singleton.mp hmem, ← hsame]
    exact h.wrote
  · rw [hsources]
    refine List.nodup_append.mpr ⟨(List.nodup_append.mp h.nodup).1, by simp, ?_⟩
    rintro source hmem _ hsource rfl
    rw [List.mem_singleton.mp hsource] at hmem
    exact h.not_mem hmem
  · rw [hsources]
    intro source hmem
    rw [List.mem_singleton.mp hmem]
    exact h.reserves_current
  · have hbatch : buffer ∈ batch.sources → buffer = a.buffer := fun hmem =>
      (Batch.mem_sources.mp hmem).2.trans hsame.symm
    rw [h.written, hsources]
    simp only [List.mem_append, List.mem_singleton]
    tauto

/-- Otherwise the page of the batch is left, so the batch can be recorded. -/
theorem Offers.start (h : u.Offers p batch past a region) (hother : a.buffer ≠ batch.source) :
    u.Gathers p ⟨a.buffer, [region]⟩ (past ++ batch.commands u.target) := by
  have hbatch : a.buffer ∉ batch.sources := fun hmem => hother (Batch.mem_sources.mp hmem).2
  have hsources : Batch.sources ⟨a.buffer, [region]⟩ = [a.buffer] := rfl
  obtain ⟨index, hcut⟩ := h.current
  refine ⟨h.staged.commands h.gathered, ?_, ?_, ?_, ?_, fun buffer => ?_⟩
  · intro other hmem
    rw [List.mem_singleton.mp hmem]
    exact h.wrote.append _
  · rw [sourcesOf_append, Batch.sourcesOf_commands, hsources]
    refine List.nodup_append.mpr ⟨h.nodup, by simp, ?_⟩
    rintro source hmem _ hsource rfl
    rw [List.mem_singleton.mp hsource] at hmem
    exact (List.mem_append.mp hmem).elim h.not_mem hbatch
  · rw [sourcesOf_append, Batch.sourcesOf_commands, List.forall_mem_append]
    refine ⟨h.leaves, fun source hmem => (h.reserves source hmem).leaves hcut ?_⟩
    rintro rfl
    exact hbatch hmem
  · rw [hsources]
    intro source hmem
    rw [List.mem_singleton.mp hmem]
    exact h.reserves_current
  · rw [writtenOf_append, Batch.writtenOf_commands, List.append_nil, sourcesOf_append,
      Batch.sourcesOf_commands, hsources]
    exact h.written buffer

/-- The bytes of a piece are stored before its region is added to the batch. -/
theorem StagesPiece.gathers {address index : Nat}
    (h : StagesPiece (ε := ε) u batch address a (.done batch') events)
    (hgathers : u.Gathers p batch past) (hcut : p.CutFrom index a)
    (hreserves : p.Reserves u.submission a.buffer) (hnew : a.buffer ∉ sourcesOf past) :
    u.Gathers p batch' (past ++ events) := by
  cases h with
  | @filled bytes _ pushed hwindow hpush =>
    let stored := claims address a.size ++ [.hostWrite a.buffer a.memory a.offset bytes]
    have hsources : sourcesOf (past ++ stored) = sourcesOf past := by
      rw [sourcesOf_append]
      exact List.append_nil _
    have hoffers : u.Offers p batch (past ++ stored) a ⟨a.offset, address, a.size⟩ := by
      refine ⟨hgathers.staged.append rfl,
        fun other hmem => (hgathers.gathered other hmem).append stored, ⟨bytes, ?_, hwindow⟩, ?_, ?_,
        ?_, hgathers.reserves, hreserves, ⟨index, hcut⟩, fun buffer => ?_⟩
      · rw [writesOf_append]
        exact List.mem_append_right _ List.mem_cons_self
      · rw [hsources]
        exact hgathers.nodup
      · rwa [hsources]
      · rw [hsources]
        exact hgathers.leaves
      · have hwritten : writtenOf stored = [a.buffer] := rfl
        simp only [writtenOf_append, hwritten, hsources, List.mem_append, hgathers.written]
    have hevents : past ++ (claims address a.size ++
        .hostWrite a.buffer a.memory a.offset bytes :: pushed) = past ++ stored ++ pushed := by
      simp [stored]
    rw [hevents]
    cases hpush with
    | joined hsame =>
      rw [List.append_nil]
      exact hoffers.join hsame
    | started hother _ => exact hoffers.start hother

/-! ## The pages of a range -/

theorem StagesPages.gathers {start remaining : Nat} {failure : Option StagingError}
    (h : StagesPages (ε := ε) d u p batch start remaining (.done (batch', failure)) q events)
    (hp : p.Valid) (hnodup : (u.target :: q.buffers).Nodup) (hgathers : u.Gathers p batch past) :
    u.Gathers q batch' (past ++ events) := by
  generalize hending : Ending.done (batch', failure) = ending at h
  induction h generalizing past with
  | finished p batch start =>
    cases hending
    rwa [List.append_nil]
  | failed _ hrequest =>
    cases hending
    exact hgathers.request hrequest
  | stopped _ _ => cases hending
  | broken _ _ _ => cases hending
  | uneven _ _ _ _ => cases hending
  | @piece p q r batch batch₁ start remaining a _ requested staged rest _ hrequest hpiece _ hrest ih =>
    have hnodup' := (List.nodup_cons.mp (hrest.gains.nodup hnodup)).2
    have hrequested := hgathers.request hrequest
    obtain ⟨index, hcut⟩ := hrequest.cutFrom
    have hreserves : q.Reserves u.submission a.buffer := ⟨_, hrequest.guards_allocation hp⟩
    have hnew : a.buffer ∉ sourcesOf (past ++ requested) := by
      rw [(noCopies_of_calls hrequest.calls).sourcesOf_append]
      exact fun hmem => hrequest.not_leaves hnodup' (hgathers.leaves _ hmem)
    have hstaged := hpiece.gathers hrequested hcut hreserves hnew
    have hall := ih (hrequest.valid hp) hnodup hstaged hending
    simpa using hall

/-! ## Ranges -/

theorem StagesRanges.gathers {ranges : List PageRange} {failure : Option StagingError}
    (h : StagesRanges (ε := ε) d u p batch ranges (.done (batch', failure)) q events)
    (hp : p.Valid) (hnodup : (u.target :: q.buffers).Nodup) (hgathers : u.Gathers p batch past) :
    u.Gathers q batch' (past ++ events) := by
  generalize hending : Ending.done (batch', failure) = ending at h
  induction h generalizing past with
  | finished p batch =>
    cases hending
    rwa [List.append_nil]
  | @failed _ _ _ _ range _ _ _ hpages =>
    cases hending
    rw [← List.append_assoc]
    exact hpages.gathers hp hnodup (hgathers.append (u.noCopies_announce range))
  | broken _ => cases hending
  | @range _ _ _ _ _ range _ _ _ _ hpages hrest ih =>
    have hvalid := hpages.keeps (fun hrequest _ => hrequest.valid) hp
    have hnext := hpages.gathers hp (hrest.gains.nodup hnodup)
      (hgathers.append (u.noCopies_announce range))
    have hall := ih hvalid hnodup hnext hending
    simpa using hall

/-! ## The whole -/

/-- The copies among some events copy what was staged before, and there is one for each page
that was written. -/
structure CopiesPages (u : Upload) (q : Pool) (events : List Event) : Prop where
  staged : u.AllStaged events
  nodup : (sourcesOf events).Nodup
  written : ∀ buffer, buffer ∈ writtenOf events ↔ buffer ∈ sourcesOf events
  subset : sourcesOf events ⊆ q.buffers

theorem Gathers.copiesPages (h : u.Gathers q batch past) :
    u.CopiesPages q (past ++ batch.commands u.target) := by
  refine ⟨h.staged.commands h.gathered, ?_, fun buffer => ?_, ?_⟩
  · rw [sourcesOf_append, Batch.sourcesOf_commands]
    exact h.nodup
  · rw [writtenOf_append, Batch.writtenOf_commands, List.append_nil, sourcesOf_append,
      Batch.sourcesOf_commands]
    exact h.written buffer
  · intro source hmem
    rw [sourcesOf_append, Batch.sourcesOf_commands] at hmem
    rcases List.mem_append.mp hmem with hmem | hmem
    · exact (h.leaves source hmem).reserves.buffer_mem
    · exact (h.reserves source hmem).buffer_mem

theorem CopiesPages.append (h : u.CopiesPages q events) (hmore : NoCopies more) :
    u.CopiesPages q (events ++ more) := by
  refine ⟨h.staged.append hmore.sourcesOf_eq, ?_, ?_, ?_⟩
  · rw [hmore.sourcesOf_append]
    exact h.nodup
  · rw [hmore.sourcesOf_append, hmore.writtenOf_append]
    exact h.written
  · rw [hmore.sourcesOf_append]
    exact h.subset

/-- There are as many copies as pages that were written. -/
theorem CopiesPages.length_eq (h : u.CopiesPages q events) (hnodup : q.buffers.Nodup) :
    (sourcesOf events).length =
      (q.pages.filter fun page => page.buffer ∈ writtenOf events).length := by
  have hfilter : (q.pages.filter fun page => page.buffer ∈ writtenOf events).map (·.buffer) =
      q.buffers.filter (· ∈ writtenOf events) := by
    rw [Pool.buffers, List.filter_map]
    rfl
  have hperm : (sourcesOf events).Perm (q.buffers.filter (· ∈ writtenOf events)) := by
    rw [List.perm_ext_iff_of_nodup h.nodup (hnodup.filter _)]
    intro buffer
    rw [List.mem_filter, decide_eq_true_eq, h.written]
    exact ⟨fun hmem => ⟨h.subset hmem, hmem⟩, fun hmem => hmem.2⟩
  rw [hperm.length_eq, ← hfilter, List.length_map]

/-- What is staged is recorded in the end, whether or not a request failed. -/
theorem Stages.copiesPages {ranges : List PageRange} {failure : Option StagingError}
    (h : Stages (ε := ε) d u p ranges (.done failure) q events) (hp : p.Valid)
    (hnodup : (u.target :: q.buffers).Nodup) (hpast : NoCopies past) :
    u.CopiesPages q (past ++ events) := by
  cases h with
  | @staged _ batch _ _ hranges _ =>
    rw [← List.append_assoc]
    exact (hranges.gathers hp hnodup (gathers_empty u p hpast)).copiesPages

end Upload

end GuestReplica
