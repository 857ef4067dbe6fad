import GuestReplica.Proofs.Staging.Allocations
import GuestReplica.Proofs.Staging.Objects
import GuestReplica.Proofs.Upload.Steps

set_option autoImplicit false

/-!
# What an upload does to the objects of a device

The staging of guest pages creates no objects but staging pages.  The copies that it
records name the buffers of such pages, and the buffer that the guest's bytes go to.
-/

namespace GuestReplica

open Staging (Allocation Pool)

variable {ε σ : Type} {d : Device σ} {u : Upload} {p q : Pool} {batch batch' : Batch}
variable {o : Ledger} {others : List Object} {events : List Event} {target : Handle}

/-! ## Batches -/

/-- The regions of a batch come from a page of the pool. -/
def Batch.IsFrom (batch : Batch) (p : Pool) : Prop :=
  batch.regions ≠ [] → batch.source ∈ p.buffers

theorem Batch.isFrom_empty (p : Pool) : Batch.empty.IsFrom p := fun h => absurd rfl h

theorem Batch.IsFrom.mono (h : batch.IsFrom p) (hsubset : p.buffers ⊆ q.buffers) :
    batch.IsFrom q :=
  fun hregions => hsubset (h hregions)

/-- A batch that is recorded names live buffers. -/
theorem Batch.IsFrom.leads (h : batch.IsFrom p) (ho : o.Holds (p.objects ++ others))
    (htarget : .buffer target ∈ others) :
    o.Leads (batch.commands target) (p.objects ++ others) := by
  unfold commands
  split
  · exact ho.leads_nil
  · next hregions =>
    refine ⟨⟨trivial, trivial⟩, ⟨fun buffer hmem => ?_, trivial⟩, ho.perm⟩
    simp only [Command.buffers, List.mem_cons, List.not_mem_nil, or_false] at hmem
    rcases hmem with rfl | rfl
    · exact ho.mem (List.mem_append_left _ (Pool.buffer_mem_objects (h hregions)))
    · exact ho.mem (List.mem_append_right _ htarget)

theorem Batch.Pushes.leads {source : Handle} {region : CopyRegion} {ending : Ending ε Batch}
    (h : batch.Pushes target source region ending events) (hbatch : batch.IsFrom p)
    (ho : o.Holds (p.objects ++ others)) (htarget : .buffer target ∈ others) :
    o.Leads events (p.objects ++ others) := by
  cases h with
  | joined _ => exact ho.leads_nil
  | sourceless _ _ => exact ho.leads_nil
  | started _ _ => exact hbatch.leads ho htarget

/-- The last region of a batch comes from the same buffer as the others. -/
theorem Batch.Pushes.source_eq {source : Handle} {region : CopyRegion}
    (h : batch.Pushes (ε := ε) target source region (.done batch') events) :
    batch'.source = source := by
  cases h with
  | joined hsource => exact hsource.symm
  | started _ _ => rfl

namespace Upload

/-! ## Pieces and pages -/

theorem StagesPiece.leads {address : Nat} {piece : Allocation} {ending : Ending ε Batch}
    (h : StagesPiece u batch address piece ending events) (hbatch : batch.IsFrom p)
    (ho : o.Holds (p.objects ++ others)) (htarget : .buffer u.target ∈ others) :
    o.Leads events (p.objects ++ others) := by
  cases h with
  | outside _ => exact ⟨⟨trivial, trivial, trivial⟩, ⟨trivial, trivial, trivial⟩, ho.perm⟩
  | filled _ hpush =>
    have hpushed := hpush.leads hbatch ho htarget
    exact ⟨⟨trivial, trivial, trivial, hpushed.orderly⟩, ⟨trivial, trivial, trivial, hpushed.sparing⟩,
      hpushed.perm⟩

theorem StagesPiece.source_eq {address : Nat} {piece : Allocation}
    (h : StagesPiece (ε := ε) u batch address piece (.done batch') events) :
    batch'.source = piece.buffer := by
  cases h with
  | filled _ hpush => exact hpush.source_eq

/-- A batch with the piece of a request comes from a page of the pool. -/
theorem isFrom_of_request {submission size alignment address : Nat} {piece : Allocation}
    {staged : List Event}
    (hrequest : Pool.Requests d p submission size alignment (.done piece) q events)
    (hpiece : StagesPiece (ε := ε) u batch address piece (.done batch') staged) :
    batch'.IsFrom q := by
  intro _
  rw [hpiece.source_eq]
  exact hrequest.buffer_mem

/-- Copying a piece into the memory of a request creates no objects but a staging page. -/
theorem leads_requested {submission size alignment address : Nat} {piece : Allocation}
    {ending : Ending ε Batch} {asked staged : List Event}
    (hrequest : Pool.Requests d p submission size alignment (.done piece) q asked)
    (hpiece : StagesPiece u batch address piece ending staged) (hbatch : batch.IsFrom p)
    (ho : o.Holds (p.objects ++ others)) (htarget : .buffer u.target ∈ others)
    (hfresh : o.Fresh (asked ++ staged)) : o.Leads (asked ++ staged) (q.objects ++ others) :=
  ho.leads_append hfresh (hrequest.leads ho) fun ho _ =>
    hpiece.leads (hbatch.mono hrequest.gains.subset) ho htarget

theorem StagesPages.leads {start remaining : Nat}
    {ending : Ending ε (Batch × Option StagingError)}
    (h : StagesPages d u p batch start remaining ending q events) (hbatch : batch.IsFrom p)
    (ho : o.Holds (p.objects ++ others)) (htarget : .buffer u.target ∈ others)
    (hfresh : o.Fresh events) :
    o.Leads events (q.objects ++ others) ∧
      ∀ batch' failure, ending = .done (batch', failure) → batch'.IsFrom q := by
  induction h generalizing o with
  | finished p batch start =>
    refine ⟨ho.leads_nil, ?_⟩
    rintro _ _ ⟨⟩
    exact hbatch
  | failed _ hrequest =>
    refine ⟨hrequest.leads ho hfresh, ?_⟩
    rintro _ _ ⟨⟩
    exact hbatch.mono hrequest.gains.subset
  | stopped _ hrequest =>
    refine ⟨hrequest.leads ho hfresh, ?_⟩
    rintro _ _ ⟨⟩
  | broken _ hrequest hpiece =>
    refine ⟨leads_requested hrequest hpiece hbatch ho htarget hfresh, ?_⟩
    rintro _ _ ⟨⟩
  | uneven _ hrequest hpiece _ =>
    refine ⟨leads_requested hrequest hpiece hbatch ho htarget hfresh, ?_⟩
    rintro _ _ ⟨⟩
  | piece _ hrequest hpiece _ _ ih =>
    obtain ⟨hbefore, hlater⟩ := Ledger.fresh_append.mp hfresh
    have hstaged := leads_requested hrequest hpiece hbatch ho htarget hbefore
    obtain ⟨hrest, hbatch'⟩ :=
      ih (isFrom_of_request hrequest hpiece) (ho.after hbefore hstaged) hlater
    exact ⟨hstaged.trans hrest, hbatch'⟩

/-! ## Ranges -/

/-- The announcement of a range has no effect. -/
theorem leads_announce {objects : List Object} (ho : o.Holds objects) (range : PageRange) :
    o.Leads (u.announce range) objects := by
  unfold announce
  cases u.trace with
  | off => exact ho.leads_nil
  | log => exact ⟨⟨trivial, trivial⟩, ⟨trivial, trivial⟩, ho.perm⟩
  | report => exact ⟨⟨trivial, trivial⟩, ⟨trivial, trivial⟩, ho.perm⟩

theorem leads_range {range : PageRange} {ending : Ending ε (Batch × Option StagingError)}
    (h : StagesPages d u p batch range.start range.count ending q events) (hbatch : batch.IsFrom p)
    (ho : o.Holds (p.objects ++ others)) (htarget : .buffer u.target ∈ others)
    (hfresh : o.Fresh (u.announce range ++ events)) :
    o.Leads (u.announce range ++ events) (q.objects ++ others) ∧
      ∀ batch' failure, ending = .done (batch', failure) → batch'.IsFrom q := by
  obtain ⟨hfirst, hpages⟩ := Ledger.fresh_append.mp hfresh
  have hannounced := leads_announce (u := u) ho range
  obtain ⟨hleads, hbatch'⟩ := h.leads hbatch (ho.after hfirst hannounced) htarget hpages
  exact ⟨hannounced.trans hleads, hbatch'⟩

theorem StagesRanges.leads {ranges : List PageRange}
    {ending : Ending ε (Batch × Option StagingError)}
    (h : StagesRanges d u p batch ranges ending q events) (hbatch : batch.IsFrom p)
    (ho : o.Holds (p.objects ++ others)) (htarget : .buffer u.target ∈ others)
    (hfresh : o.Fresh events) :
    o.Leads events (q.objects ++ others) ∧
      ∀ batch' failure, ending = .done (batch', failure) → batch'.IsFrom q := by
  induction h generalizing o with
  | finished p batch =>
    refine ⟨ho.leads_nil, ?_⟩
    rintro _ _ ⟨⟩
    exact hbatch
  | failed hpages =>
    obtain ⟨hleads, hbatch'⟩ := leads_range hpages hbatch ho htarget hfresh
    refine ⟨hleads, ?_⟩
    rintro _ _ ⟨⟩
    exact hbatch' _ _ rfl
  | broken hpages =>
    refine ⟨(leads_range hpages hbatch ho htarget hfresh).1, ?_⟩
    rintro _ _ ⟨⟩
  | range hpages _ ih =>
    obtain ⟨hbefore, hlater⟩ := Ledger.fresh_append.mp hfresh
    obtain ⟨hleads, hbatch'⟩ := leads_range hpages hbatch ho htarget hbefore
    obtain ⟨hrest, hlast⟩ := ih (hbatch' _ _ rfl) (ho.after hbefore hleads) hlater
    exact ⟨hleads.trans hrest, hlast⟩

/-- Whatever happens to an upload, only staging pages are created, and the copies that
were recorded name live buffers. -/
theorem Stages.leads {ranges : List PageRange} {ending : Ending ε (Option StagingError)}
    (h : Stages d u p ranges ending q events) (ho : o.Holds (p.objects ++ others))
    (htarget : .buffer u.target ∈ others) (hfresh : o.Fresh events) :
    o.Leads events (q.objects ++ others) := by
  cases h with
  | broken hranges => exact (hranges.leads (Batch.isFrom_empty p) ho htarget hfresh).1
  | sourceless hranges _ => exact (hranges.leads (Batch.isFrom_empty p) ho htarget hfresh).1
  | staged hranges _ =>
    obtain ⟨hfirst, _⟩ := Ledger.fresh_append.mp hfresh
    obtain ⟨hleads, hbatch⟩ := hranges.leads (Batch.isFrom_empty p) ho htarget hfirst
    exact hleads.trans ((hbatch _ _ rfl).leads (ho.after hfirst hleads) htarget)

end Upload

end GuestReplica
