import GuestReplica.Proofs.Objects
import GuestReplica.Proofs.Staging.Invariant

set_option autoImplicit false

/-!
# The objects of a staging pool

A page of a pool is a live buffer with live memory, which is mapped.  Operations of the
pool add the objects of the pages that they add, and nothing else: a page that cannot be
completed is given back.  Giving all pages back ends each mapping first, and frees memory
when its buffer is gone.
-/

namespace GuestReplica.Staging

variable {o : Ledger} {others : List Object} {events : List Event}

/-- The buffer of a page, and the memory behind it. -/
def Page.objects (page : Page) : List Object :=
  [.memory page.memory page.buffer true, .buffer page.buffer]

namespace Pool

open Ledger

variable {σ : Type} {d : Device σ} {p q : Pool}

/-- The objects of all pages. -/
def objects (p : Pool) : List Object := p.pages.flatMap Page.objects

@[simp] theorem objects_addPage (page : Page) (p : Pool) :
    (p.addPage page).objects = p.objects ++ page.objects := by
  simp [objects, addPage]

@[simp] theorem objects_handOut (index submission used : Nat) (p : Pool) :
    (p.handOut index submission used).objects = p.objects := by
  rw [objects, objects, List.flatMap_def, List.flatMap_def, map_pages_handOut fun _ => rfl]

theorem memory_mem_objects {page : Page} (h : page ∈ p.pages) :
    .memory page.memory page.buffer true ∈ p.objects :=
  List.mem_flatMap.mpr ⟨page, h, List.mem_cons_self⟩

theorem buffer_mem_objects {buffer : Handle} (h : buffer ∈ p.buffers) :
    .buffer buffer ∈ p.objects := by
  obtain ⟨page, hpage, rfl⟩ := List.mem_map.mp h
  exact List.mem_flatMap.mpr ⟨page, hpage, by simp [Page.objects]⟩

theorem currentPage?_mem {page : Page} (h : p.currentPage? = some page) : page ∈ p.pages := by
  obtain ⟨index, _, hpage⟩ := Option.bind_eq_some_iff.mp h
  exact List.mem_of_getElem? hpage

/-! ## Operations -/

theorem Flushes.objects_eq {ending : Ending StagingError Unit} (h : Flushes p ending q events) :
    q.objects = p.objects := by
  cases h <;> rfl

/-- What is flushed is memory of the current page, which is mapped. -/
theorem memory_of_dirtyRange? {page : Page} {range : MappedRange}
    (h : p.dirtyRange? page = some range) : range.memory = page.memory := by
  obtain ⟨_, _, rfl⟩ := Option.map_eq_some_iff.mp h
  rfl

theorem Flushes.leads {ending : Ending StagingError Unit} (h : Flushes p ending q events)
    (ho : o.Holds (p.objects ++ others)) : o.Leads events (q.objects ++ others) := by
  have hflush : ∀ {page : Page} {range : MappedRange} {answer : Answer Unit},
      p.currentPage? = some page → p.dirtyRange? page = some range →
      o.Leads [.call (.flush [range] answer)] (p.objects ++ others) := by
    intro page range answer hpage hrange
    refine ⟨⟨?_, trivial⟩, ⟨trivial, trivial⟩, ho.perm⟩
    intro r hmem
    obtain rfl := List.mem_singleton.mp hmem
    refine ⟨page.buffer, ho.mem (List.mem_append_left _ ?_)⟩
    rw [memory_of_dirtyRange? hrange]
    exact memory_mem_objects (currentPage?_mem hpage)
  rw [h.objects_eq]
  cases h with
  | idle _ => exact ho.leads_nil
  | clean _ _ => exact ho.leads_nil
  | flushed hpage _ hrange => exact hflush hpage hrange
  | refused hpage _ hrange => exact hflush hpage hrange
  | overflow _ _ _ => exact ho.leads_nil

/-- A page that cannot be completed is given back. -/
theorem Creates.leads {ending : Ending StagingError Nat} (h : Creates d p ending q events)
    (ho : o.Holds (p.objects ++ others)) (hfresh : o.Fresh events) :
    o.Leads events (q.objects ++ others) := by
  -- a buffer that was just created is named by no command
  have hspared : ∀ {info : BufferInfo} {buffer : Handle},
      o.IsFresh (.call (.createBuffer info (.ok buffer))) → buffer ∉ o.recorded :=
    fun hfresh => ho.not_recorded (isFresh_createBuffer.mp hfresh).2
  cases h with
  | full _ => exact ho.leads_nil
  | noBuffer _ => exact ⟨⟨trivial, trivial⟩, ⟨trivial, trivial⟩, ho.perm⟩
  | noType _ _ =>
    have hbuffer := hspared hfresh.1
    exact ⟨by simp [Allows, note], by simpa [note, Spares] using hbuffer,
      by simpa [note] using ho.perm⟩
  | noMemory _ _ =>
    have hbuffer := hspared hfresh.1
    exact ⟨by simp [Allows, note], by simpa [note, Spares] using hbuffer,
      by simpa [note] using ho.perm⟩
  | @noMapping buffer _ _ _ _ _ _ _ hmap =>
    have hbuffer := hspared hfresh.1
    have hgone : .buffer buffer ∉ o.live := fun hmem =>
      (isFresh_createBuffer.mp hfresh.1).2 (List.mem_map_of_mem hmem)
    cases hmap <;>
      exact ⟨by simp [Allows, note, hgone], by simpa [note, Spares] using hbuffer,
        by simpa [note] using ho.perm⟩
  | @created buffer memory _ memoryType _ _ _ =>
    obtain ⟨_, hlacks⟩ := isFresh_allocate.mp hfresh.2.2.1
    have hlive : o.live.map (Object.setMapped memory true) = o.live :=
      Object.map_setMapped fun hmem => hlacks (List.mem_cons_of_mem _ hmem)
    have hperm : ((p.freshPage buffer memory memoryType).objects ++ o.live).Perm
        (p.objects ++ ((p.freshPage buffer memory memoryType).objects ++ others)) :=
      (ho.perm.append_left _).trans (List.perm_append_comm_assoc _ _ _)
    refine ⟨by simp [Allows, note, mappedEvents], by simp [note, Spares, mappedEvents], ?_⟩
    simpa [note, mappedEvents, Object.setMapped, hlive, freshPage, Page.objects] using hperm

theorem Turns.leads {ending : Ending StagingError Nat} (h : Turns d p ending q events)
    (ho : o.Holds (p.objects ++ others)) (hfresh : o.Fresh events) :
    o.Leads events (q.objects ++ others) := by
  cases h with
  | unflushed hflush => exact hflush.leads ho
  | broken hflush => exact hflush.leads ho
  | reused hflush _ => exact hflush.leads ho
  | uncreated hflush _ hcreate =>
    exact ho.leads_append hfresh (fun _ => hflush.leads ho) hcreate.leads
  | created hflush _ hcreate =>
    exact ho.leads_append hfresh (fun _ => hflush.leads ho) hcreate.leads

theorem Requests.leads {submission size alignment : Nat} {ending : Ending StagingError Allocation}
    (h : Requests d p submission size alignment ending q events)
    (ho : o.Holds (p.objects ++ others)) (hfresh : o.Fresh events) :
    o.Leads events (q.objects ++ others) := by
  cases h with
  | empty _ => exact ho.leads_nil
  | misaligned _ => exact ho.leads_nil
  | overflow _ => exact ho.leads_nil
  | missing _ _ => exact ho.leads_nil
  | served _ _ _ _ _ _ =>
    rw [objects_handOut]
    exact ho.leads_nil
  | unturned _ _ _ hturn => exact hturn.leads ho hfresh
  | broken hturn => exact hturn.leads ho hfresh
  | lost hturn _ => exact hturn.leads ho hfresh
  | turned _ _ _ hturn _ =>
    rw [objects_handOut]
    exact hturn.leads ho hfresh

/-! ## Giving back -/

/-- A mapping that ends leaves its memory, which is freed after its buffer. -/
theorem orderly_released_page {page : Page} (hnamed : o.Named)
    (hperm : o.live.Perm (page.objects ++ others)) :
    o.Orderly (released [page]) ∧ (o.noteAll (released [page])).live.Perm others := by
  have hnames := (hperm.map Object.name).nodup_iff.mp hnamed
  -- no other live memory has the name of this memory, so nothing else is unmapped
  have hothers : others.map (Object.setMapped page.memory false) = others :=
    Object.map_setMapped fun hmem =>
      (List.nodup_cons.mp hnames).1 (List.mem_cons_of_mem _ hmem)
  have hunmapped : (o.setMapped page.memory false).live.Perm
      (.buffer page.buffer :: .memory page.memory page.buffer false :: others) := by
    have hmapped := (hperm.map (Object.setMapped page.memory false)).trans (List.Perm.swap _ _ _)
    simpa [Page.objects, Object.setMapped, hothers] using hmapped
  have hnamed₁ := hnamed.setMapped page.memory false
  have hgone := not_mem_remove hnamed₁ hunmapped
  have hfreeable := perm_remove hnamed₁ hunmapped
  refine ⟨⟨⟨page.buffer, ?_⟩, ?_, ⟨page.buffer, ?_, hgone⟩, trivial⟩, ?_⟩
  · exact hperm.mem_iff.mpr List.mem_cons_self
  · exact hunmapped.mem_iff.mpr List.mem_cons_self
  · exact hfreeable.mem_iff.mpr List.mem_cons_self
  · exact perm_remove (hnamed₁.remove _) hfreeable

/-- Nothing is created when pages are given back. -/
theorem fresh_released (o : Ledger) (pages : List Page) : o.Fresh (released pages) := by
  induction pages generalizing o with
  | nil => exact trivial
  | cons page rest ih => exact ⟨rfl, rfl, rfl, ih _⟩

/-- Pages are given back whole. -/
theorem orderly_released {pages : List Page} (hnamed : o.Named)
    (hperm : o.live.Perm (pages.flatMap Page.objects ++ others)) :
    o.Orderly (released pages) ∧ (o.noteAll (released pages)).live.Perm others := by
  induction pages generalizing o with
  | nil => exact ⟨trivial, hperm⟩
  | cons page rest ih =>
    rw [List.flatMap_cons, List.append_assoc] at hperm
    obtain ⟨hpage, hrest⟩ := orderly_released_page hnamed hperm
    obtain ⟨horderly, hothers⟩ := ih (hnamed.noteAll (fresh_released o [page])) hrest
    have hcons : released (page :: rest) = released [page] ++ released rest := rfl
    rw [hcons, noteAll_append]
    exact ⟨orderly_append.mpr ⟨hpage, horderly⟩, hothers⟩

end Pool

end GuestReplica.Staging
