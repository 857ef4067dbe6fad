import GuestReplica.Proofs.Objects
import GuestReplica.Proofs.Runs
import GuestReplica.Proofs.Store

set_option autoImplicit false

/-!
# The objects of a store

A store that was created adds its buffer and its memory to the live objects, and nothing
else.  A creation that fails adds nothing, and neither does any of its attempts: all that
they have created is destroyed again, the memory after its buffer.
-/

namespace GuestReplica

variable {o : Ledger} {others : List Object} {events : List Event}

/-- A fence does not outlive the binding that it was created for. -/
theorem SparsePath.Binds.leads {path : SparsePath} {binding : BufferBinding} {answer : Answer Unit}
    (h : path.Binds binding answer events) (ho : o.Holds others) (hallows : o.AllowsBinding binding) :
    o.Leads events others := by
  have hbinding : ∀ fence, (o.add (.fence fence)).AllowsBinding binding := fun fence =>
    ⟨List.mem_cons_of_mem _ hallows.1, fun bind hmem => List.mem_cons_of_mem _ (hallows.2 bind hmem)⟩
  cases h with
  | direct _ => exact ⟨⟨hallows, trivial⟩, ⟨trivial, trivial⟩, ho.perm⟩
  | noQueue _ => exact ho.leads_nil
  | noFence _ => exact ⟨⟨trivial, trivial⟩, ⟨trivial, trivial⟩, ho.perm⟩
  | refused _ =>
    refine ⟨?_, by simp [Ledger.Spares], by simpa [Ledger.note] using ho.perm⟩
    simp [Ledger.Allows, Ledger.note, hbinding]
  | awaited _ =>
    refine ⟨?_, by simp [Ledger.Spares], by simpa [Ledger.note] using ho.perm⟩
    simp [Ledger.Allows, Ledger.note, hbinding]

namespace Store

/-- Memory behind a buffer. -/
def memoryObjects (memory : List Handle) (buffer : Handle) : List Object :=
  memory.map fun m => .memory m buffer false

/-- The buffer of a store and the memory behind it. -/
def objects (store : Store) : List Object :=
  .buffer store.buffer :: memoryObjects store.memory store.buffer

variable {memory : List Handle} {buffer : Handle} {store : Store}

/-! ## Giving back -/

/-- Memory is freed when its buffer is gone. -/
theorem leads_freed (hnamed : o.Named) (hgone : .buffer buffer ∉ o.live)
    (hperm : o.live.Perm (memoryObjects memory buffer ++ others)) :
    o.Leads (memory.map fun m => .call (.free m)) others := by
  induction memory generalizing o with
  | nil => exact ⟨trivial, trivial, hperm⟩
  | cons m rest ih =>
    have hmem : .memory m buffer false ∈ o.live := hperm.mem_iff.mpr List.mem_cons_self
    have hgone' : .buffer buffer ∉ (o.remove (.memory, m)).live := fun h =>
      hgone (List.mem_of_mem_eraseP h)
    have hrest := ih (hnamed.remove (.memory, m)) hgone' (Ledger.perm_remove hnamed hperm)
    exact ⟨⟨⟨buffer, hmem, hgone⟩, hrest.orderly⟩, ⟨trivial, hrest.sparing⟩, hrest.perm⟩

/-- A store is given back whole: first its buffer, then the memory. -/
theorem leads_freed_of_perm (hnamed : o.Named) (hperm : o.live.Perm (store.objects ++ others)) :
    (o.remove (.buffer, store.buffer)).Leads (store.memory.map fun m => .call (.free m)) others := by
  have hgone : .buffer store.buffer ∉ (o.remove (.buffer, store.buffer)).live :=
    Ledger.not_mem_remove hnamed hperm
  exact leads_freed (hnamed.remove _) hgone (Ledger.perm_remove hnamed hperm)

theorem destroyed_eq (hnull : store.buffer ≠ Handle.null) :
    store.destroyed =
      .call (.destroyBuffer store.buffer) :: store.memory.map fun m => .call (.free m) := by
  rw [destroyed, if_neg hnull, List.singleton_append]

/-- When a store is given back, its objects are live no longer. -/
theorem orderly_destroyed (hnull : store.buffer ≠ Handle.null) (hnamed : o.Named)
    (hperm : o.live.Perm (store.objects ++ others)) :
    o.Orderly store.destroyed ∧ (o.noteAll store.destroyed).live.Perm others := by
  have hfreed := leads_freed_of_perm hnamed hperm
  rw [destroyed_eq hnull]
  exact ⟨⟨hperm.mem_iff.mpr List.mem_cons_self, hfreed.orderly⟩, hfreed.perm⟩

/-- A store that is given up leaves nothing behind. -/
theorem leads_abandoned (ho : o.Named) (hnull : store.buffer ≠ Handle.null)
    (hrecorded : store.buffer ∉ o.recorded) (hfresh : o.Fresh events)
    (hcalls : ∀ event ∈ events, ∃ call, event = .call call)
    (hleads : o.Leads events (store.objects ++ others)) :
    o.Leads (events ++ store.destroyed) others := by
  refine hleads.trans ?_
  have hfreed := leads_freed_of_perm (ho.noteAll hfresh) hleads.perm
  have hspared : store.buffer ∉ (o.noteAll events).recorded := by
    rwa [Ledger.recorded_noteAll_of_calls o hcalls]
  rw [destroyed_eq hnull]
  exact ⟨⟨hleads.perm.mem_iff.mpr List.mem_cons_self, hfreed.orderly⟩, ⟨hspared, hfreed.sparing⟩,
    hfreed.perm⟩

/-! ## Creation -/

/-- The chunks that were allocated are live, for the buffer whose requirements were
asked for. -/
theorem Allocates.leads {memoryType chunk total offset : Nat} {binds : List SparseBind}
    {failure : Option Code} (h : Allocates memoryType chunk total offset binds failure events)
    (hasked : .buffer o.asked ∈ o.live) (hperm : o.live.Perm others) :
    o.Leads events (memoryObjects (binds.map (·.memory)) o.asked ++ others) := by
  induction h generalizing o others with
  | covered _ => exact ⟨trivial, trivial, hperm⟩
  | refused _ => exact ⟨⟨hasked, trivial⟩, ⟨trivial, trivial⟩, hperm⟩
  | @allocated _ memory _ _ _ _ _ ih =>
    -- the new memory stands before the objects from here on
    have hrest := ih (o := o.add (.memory memory o.asked false)) (List.mem_cons_of_mem _ hasked)
      (hperm.cons _)
    exact ⟨⟨hasked, hrest.orderly⟩, ⟨trivial, hrest.sparing⟩, hrest.perm.trans List.perm_middle⟩

/-- The objects of the store that was created, if one was. -/
def objectsOf : Ending CreationError Store → List Object
  | .done store => store.objects
  | .failed _ | .broken _ => []

variable {path : SparsePath} {needs : Requirements} {ending : Ending CreationError Store}

/-- The chunks behind a buffer that has no other memory. -/
theorem leads_chunks {memoryType chunk total offset : Nat} {binds : List SparseBind}
    {failure : Option Code} (h : Allocates memoryType chunk total offset binds failure events)
    (ho : o.Holds (.buffer store.buffer :: others)) (hasked : o.asked = store.buffer) :
    o.Leads events ((store.withMemory (binds.map (·.memory))).objects ++ others) := by
  have hlive : .buffer o.asked ∈ o.live := ho.mem (by rw [hasked]; exact List.mem_cons_self)
  have hleads := h.leads hlive ho.perm
  rw [hasked] at hleads
  exact hleads.of_perm List.perm_middle

/-- The chunks are bound to their buffer. -/
theorem leads_chunks_binding {memoryType chunk total offset : Nat} {binds : List SparseBind}
    {failure : Option Code} {answer : Answer Unit} {allocating binding : List Event}
    (hallocates : Allocates memoryType chunk total offset binds failure allocating)
    (hbinds : path.Binds ⟨store.buffer, binds⟩ answer binding)
    (ho : o.Holds (.buffer store.buffer :: others)) (hasked : o.asked = store.buffer)
    (hfresh : o.Fresh (allocating ++ binding)) :
    o.Leads (allocating ++ binding) ((store.withMemory (binds.map (·.memory))).objects ++ others) := by
  refine ho.leads_append hfresh (fun _ => leads_chunks hallocates ho hasked) fun hafter _ =>
    hbinds.leads hafter ⟨hafter.mem List.mem_cons_self, fun bind hmem => hafter.mem ?_⟩
  have hmemory : bind.memory ∈ binds.map (·.memory) := List.mem_map_of_mem hmem
  exact List.mem_cons_of_mem _ (List.mem_append_left _
    (List.mem_map_of_mem (f := fun m => Object.memory m store.buffer false) hmemory))

/-- The only memory behind a buffer. -/
theorem leads_memory {size memory : Nat} {answer : Answer Unit}
    (ho : o.Holds (.buffer store.buffer :: others)) (hasked : o.asked = store.buffer) :
    o.Leads [.call (.allocate size store.memoryType (.ok memory)),
      .call (.bind store.buffer memory 0 answer)] ((store.withMemory [memory]).objects ++ others) := by
  have hlive : .buffer store.buffer ∈ o.live := ho.mem List.mem_cons_self
  refine ⟨⟨?_, ⟨List.mem_cons_of_mem _ hlive, ?_⟩, trivial⟩, ⟨trivial, trivial, trivial⟩, ?_⟩
  · rwa [Ledger.Allows, hasked]
  · simp [Ledger.note, hasked]
  · simpa [Ledger.note, hasked, objects, memoryObjects, withMemory] using
      (ho.perm.cons _).trans (List.Perm.swap _ _ _)

theorem Backs.leads (h : Backs path store needs ending events)
    (ho : o.Holds (.buffer store.buffer :: others)) (hmemory : store.memory = [])
    (hasked : o.asked = store.buffer) (hnull : store.buffer ≠ Handle.null)
    (hrecorded : store.buffer ∉ o.recorded) (hfresh : o.Fresh events)
    (hreturns : ending.Returns) : o.Leads events (objectsOf ending ++ others) := by
  have hlive : .buffer store.buffer ∈ o.live := ho.mem List.mem_cons_self
  -- what leads to a store that is given up leads back to the others
  have habandoned : ∀ {a : List Event} {memory : List Handle},
      (∀ event ∈ a, ∃ call, event = .call call) →
      o.Leads a ((store.withMemory memory).objects ++ others) →
      o.Fresh (a ++ (store.withMemory memory).destroyed) →
      o.Leads (a ++ (store.withMemory memory).destroyed) others :=
    fun hcalls hleads hfresh =>
      leads_abandoned ho.named hnull hrecorded (Ledger.fresh_append.mp hfresh).1 hcalls hleads
  cases h with
  | @unallocated code _ =>
    have hasks : .buffer o.asked ∈ o.live := by rwa [hasked]
    have hsame : store.withMemory [] = store := by rw [withMemory, ← hmemory]
    have hleads : o.Leads [.call (.allocate needs.size store.memoryType (.failed code))]
        ((store.withMemory []).objects ++ others) :=
      ⟨⟨hasks, trivial⟩, ⟨trivial, trivial⟩, ho.perm⟩
    rw [← hsame] at hfresh ⊢
    exact habandoned (by simp) hleads hfresh
  | unbound _ => exact habandoned (by simp) (leads_memory ho hasked) hfresh
  | bound _ => exact leads_memory ho hasked
  | overflow _ _ => exact absurd rfl (hreturns _)
  | chunksUnallocated _ _ hallocates =>
    exact habandoned hallocates.calls (leads_chunks hallocates ho hasked) hfresh
  | chunksUnbound _ _ hallocates hbinds =>
    refine habandoned (fun event hmem => ?_)
      (leads_chunks_binding hallocates hbinds ho hasked (Ledger.fresh_append.mp hfresh).1) hfresh
    exact (List.mem_append.mp hmem).elim (hallocates.calls event) (hbinds.calls event)
  | chunksBound _ _ hallocates hbinds => exact leads_chunks_binding hallocates hbinds ho hasked hfresh

/-- A store that is created has a buffer that is not null, and with it and its memory the
live objects are what they were. -/
theorem Attempts.leads {size : Nat} {deviceLocal : Mask} {strategy : Strategy}
    (h : Attempts path size deviceLocal strategy ending events) (ho : o.Holds others)
    (hfresh : o.Fresh events) (hreturns : ending.Returns) :
    o.Leads events (objectsOf ending ++ others) ∧
      ∀ store, ending = .done store → store.buffer ≠ Handle.null := by
  -- all that follows the creation of the buffer starts from a ledger that holds it
  have hcreated : ∀ {buffer : Handle} {needs : Requirements} {rest : List Event},
      o.Fresh ([.call (.createBuffer (bufferInfo size strategy) (.ok buffer)),
        .call (.requirements buffer needs)] ++ rest) →
      o.Leads [.call (.createBuffer (bufferInfo size strategy) (.ok buffer)),
        .call (.requirements buffer needs)] (.buffer buffer :: others) ∧
      buffer ≠ Handle.null ∧ buffer ∉ o.recorded := by
    intro buffer needs rest hfresh
    obtain ⟨hnull, hlacks⟩ := Ledger.isFresh_createBuffer.mp hfresh.1
    exact ⟨⟨⟨trivial, List.mem_cons_self, trivial⟩, ⟨trivial, trivial, trivial⟩, ho.perm.cons _⟩,
      hnull, ho.not_recorded hlacks⟩
  cases h with
  | noBuffer =>
    refine ⟨⟨⟨trivial, trivial⟩, ⟨trivial, trivial⟩, ho.perm⟩, ?_⟩
    rintro store ⟨⟩
  | @noType buffer needs _ =>
    obtain ⟨hleads, hnull, hrecorded⟩ := hcreated hfresh
    have hleads' : o.Leads _ (objects ⟨buffer, size, [], 0, strategy⟩ ++ others) := hleads
    refine ⟨?_, ?_⟩
    · exact leads_abandoned ho.named hnull hrecorded (Ledger.fresh_append.mp hfresh).1 (by simp)
        hleads'
    · rintro store ⟨⟩
  | @typed buffer needs memoryType _ rest _ hbacks =>
    obtain ⟨hleads, hnull, hrecorded⟩ := hcreated hfresh
    refine ⟨?_, ?_⟩
    · exact ho.leads_append hfresh (fun _ => hleads) fun hafter hrest =>
        hbacks.leads hafter rfl rfl hnull hrecorded hrest hreturns
    · rintro store rfl
      rwa [hbacks.keeps_buffer.1]

/-- Attempts that fail leave nothing behind, however many there are. -/
theorem Creates.leads {size : Nat} {deviceLocal : Mask} {strategies : List Strategy}
    {failure : CreationError} (h : Creates path size deviceLocal strategies failure ending events)
    (ho : o.Holds others) (hfresh : o.Fresh events) (hreturns : ending.Returns) :
    o.Leads events (objectsOf ending ++ others) ∧
      ∀ store, ending = .done store → store.buffer ≠ Handle.null := by
  induction h generalizing o with
  | exhausted failure =>
    refine ⟨ho.leads_nil, ?_⟩
    rintro store ⟨⟩
  | created hattempt =>
    obtain ⟨hleads, hnull⟩ := hattempt.leads ho (Ledger.fresh_append.mp hfresh).1 hreturns
    exact ⟨hleads.notice _, hnull⟩
  | broken _ => exact absurd rfl (hreturns _)
  | @failed strategy _ _ cause _ _ _ hattempt _ ih =>
    rw [List.append_cons] at hfresh ⊢
    obtain ⟨hfirst, hrest⟩ := Ledger.fresh_append.mp hfresh
    obtain ⟨hleads, _⟩ := hattempt.leads ho (Ledger.fresh_append.mp hfirst).1
      (Ending.returns_failed cause)
    have hnoted := hleads.notice (.strategyFailed strategy cause)
    obtain ⟨hlater, hnull⟩ := ih (ho.after hfirst hnoted) hrest hreturns
    exact ⟨hnoted.trans hlater, hnull⟩

end Store

end GuestReplica
