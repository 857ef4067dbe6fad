import Mathlib.Data.List.Nodup
import GuestReplica.Event

set_option autoImplicit false

/-!
# The objects of a device

Calls create objects of the device and destroy them.  A ledger follows some events: it
knows which objects are live after them, and which buffers were named by recorded
commands.  With it, it can be said of an event whether it is in order at the moment when
it happens: a call names objects that are live, and memory that it frees has outlived
its mapping and its buffer.
-/

namespace GuestReplica

/-! ## Objects -/

/-- An object that was created and is not destroyed yet. -/
inductive Object where
  | buffer (handle : Handle)
  /-- memory, the buffer that it was allocated for, and whether it is mapped -/
  | memory (handle buffer : Handle) (mapped : Bool)
  | fence (handle : Handle)
  deriving DecidableEq, Repr

/-- The kinds of objects.  A handle names at most one live object of a kind. -/
inductive Kind where
  | buffer
  | memory
  | fence
  deriving DecidableEq, Repr

/-- What a call names an object by. -/
abbrev Name : Type := Kind × Handle

namespace Object

def name : Object → Name
  | .buffer handle => (.buffer, handle)
  | .memory handle _ _ => (.memory, handle)
  | .fence handle => (.fence, handle)

@[simp] theorem name_buffer (handle : Handle) : (buffer handle).name = (.buffer, handle) := rfl

@[simp] theorem name_memory (handle owner : Handle) (mapped : Bool) :
    (memory handle owner mapped).name = (.memory, handle) := rfl

@[simp] theorem name_fence (handle : Handle) : (fence handle).name = (.fence, handle) := rfl

/-- The object after memory was mapped, or a mapping was ended. -/
def setMapped (memory : Handle) (mapped : Bool) : Object → Object
  | .memory handle owner old => .memory handle owner (if handle = memory then mapped else old)
  | object => object

@[simp] theorem name_setMapped (memory : Handle) (mapped : Bool) (object : Object) :
    (object.setMapped memory mapped).name = object.name := by
  cases object <;> rfl

/-- Only the memory itself is affected. -/
theorem setMapped_of_name_ne {memory : Handle} {mapped : Bool} {object : Object}
    (h : object.name ≠ (.memory, memory)) : object.setMapped memory mapped = object := by
  cases object with
  | memory handle owner old =>
    have hne : handle ≠ memory := fun heq => h (by rw [name, heq])
    simp only [setMapped, if_neg hne]
  | _ => rfl

/-- Other objects are not affected. -/
theorem map_setMapped {memory : Handle} {mapped : Bool} {objects : List Object}
    (h : (.memory, memory) ∉ objects.map name) : objects.map (setMapped memory mapped) = objects := by
  calc objects.map (setMapped memory mapped) = objects.map id := by
        refine List.map_congr_left fun object hmem => setMapped_of_name_ne fun hname => h ?_
        exact List.mem_map.mpr ⟨object, hmem, hname⟩
    _ = objects := List.map_id objects

end Object

/-- The buffers that a command names. -/
def Command.buffers : Command → List Handle
  | .barrier b => [b.buffer]
  | .copy source target _ => [source, target]

/-! ## Ledgers -/

/-- What some events leave. -/
structure Ledger where
  /-- the newest object first -/
  live : List Object
  /-- the buffer whose requirements were asked for last: memory is allocated for it -/
  asked : Handle
  /-- the buffers that were named by recorded commands -/
  recorded : List Handle
  deriving DecidableEq, Repr

namespace Ledger

/-- Nothing has happened. -/
def empty : Ledger := ⟨[], Handle.null, []⟩

/-- No live object has the name. -/
def Lacks (o : Ledger) (name : Name) : Prop := name ∉ o.live.map Object.name

instance (o : Ledger) (name : Name) : Decidable (o.Lacks name) :=
  inferInstanceAs (Decidable (¬ _))

/-- An object is created. -/
def add (object : Object) (o : Ledger) : Ledger := { o with live := object :: o.live }

/-- The object with a name is destroyed. -/
def remove (name : Name) (o : Ledger) : Ledger :=
  { o with live := o.live.eraseP fun object => object.name = name }

/-- Memory is mapped, or its mapping ends. -/
def setMapped (memory : Handle) (mapped : Bool) (o : Ledger) : Ledger :=
  { o with live := o.live.map (Object.setMapped memory mapped) }

section

variable (o : Ledger) (object : Object) (name : Name) (memory : Handle) (mapped : Bool)

@[simp] theorem live_add : (o.add object).live = object :: o.live := rfl

@[simp] theorem asked_add : (o.add object).asked = o.asked := rfl

@[simp] theorem recorded_add : (o.add object).recorded = o.recorded := rfl

@[simp] theorem live_remove :
    (o.remove name).live = o.live.eraseP fun object => object.name = name := rfl

@[simp] theorem recorded_remove : (o.remove name).recorded = o.recorded := rfl

@[simp] theorem live_setMapped :
    (o.setMapped memory mapped).live = o.live.map (Object.setMapped memory mapped) := rfl

@[simp] theorem recorded_setMapped : (o.setMapped memory mapped).recorded = o.recorded := rfl

end

/-- The ledger after one more event. -/
def note (o : Ledger) : Event → Ledger
  | .call (.createBuffer _ (.ok buffer)) => o.add (.buffer buffer)
  | .call (.destroyBuffer buffer) => o.remove (.buffer, buffer)
  | .call (.requirements buffer _) => { o with asked := buffer }
  | .call (.allocate _ _ (.ok memory)) => o.add (.memory memory o.asked false)
  | .call (.free memory) => o.remove (.memory, memory)
  | .call (.map memory _ _ _ (.ok .address)) => o.setMapped memory true
  | .call (.unmap memory) => o.setMapped memory false
  | .call (.createFence _ (.ok fence)) => o.add (.fence fence)
  | .call (.destroyFence fence) => o.remove (.fence, fence)
  | .command command => { o with recorded := command.buffers ++ o.recorded }
  | _ => o

/-- The ledger after some events. -/
def noteAll (o : Ledger) (events : List Event) : Ledger := events.foldl note o

/-! ## What is demanded of events -/

/-- If the event creates an object, then under a handle that is not null and that no
live object of the kind has.  This is up to the device. -/
def IsFresh (o : Ledger) : Event → Bool
  | .call (.createBuffer _ (.ok buffer)) => buffer ≠ Handle.null ∧ o.Lacks (.buffer, buffer)
  | .call (.allocate _ _ (.ok memory)) => memory ≠ Handle.null ∧ o.Lacks (.memory, memory)
  | .call (.createFence _ (.ok fence)) => fence ≠ Handle.null ∧ o.Lacks (.fence, fence)
  | _ => true

/-- The binding names a live buffer, and live memory that was allocated for it. -/
def AllowsBinding (o : Ledger) (binding : BufferBinding) : Prop :=
  .buffer binding.buffer ∈ o.live ∧
    ∀ bind ∈ binding.binds, .memory bind.memory binding.buffer false ∈ o.live

/-- The call names live objects only.  Memory is allocated for a live buffer and bound
to no other one, and it is freed when it is no longer mapped and that buffer is gone. -/
def Allows (o : Ledger) : Event → Prop
  | .call (.destroyBuffer buffer) => .buffer buffer ∈ o.live
  | .call (.requirements buffer _) => .buffer buffer ∈ o.live
  | .call (.allocate _ _ _) => .buffer o.asked ∈ o.live
  | .call (.free memory) =>
    ∃ buffer, .memory memory buffer false ∈ o.live ∧ .buffer buffer ∉ o.live
  | .call (.bind buffer memory _ _) =>
    .buffer buffer ∈ o.live ∧ .memory memory buffer false ∈ o.live
  | .call (.bindSparse binding _) => o.AllowsBinding binding
  | .call (.map memory _ _ _ _) => ∃ buffer, .memory memory buffer false ∈ o.live
  | .call (.unmap memory) => ∃ buffer, .memory memory buffer true ∈ o.live
  | .call (.flush ranges _) =>
    ∀ range ∈ ranges, ∃ buffer, .memory range.memory buffer true ∈ o.live
  | .call (.queueBindSparse _ bindings fence _) =>
    .fence fence ∈ o.live ∧ ∀ binding ∈ bindings, o.AllowsBinding binding
  | .call (.waitForFences fences _ _ _) => ∀ fence ∈ fences, .fence fence ∈ o.live
  | .call (.destroyFence fence) => .fence fence ∈ o.live
  | _ => True

/-- Commands name live buffers, and no buffer is destroyed that was named by one. -/
def Spares (o : Ledger) : Event → Prop
  | .call (.destroyBuffer buffer) => buffer ∉ o.recorded
  | .command command => ∀ buffer ∈ command.buffers, .buffer buffer ∈ o.live
  | _ => True

/-- Each event has a property at the moment when it happens. -/
def Throughout (P : Ledger → Event → Prop) : Ledger → List Event → Prop
  | _, [] => True
  | o, event :: rest => P o event ∧ Throughout P (o.note event) rest

/-- The device names all objects afresh. -/
def Fresh : Ledger → List Event → Prop := Throughout fun o event => o.IsFresh event

/-- All calls are in order. -/
def Orderly : Ledger → List Event → Prop := Throughout Allows

/-- The buffers that recorded commands name stay. -/
def Sparing : Ledger → List Event → Prop := Throughout Spares

instance instDecidableFresh : (o : Ledger) → (events : List Event) → Decidable (o.Fresh events)
  | _, [] => isTrue trivial
  | o, event :: rest =>
    have := instDecidableFresh (o.note event) rest
    inferInstanceAs (Decidable (o.IsFresh event = true ∧ Fresh (o.note event) rest))

/-! ## Events one after another -/

section

variable {P : Ledger → Event → Prop} {o : Ledger} {event : Event} {a b rest : List Event}

@[simp] theorem noteAll_nil (o : Ledger) : o.noteAll [] = o := rfl

@[simp] theorem noteAll_cons (o : Ledger) (event : Event) (rest : List Event) :
    o.noteAll (event :: rest) = (o.note event).noteAll rest := rfl

@[simp] theorem noteAll_append (o : Ledger) (a b : List Event) :
    o.noteAll (a ++ b) = (o.noteAll a).noteAll b :=
  List.foldl_append

theorem throughout_append :
    Throughout P o (a ++ b) ↔ Throughout P o a ∧ Throughout P (o.noteAll a) b := by
  induction a generalizing o with
  | nil => simp [Throughout]
  | cons event rest ih => simp [Throughout, ih, and_assoc]

theorem fresh_append : o.Fresh (a ++ b) ↔ o.Fresh a ∧ (o.noteAll a).Fresh b := throughout_append

@[simp] theorem orderly_nil : o.Orderly [] := trivial

@[simp] theorem orderly_cons :
    o.Orderly (event :: rest) ↔ o.Allows event ∧ (o.note event).Orderly rest :=
  Iff.rfl

theorem orderly_append : o.Orderly (a ++ b) ↔ o.Orderly a ∧ (o.noteAll a).Orderly b :=
  throughout_append

@[simp] theorem sparing_nil : o.Sparing [] := trivial

@[simp] theorem sparing_cons :
    o.Sparing (event :: rest) ↔ o.Spares event ∧ (o.note event).Sparing rest :=
  Iff.rfl

theorem sparing_append : o.Sparing (a ++ b) ↔ o.Sparing a ∧ (o.noteAll a).Sparing b :=
  throughout_append

end

/-! ## Names -/

section

variable {o : Ledger}

theorem isFresh_createBuffer {info : BufferInfo} {buffer : Handle} :
    o.IsFresh (.call (.createBuffer info (.ok buffer))) ↔
      buffer ≠ Handle.null ∧ o.Lacks (.buffer, buffer) :=
  decide_eq_true_iff

theorem isFresh_allocate {size memoryType : Nat} {memory : Handle} :
    o.IsFresh (.call (.allocate size memoryType (.ok memory))) ↔
      memory ≠ Handle.null ∧ o.Lacks (.memory, memory) :=
  decide_eq_true_iff

theorem isFresh_createFence {flags : Mask} {fence : Handle} :
    o.IsFresh (.call (.createFence flags (.ok fence))) ↔
      fence ≠ Handle.null ∧ o.Lacks (.fence, fence) :=
  decide_eq_true_iff

end

/-- No two live objects share a name. -/
def Named (o : Ledger) : Prop := (o.live.map Object.name).Nodup

variable {o : Ledger} {event : Event} {events : List Event}

theorem named_empty : empty.Named := List.nodup_nil

theorem Named.add {object : Object} (h : o.Named) (hlacks : o.Lacks object.name) :
    (o.add object).Named :=
  List.nodup_cons.mpr ⟨hlacks, h⟩

theorem Named.remove (h : o.Named) (name : Name) : (o.remove name).Named :=
  h.sublist (List.eraseP_sublist.map _)

theorem Named.setMapped (h : o.Named) (memory : Handle) (mapped : Bool) :
    (o.setMapped memory mapped).Named := by
  have hnames : (o.setMapped memory mapped).live.map Object.name = o.live.map Object.name := by
    simp [Ledger.setMapped, Function.comp_def]
  rw [Named, hnames]
  exact h

theorem Named.note (h : o.Named) (hfresh : o.IsFresh event) : (o.note event).Named := by
  unfold Ledger.note
  split
  · exact h.add (isFresh_createBuffer.mp hfresh).2
  · exact h.remove _
  · exact h
  · exact h.add (isFresh_allocate.mp hfresh).2
  · exact h.remove _
  · exact h.setMapped _ _
  · exact h.setMapped _ _
  · exact h.add (isFresh_createFence.mp hfresh).2
  · exact h.remove _
  · exact h
  · exact h

/-- Where the device names all objects afresh, names stay unique. -/
theorem Named.noteAll (h : o.Named) (hfresh : o.Fresh events) : (o.noteAll events).Named := by
  induction events generalizing o with
  | nil => exact h
  | cons event rest ih => exact ih (h.note hfresh.1) hfresh.2

/-! ## Recorded commands -/

/-- All buffers that were named by recorded commands are live. -/
def RecordedLive (o : Ledger) : Prop := ∀ buffer ∈ o.recorded, .buffer buffer ∈ o.live

theorem recordedLive_empty : empty.RecordedLive := fun _ hmem => nomatch hmem

theorem RecordedLive.remove {name : Name} (h : o.RecordedLive)
    (hname : ∀ buffer ∈ o.recorded, (Kind.buffer, buffer) ≠ name) :
    (o.remove name).RecordedLive := by
  intro buffer hmem
  have hother : ¬ decide ((Object.buffer buffer).name = name) = true := fun heq =>
    hname buffer hmem (of_decide_eq_true heq)
  exact (List.mem_eraseP_of_neg (p := fun object => decide (object.name = name)) hother).mpr
    (h buffer hmem)

theorem RecordedLive.setMapped (h : o.RecordedLive) (memory : Handle) (mapped : Bool) :
    (o.setMapped memory mapped).RecordedLive :=
  fun buffer hmem => List.mem_map.mpr ⟨_, h buffer hmem, rfl⟩

theorem RecordedLive.add (h : o.RecordedLive) (object : Object) : (o.add object).RecordedLive :=
  fun buffer hmem => List.mem_cons_of_mem _ (h buffer hmem)

theorem RecordedLive.note (h : o.RecordedLive) (hspares : o.Spares event) :
    (o.note event).RecordedLive := by
  unfold Ledger.note
  split
  · exact h.add _
  · refine h.remove fun buffer hmem heq => hspares ?_
    obtain ⟨_, rfl⟩ := Prod.mk.inj heq
    exact hmem
  · exact h
  · exact h.add _
  · exact h.remove (by simp)
  · exact h.setMapped _ _
  · exact h.setMapped _ _
  · exact h.add _
  · exact h.remove (by simp)
  · intro buffer hmem
    exact (List.mem_append.mp hmem).elim (hspares buffer) (h buffer)
  · exact h

/-- Where the buffers that commands name are spared, they stay live. -/
theorem RecordedLive.noteAll (h : o.RecordedLive) (hsparing : o.Sparing events) :
    (o.noteAll events).RecordedLive := by
  induction events generalizing o with
  | nil => exact h
  | cons event rest ih => exact ih (h.note hsparing.1) hsparing.2

/-- Commands are never forgotten. -/
theorem recorded_subset_noteAll (o : Ledger) (events : List Event) :
    o.recorded ⊆ (o.noteAll events).recorded := by
  induction events generalizing o with
  | nil => exact List.Subset.refl _
  | cons event rest ih =>
    refine List.Subset.trans ?_ (ih (o.note event))
    unfold note
    split
    case h_10 command => exact List.subset_append_right _ _
    all_goals exact List.Subset.refl _

/-- Calls record nothing. -/
theorem recorded_noteAll_of_calls (o : Ledger) (h : ∀ event ∈ events, ∃ call, event = .call call) :
    (o.noteAll events).recorded = o.recorded := by
  induction events generalizing o with
  | nil => rfl
  | cons event rest ih =>
    obtain ⟨call, rfl⟩ := h event List.mem_cons_self
    rw [noteAll_cons, ih _ fun other hmem => h other (List.mem_cons_of_mem _ hmem)]
    unfold note
    split
    case h_10 hcommand => cases hcommand
    all_goals rfl

theorem mem_recorded_noteAll {command : Command} {buffer : Handle}
    (hcommand : command ∈ commandsOf events) (hbuffer : buffer ∈ command.buffers) :
    buffer ∈ (o.noteAll events).recorded := by
  obtain ⟨event, hmem, hevent⟩ := List.mem_filterMap.mp hcommand
  obtain ⟨before, after, rfl⟩ := List.append_of_mem hmem
  rw [noteAll_append, noteAll_cons]
  apply recorded_subset_noteAll
  cases event with
  | command c =>
    cases hevent
    exact List.mem_append_left _ hbuffer
  | _ => cases hevent

/-- Where no call is made, there is nothing to be in order, and all objects stay. -/
theorem orderly_of_callsOf_eq_nil (h : callsOf events = []) :
    o.Orderly events ∧ (o.noteAll events).live = o.live := by
  induction events generalizing o with
  | nil => exact ⟨trivial, rfl⟩
  | cons event rest ih =>
    cases event with
    | call call => cases h
    | _ =>
      obtain ⟨horderly, hlive⟩ := ih h
      exact ⟨⟨trivial, horderly⟩, hlive⟩

/-! ## What events lead to -/

/-- The live objects are some objects, each with a name of its own, and all buffers that
commands name are among them. -/
structure Holds (o : Ledger) (objects : List Object) : Prop where
  perm : o.live.Perm objects
  named : o.Named
  recordedLive : o.RecordedLive

/-- The events are in order, spare the buffers that commands name, and leave some live
objects. -/
structure Leads (o : Ledger) (events : List Event) (objects : List Object) : Prop where
  orderly : o.Orderly events
  sparing : o.Sparing events
  perm : (o.noteAll events).live.Perm objects

variable {objects others : List Object} {object : Object}

theorem holds_empty : empty.Holds [] := ⟨List.Perm.refl _, named_empty, recordedLive_empty⟩

theorem Holds.mem (h : o.Holds objects) (hmem : object ∈ objects) : object ∈ o.live :=
  h.perm.mem_iff.mpr hmem

/-- No command names a buffer that is not live. -/
theorem Holds.not_recorded {buffer : Handle} (h : o.Holds objects)
    (hlacks : o.Lacks (.buffer, buffer)) : buffer ∉ o.recorded :=
  fun hmem => hlacks (List.mem_map_of_mem (h.recordedLive buffer hmem))

/-- The objects after some events. -/
theorem Holds.after (h : o.Holds objects) (hfresh : o.Fresh events)
    (hleads : o.Leads events others) : (o.noteAll events).Holds others :=
  ⟨hleads.perm, h.named.noteAll hfresh, h.recordedLive.noteAll hleads.sparing⟩

theorem Holds.leads_nil (h : o.Holds objects) : o.Leads [] objects := ⟨trivial, trivial, h.perm⟩

theorem Leads.trans {a b : List Event} (ha : o.Leads a objects)
    (hb : (o.noteAll a).Leads b others) : o.Leads (a ++ b) others := by
  refine ⟨orderly_append.mpr ⟨ha.orderly, hb.orderly⟩, sparing_append.mpr ⟨ha.sparing, hb.sparing⟩, ?_⟩
  rw [noteAll_append]
  exact hb.perm

/-- Events lead on from where the events before them have led. -/
theorem Holds.leads_append {middle : List Object} {a b : List Event} (h : o.Holds objects)
    (hfresh : o.Fresh (a ++ b)) (ha : o.Fresh a → o.Leads a middle)
    (hb : (o.noteAll a).Holds middle → (o.noteAll a).Fresh b → (o.noteAll a).Leads b others) :
    o.Leads (a ++ b) others := by
  obtain ⟨hfirst, hrest⟩ := fresh_append.mp hfresh
  have hleads := ha hfirst
  exact hleads.trans (hb (h.after hfirst hleads) hrest)

/-- What is noted for the log has no effect. -/
theorem Leads.notice (h : o.Leads events objects) (notice : Notice) :
    o.Leads (events ++ [.notice notice]) objects :=
  h.trans ⟨⟨trivial, trivial⟩, ⟨trivial, trivial⟩, h.perm⟩

theorem Leads.of_perm (h : o.Leads events objects) (hperm : objects.Perm others) :
    o.Leads events others :=
  ⟨h.orderly, h.sparing, h.perm.trans hperm⟩

/-- At any moment on the way, the buffers that were named by commands so far are live. -/
theorem Leads.live_of_command {earlier later : List Event} {command : Command} {buffer : Handle}
    (h : empty.Leads (earlier ++ later) objects) (hcommand : command ∈ commandsOf earlier)
    (hbuffer : buffer ∈ command.buffers) : .buffer buffer ∈ (empty.noteAll earlier).live :=
  recordedLive_empty.noteAll (sparing_append.mp h.sparing).1 buffer
    (mem_recorded_noteAll hcommand hbuffer)

/-- A live object is destroyed by its name. -/
theorem perm_remove (hnamed : o.Named) (hperm : o.live.Perm (object :: objects)) :
    (o.remove object.name).live.Perm objects := by
  have hunique : o.live.Pairwise fun a b =>
      decide (a.name = object.name) = true → decide (b.name = object.name) = true → False := by
    refine (List.pairwise_map.mp hnamed).imp fun {a b} hne ha hb => hne ?_
    rw [of_decide_eq_true ha, of_decide_eq_true hb]
  have herase := hperm.eraseP _ hunique
  simpa [remove] using herase

/-- It is not live any more then. -/
theorem not_mem_remove (hnamed : o.Named) (hperm : o.live.Perm (object :: objects)) :
    object ∉ (o.remove object.name).live := by
  have hnodup := (hperm.map Object.name).nodup_iff.mp hnamed
  intro hmem
  have hother : object ∈ objects := (perm_remove hnamed hperm).mem_iff.mp hmem
  exact (List.nodup_cons.mp hnodup).1 (List.mem_map_of_mem hother)

end Ledger

end GuestReplica
