import GuestReplica.Proofs.Execution
import GuestReplica.Proofs.Staging.Allocations
import GuestReplica.Proofs.Staging.Reuse

set_option autoImplicit false

/-!
# Loads: regions with the bytes that they are to deliver

A region that waits to be copied stands for certain bytes, which must be in its
staging buffer until it is copied.  A load is such a region with its bytes.  The
buffer of a replica is *due* to hold some bytes when it holds them once all loads are
delivered.  Executing a copy and staging a piece keep this, because the bytes of a
load are guarded by the pool: no piece is staged over them.
-/

namespace GuestReplica

open Staging (Allocation Pool)

/-- A region that waits to be copied out of a staging buffer, with the bytes that are
wanted at the addresses it is copied to. -/
structure Load where
  submission : Nat
  source : Handle
  region : CopyRegion
  wanted : Nat → UInt8

namespace Load

/-- What the device is to do for a load. -/
def move (target : Handle) (load : Load) : Move :=
  ⟨load.submission, load.source, target, load.region⟩

/-- The bytes of the target when a load was delivered. -/
def deliver (x : Nat → UInt8) (load : Load) : Nat → UInt8 := fun i =>
  if load.region.targetOffset ≤ i ∧ i < load.region.targetOffset + load.region.size then
    load.wanted i
  else
    x i

/-- The staging buffer of a load holds what is wanted. -/
def Holds (c : Contents) (load : Load) : Prop :=
  ∀ k < load.region.size, c load.source (load.region.sourceOffset + k) =
    load.wanted (load.region.targetOffset + k)

theorem Holds.congr {c c' : Contents} {load : Load} (h : load.Holds c)
    (hsame : c' load.source = c load.source) : load.Holds c' := by
  intro k hk
  rw [hsame]
  exact h k hk

/-- A load is delivered by its move. -/
theorem Holds.move_target {c : Contents} {load : Load} (h : load.Holds c) (target : Handle) :
    c.move (load.move target) target = load.deliver (c target) := by
  funext i
  simp only [Contents.move, move, deliver, true_and]
  split
  · next hin =>
    rw [h (i - load.region.targetOffset) (by omega), Nat.add_sub_cancel' hin.1]
  · rfl

theorem move_of_ne {c : Contents} {load : Load} {target b : Handle} (h : b ≠ target) :
    c.move (load.move target) b = c b := by
  funext i
  simp [Contents.move, move, h]

/-- Moves deliver their loads, and change nothing else. -/
theorem foldl_move {target : Handle} {loads : List Load} {c : Contents}
    (h : ∀ load ∈ loads, load.Holds c ∧ load.source ≠ target) :
    (loads.map (move target)).foldl Contents.move c target = loads.foldl deliver (c target) ∧
      ∀ b ≠ target, (loads.map (move target)).foldl Contents.move c b = c b := by
  induction loads generalizing c with
  | nil => exact ⟨rfl, fun _ _ => rfl⟩
  | cons load rest ih =>
    have hrest : ∀ other ∈ rest, other.Holds (c.move (load.move target)) ∧
        other.source ≠ target := by
      intro other hmem
      obtain ⟨hholds, hne⟩ := h other (List.mem_cons_of_mem _ hmem)
      exact ⟨hholds.congr (move_of_ne hne), hne⟩
    obtain ⟨htarget, hother⟩ := ih hrest
    have hholds := (h load List.mem_cons_self).1
    rw [List.map_cons, List.foldl_cons, List.foldl_cons, htarget, hholds.move_target]
    refine ⟨rfl, fun b hb => ?_⟩
    rw [hother b hb, move_of_ne hb]

end Load

/-- A load that can still be delivered: its bytes are there, and the pool guards them
for its submission, which is not after the latest one. -/
structure Backed (target : Handle) (latest : Nat) (p : Pool) (c : Contents) (load : Load) :
    Prop where
  holds : load.Holds c
  source_ne : load.source ≠ target
  guarded : p.Guards load.submission load.source (load.region.sourceOffset + load.region.size)
  le_latest : load.submission ≤ latest

/-- The target is due to hold the bytes of `x`: it holds them once the copies that wait,
and the moves of the batch, are done. -/
def Due (target : Handle) (latest : Nat) (p : Pool) (batched : List Move) (x : Nat → UInt8)
    (c : Contents) (waiting : List Copy) : Prop :=
  ∃ loads : List Load, waiting.flatMap Copy.moves ++ batched = loads.map (Load.move target) ∧
    (∀ load ∈ loads, Backed target latest p c load) ∧ loads.foldl Load.deliver (c target) = x

namespace Due

variable {σ : Type} {d : Device σ} {p q : Pool} {target : Handle} {latest : Nat}
variable {batched : List Move} {x : Nat → UInt8} {c : Contents} {waiting : List Copy}

/-- When nothing waits any more, the target holds what it is due to hold. -/
theorem eq_of_nil (h : Due target latest p [] x c []) : c target = x := by
  obtain ⟨loads, hmoves, _, hx⟩ := h
  obtain rfl : loads = [] := List.map_eq_nil_iff.mp hmoves.symm
  exact hx

/-- At first the target is due to hold what it holds. -/
theorem initial (target : Handle) (latest : Nat) (p : Pool) (c : Contents) :
    Due target latest p [] (c target) c [] :=
  ⟨[], rfl, by simp, rfl⟩

/-- Executing the first copy changes nothing about it. -/
theorem execute {copy : Copy} (h : Due target latest p batched x c (copy :: waiting)) :
    Due target latest p batched x (copy.perform c) waiting := by
  obtain ⟨loads, hmoves, hbacked, hx⟩ := h
  rw [List.flatMap_cons, List.append_assoc] at hmoves
  obtain ⟨first, rest, rfl, hfirst, hrest⟩ := List.map_eq_append_iff.mp hmoves.symm
  have hdelivered := Load.foldl_move (c := c) fun load hmem =>
    have hload := hbacked load (List.mem_append_left rest hmem)
    ⟨hload.holds, hload.source_ne⟩
  rw [hfirst] at hdelivered
  obtain ⟨htarget, hother⟩ := hdelivered
  refine ⟨rest, hrest.symm, fun load hmem => ?_, ?_⟩
  · have hload := hbacked load (List.mem_append_right first hmem)
    exact ⟨hload.holds.congr (hother _ hload.source_ne), hload.source_ne, hload.guarded,
      hload.le_latest⟩
  · rw [← hx, List.foldl_append, Copy.perform, htarget]

/-- While nothing happens, it stays so. -/
theorem idle {c' : Contents} {waiting' : List Copy} (h : Due target latest p batched x c waiting)
    (hexecutes : Executes [] c waiting c' waiting') :
    Due target latest p batched x c' waiting' :=
  hexecutes.keeps execute h

/-- The pool may change as long as it guards what it has guarded. -/
theorem mono {latest' : Nat} (h : Due target latest p batched x c waiting)
    (hlatest : latest ≤ latest')
    (hguards : ∀ {submission buffer stop}, submission ≤ latest →
      p.Guards submission buffer stop → q.Guards submission buffer stop) :
    Due target latest' q batched x c waiting := by
  obtain ⟨loads, hmoves, hbacked, hx⟩ := h
  refine ⟨loads, hmoves, fun load hmem => ?_, hx⟩
  have hload := hbacked load hmem
  exact ⟨hload.holds, hload.source_ne, hguards hload.le_latest hload.guarded,
    Nat.le_trans hload.le_latest hlatest⟩

/-- A copy that is recorded waits from then on. -/
theorem recorded {copy : Copy} (h : Due target latest p (copy.moves ++ batched) x c waiting) :
    Due target latest p batched x c (waiting ++ [copy]) := by
  obtain ⟨loads, hmoves, hbacked, hx⟩ := h
  refine ⟨loads, ?_, hbacked, hx⟩
  rw [← hmoves, List.flatMap_append, List.flatMap_singleton, List.append_assoc]

/-- Bytes that are stored where a request has put them make a load, which is delivered
after all others.  They are not stored over the bytes of those. -/
theorem stored {a : Allocation} {size alignment address : Nat} {events : List Event}
    {bytes : ByteArray} {wanted : Nat → UInt8}
    (h : Due target latest p batched x c waiting)
    (hrequest : Pool.Requests d p latest size alignment (.done a) q events) (hp : p.Valid)
    (hnodup : (target :: q.buffers).Nodup) (hsize : bytes.size = a.size)
    (hbytes : ∀ k < a.size, bytes.get! k = wanted (address + k)) :
    Due target latest q
      (batched ++ [⟨latest, a.buffer, target, ⟨a.offset, address, a.size⟩⟩])
      (Load.deliver x ⟨latest, a.buffer, ⟨a.offset, address, a.size⟩, wanted⟩)
      (c.store a.buffer a.offset bytes) waiting := by
  obtain ⟨loads, hmoves, hbacked, hx⟩ := h
  obtain ⟨htarget, hbuffers⟩ := List.nodup_cons.mp hnodup
  have hsource : a.buffer ≠ target := by
    intro heq
    exact htarget (heq ▸ hrequest.buffer_mem)
  refine ⟨loads ++ [⟨latest, a.buffer, ⟨a.offset, address, a.size⟩, wanted⟩], ?_, ?_, ?_⟩
  · rw [← List.append_assoc, hmoves, List.map_append]
    rfl
  · intro load hmem
    rcases List.mem_append.mp hmem with hold | hnew
    · have hload := hbacked load hold
      refine ⟨fun k hk => ?_, hload.source_ne, hrequest.guards hload.le_latest hload.guarded,
        hload.le_latest⟩
      have hbehind : a.buffer = load.source →
          load.region.sourceOffset + load.region.size ≤ a.offset := by
        intro hsame
        apply hrequest.stop_le_offset hbuffers
        rw [hsame]
        exact hload.guarded
      rw [Contents.store_of_not_stored, hload.holds k hk]
      rintro ⟨hsame, hoffset, _⟩
      have hstop := hbehind hsame.symm
      omega
    · obtain rfl := List.mem_singleton.mp hnew
      refine ⟨fun k hk => ?_, hsource, hrequest.guards_allocation hp, Nat.le_refl _⟩
      rw [Contents.store_of_lt (hsize ▸ hk)]
      exact hbytes k hk
  · have hkept : c.store a.buffer a.offset bytes target = c target := by
      funext i
      exact Contents.store_of_not_stored fun hstored => hsource hstored.1.symm
    rw [List.foldl_append, hkept, hx]
    rfl

/-- When a submission is complete and its copies are executed, its pages may be used
again. -/
theorem reclaim {completed : Nat} (h : Due target latest p [] x c waiting)
    (hlater : ∀ copy ∈ waiting, completed < copy.submission) :
    Due target latest (p.reclaim completed) [] x c waiting := by
  obtain ⟨loads, hmoves, hbacked, hx⟩ := h
  refine ⟨loads, hmoves, fun load hmem => ?_, hx⟩
  have hload := hbacked load hmem
  have hwaits : load.move target ∈ waiting.flatMap Copy.moves := by
    rw [List.append_nil] at hmoves
    rw [hmoves]
    exact List.mem_map_of_mem hmem
  obtain ⟨copy, hcopy, hmove⟩ := List.mem_flatMap.mp hwaits
  have hsubmission : completed < load.submission := by
    obtain ⟨region, _, heq⟩ := List.mem_map.mp hmove
    have hlate := hlater copy hcopy
    rw [show load.submission = copy.submission from (congrArg Move.submission heq).symm]
    exact hlate
  exact ⟨hload.holds, hload.source_ne, hload.guarded.reclaim hsubmission, hload.le_latest⟩

end Due

end GuestReplica
