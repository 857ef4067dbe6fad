import GuestReplica.Event

set_option autoImplicit false

/-!
# Execution of recorded copies

The device executes copies some time after they were recorded: in the order of
recording, each of them once, and before it is told that their submission is
complete.  Meanwhile the host goes on storing bytes in staging buffers and recording
further copies.  An execution goes through such moments, and between any two of them
any number of the copies that wait may be executed.
-/

namespace GuestReplica

/-- The bytes of the buffers, by handle and offset. -/
abbrev Contents : Type := Handle → Nat → UInt8

/-- A region that is to be copied for a submission. -/
structure Move where
  submission : Nat
  source : Handle
  target : Handle
  region : CopyRegion
  deriving DecidableEq

/-- A copy command, with the submission that it was recorded for. -/
structure Copy where
  submission : Nat
  source : Handle
  target : Handle
  regions : List CopyRegion
  deriving DecidableEq

namespace Contents

/-- The host stores bytes in a buffer. -/
def store (c : Contents) (buffer : Handle) (offset : Nat) (bytes : ByteArray) : Contents :=
  fun b i =>
    if b = buffer ∧ offset ≤ i ∧ i < offset + bytes.size then bytes.get! (i - offset) else c b i

/-- The device copies a region. -/
def move (c : Contents) (m : Move) : Contents := fun b i =>
  if b = m.target ∧ m.region.targetOffset ≤ i ∧ i < m.region.targetOffset + m.region.size then
    c m.source (m.region.sourceOffset + (i - m.region.targetOffset))
  else
    c b i

/-- The bytes that are stored. -/
theorem store_of_lt {c : Contents} {buffer : Handle} {offset k : Nat} {bytes : ByteArray}
    (h : k < bytes.size) : c.store buffer offset bytes buffer (offset + k) = bytes.get! k := by
  have hin : offset ≤ offset + k ∧ offset + k < offset + bytes.size := by omega
  simp [store, hin]

/-- All other bytes stay. -/
theorem store_of_not_stored {c : Contents} {buffer b : Handle} {offset i : Nat}
    {bytes : ByteArray} (h : ¬ (b = buffer ∧ offset ≤ i ∧ i < offset + bytes.size)) :
    c.store buffer offset bytes b i = c b i :=
  if_neg h

end Contents

namespace Copy

/-- The regions of a copy, in order. -/
def moves (copy : Copy) : List Move :=
  copy.regions.map fun region => ⟨copy.submission, copy.source, copy.target, region⟩

/-- The device copies the regions of a copy, in order. -/
def perform (copy : Copy) (c : Contents) : Contents := copy.moves.foldl Contents.move c

end Copy

/-- Something that matters to the execution of copies. -/
inductive Moment where
  | stored (buffer : Handle) (offset : Nat) (bytes : ByteArray)
  | recorded (copy : Copy)
  /-- the device has completed all submissions up to this one -/
  | completed (submission : Nat)

/-- The moment that an event is, when copies are recorded for a submission. -/
def Event.moment? (submission : Nat) : Event → Option Moment
  | .hostWrite buffer _ offset bytes => some (.stored buffer offset bytes)
  | .command (.copy source target regions) => some (.recorded ⟨submission, source, target, regions⟩)
  | _ => none

/-- The moments among some events. -/
def momentsOf (submission : Nat) (events : List Event) : List Moment :=
  events.filterMap (Event.moment? submission)

@[simp] theorem momentsOf_append (submission : Nat) (a b : List Event) :
    momentsOf submission (a ++ b) = momentsOf submission a ++ momentsOf submission b :=
  List.filterMap_append

/-- What happens at a moment to the bytes of the buffers and to the copies that wait. -/
inductive Moment.Happens : Moment → Contents → List Copy → Contents → List Copy → Prop where
  | stored (buffer : Handle) (offset : Nat) (bytes : ByteArray) (c : Contents)
      (waiting : List Copy) :
      Happens (.stored buffer offset bytes) c waiting (c.store buffer offset bytes) waiting
  | recorded (copy : Copy) (c : Contents) (waiting : List Copy) :
      Happens (.recorded copy) c waiting c (waiting ++ [copy])
  /-- a submission can only be complete when its copies are executed -/
  | completed {submission : Nat} {c : Contents} {waiting : List Copy}
      (hlater : ∀ copy ∈ waiting, submission < copy.submission) :
      Happens (.completed submission) c waiting c waiting

/-- The executions of copies through some moments. -/
inductive Executes : List Moment → Contents → List Copy → Contents → List Copy → Prop where
  | done (c : Contents) (waiting : List Copy) : Executes [] c waiting c waiting
  /-- the copy that waits longest is executed -/
  | execute {moments : List Moment} {c c' : Contents} {copy : Copy} {waiting waiting' : List Copy}
      (hrest : Executes moments (copy.perform c) waiting c' waiting') :
      Executes moments c (copy :: waiting) c' waiting'
  | moment {m : Moment} {moments : List Moment} {c c₁ c' : Contents}
      {waiting waiting₁ waiting' : List Copy} (hnow : m.Happens c waiting c₁ waiting₁)
      (hrest : Executes moments c₁ waiting₁ c' waiting') :
      Executes (m :: moments) c waiting c' waiting'

namespace Executes

variable {c c' : Contents} {waiting waiting' : List Copy}

/-- An execution can be cut between any two moments. -/
theorem split {first second : List Moment}
    (h : Executes (first ++ second) c waiting c' waiting') :
    ∃ c₁ waiting₁, Executes first c waiting c₁ waiting₁ ∧
      Executes second c₁ waiting₁ c' waiting' := by
  generalize hmoments : first ++ second = moments at h
  induction h generalizing first with
  | done c waiting =>
    obtain ⟨rfl, rfl⟩ := List.append_eq_nil_iff.mp hmoments
    exact ⟨c, waiting, .done c waiting, .done c waiting⟩
  | execute _ ih =>
    obtain ⟨c₁, waiting₁, hfirst, hsecond⟩ := ih hmoments
    exact ⟨c₁, waiting₁, .execute hfirst, hsecond⟩
  | @moment m moments c _ _ waiting _ _ hnow hrest ih =>
    cases first with
    | nil =>
      rw [List.nil_append] at hmoments
      rw [hmoments]
      exact ⟨c, waiting, .done c waiting, .moment hnow hrest⟩
    | cons head tail =>
      obtain ⟨rfl, htail⟩ := List.cons.inj hmoments
      obtain ⟨c₁, waiting₁, hfirst, hsecond⟩ := ih htail
      exact ⟨c₁, waiting₁, .moment hnow hfirst, hsecond⟩

/-- While nothing happens, copies may be executed. -/
theorem keeps {Inv : Contents → List Copy → Prop}
    (hexecute : ∀ {copy c waiting}, Inv c (copy :: waiting) → Inv (copy.perform c) waiting)
    (h : Executes [] c waiting c' waiting') (hinv : Inv c waiting) : Inv c' waiting' := by
  generalize hmoments : ([] : List Moment) = moments at h
  induction h with
  | done c waiting => exact hinv
  | execute _ ih => exact ih (hexecute hinv) hmoments
  | moment _ _ _ => cases hmoments

/-- Copies may be executed before and after something happens. -/
theorem singleton {m : Moment} {Inv Inv' : Contents → List Copy → Prop}
    (hexecute : ∀ {copy c waiting}, Inv c (copy :: waiting) → Inv (copy.perform c) waiting)
    (hexecute' : ∀ {copy c waiting}, Inv' c (copy :: waiting) → Inv' (copy.perform c) waiting)
    (hhappens : ∀ {c waiting c₁ waiting₁}, m.Happens c waiting c₁ waiting₁ → Inv c waiting →
      Inv' c₁ waiting₁)
    (h : Executes [m] c waiting c' waiting') (hinv : Inv c waiting) : Inv' c' waiting' := by
  generalize hmoments : [m] = moments at h
  induction h with
  | done c waiting => cases hmoments
  | execute _ ih => exact ih (hexecute hinv) hmoments
  | moment hnow hrest _ =>
    cases hmoments
    exact hrest.keeps hexecute' (hhappens hnow hinv)

end Executes

/-! ## Execution without delay -/

/-- What the buffers hold when each copy is executed as soon as it is recorded. -/
def atOnce : List Moment → Contents → Contents
  | [], c => c
  | .stored buffer offset bytes :: rest, c => atOnce rest (c.store buffer offset bytes)
  | .recorded copy :: rest, c => atOnce rest (copy.perform c)
  | .completed _ :: rest, c => atOnce rest c

/-- Copies may be executed as soon as they are recorded: no submission is complete too
early then. -/
theorem executes_atOnce (moments : List Moment) (c : Contents) :
    Executes moments c [] (atOnce moments c) [] := by
  induction moments generalizing c with
  | nil => exact .done c []
  | cons m rest ih =>
    cases m with
    | stored buffer offset bytes => exact .moment (.stored buffer offset bytes c []) (ih _)
    | recorded copy => exact .moment (.recorded copy c []) (.execute (ih _))
    | completed submission => exact .moment (.completed (by simp)) (ih c)

end GuestReplica
