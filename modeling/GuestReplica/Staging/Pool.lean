import GuestReplica.Device.Call
import GuestReplica.Violation

set_option autoImplicit false

/-!
# The staging pool

Staging memory comes in pages: buffers of one size that are mapped for as long
as they live.  A page is in exactly one place.  At most one is `current`, and
allocations are cut from it front to back.  The others are either `submitted`,
waiting for the device to finish the last submission that read them, or
`writable` again.

This module holds the state of a pool and the steps between states that need no
device.
-/

namespace GuestReplica.Staging

/-- What a pool is like. -/
structure Config where
  pageSize : Nat := 2 <<< 20
  hostVisible : Mask := 0
  hostCoherent : Mask := 0
  /-- flushes start and end at multiples of this size -/
  flushUnit : Nat := 256
  maxPages : Option Nat := none
  deriving DecidableEq, Repr, Inhabited

/-- A staging buffer with its mapped memory. -/
structure Page where
  buffer : Handle
  memory : Handle
  /-- the device sees what the host writes without a flush -/
  coherent : Bool
  lastSubmission : Nat
  deriving DecidableEq, Repr, Inhabited

/-- A pool of pages.  Pages are named by their index in `pages`. -/
structure Pool where
  config : Config
  pages : List Page
  /-- in the order in which they were retired -/
  submitted : List Nat
  /-- the last one is used next -/
  writable : List Nat
  current : Option Nat
  /-- how much of the current page is handed out -/
  used : Nat
  /-- how much of the current page the device is known to see -/
  flushed : Nat
  deriving DecidableEq, Repr, Inhabited

/-- Bytes of a page that are handed out. -/
structure Allocation where
  buffer : Handle
  memory : Handle
  offset : Nat
  size : Nat
  deriving DecidableEq, Repr, Inhabited

namespace Pool

/-- A pool without pages. -/
def ofConfig (config : Config) : Pool := ⟨config, [], [], [], none, 0, 0⟩

/-- A pool without pages, provided that its pages and flush units hold a byte. -/
def new (config : Config) : Except Violation Pool :=
  if config.pageSize = 0 then .error .emptyStagingPage
  else if config.flushUnit = 0 then .error .emptyFlushUnit
  else .ok (ofConfig config)

/-- The page that allocations are cut from. -/
def currentPage? (p : Pool) : Option Page := p.current.bind fun i => p.pages[i]?

/-- The pool may create no other page. -/
def IsFull (p : Pool) : Prop := ∃ n ∈ p.config.maxPages, n ≤ p.pages.length

instance (p : Pool) : Decidable p.IsFull :=
  match h : p.config.maxPages with
  | none => isFalse (by simp [IsFull, h])
  | some n =>
    if hn : n ≤ p.pages.length then isTrue ⟨n, h, hn⟩
    else isFalse (by simpa [IsFull, h] using hn)

/-! ## Submissions that complete -/

/-- The page has served no submission after `completed`. -/
def isDone (p : Pool) (completed : Nat) (index : Nat) : Bool :=
  (p.pages[index]?).any (·.lastSubmission ≤ completed)

/-- Makes the submitted pages writable again, up to the first that a submission
after `completed` may still read. -/
def reclaim (completed : Nat) (p : Pool) : Pool :=
  { p with
    submitted := p.submitted.dropWhile (p.isDone completed)
    writable := p.writable ++ p.submitted.takeWhile (p.isDone completed) }

/-! ## Flushing and retiring the current page -/

/-- There are bytes of the current page that the device may not see yet. -/
def IsDirty (p : Pool) (page : Page) : Prop := page.coherent = false ∧ p.flushed < p.used

instance (p : Pool) (page : Page) : Decidable (p.IsDirty page) :=
  inferInstanceAs (Decidable (_ ∧ _))

/-- What to flush so that the device sees all that was handed out: from the flush
unit in which the dirty bytes start to the one in which they end, or to the end
of the memory when that is not before the end of the page. -/
def dirtyRange? (p : Pool) (page : Page) : Option MappedRange :=
  let start := Size.roundDown p.flushed p.config.flushUnit
  (Size.roundUp? p.used p.config.flushUnit).map fun stop =>
    ⟨page.memory, start, if p.config.pageSize ≤ stop then Size.whole else stop - start⟩

/-- All that was handed out is visible to the device. -/
def markFlushed (p : Pool) : Pool := { p with flushed := p.used }

/-- The current page waits for its submission. -/
def retire (p : Pool) : Pool :=
  { p with current := none, submitted := p.submitted ++ p.current.toList }

/-! ## The next current page -/

/-- A new page takes the next free index. -/
def addPage (page : Page) (p : Pool) : Pool := { p with pages := p.pages ++ [page] }

/-- The writable page that is used next leaves the writable ones. -/
def dropWritable (p : Pool) : Pool := { p with writable := p.writable.dropLast }

/-- Allocations are cut from the start of another page. -/
def turnTo (index : Nat) (p : Pool) : Pool :=
  { p with current := some index, used := 0, flushed := 0 }

/-- The allocation of at most `size` bytes at an offset of a page. -/
def cut (p : Pool) (page : Page) (size offset : Nat) : Allocation :=
  ⟨page.buffer, page.memory, offset, min size (p.config.pageSize - offset)⟩

/-- The bytes of a page up to `used` are handed out, the last ones to `submission`. -/
def handOut (index submission used : Nat) (p : Pool) : Pool :=
  { p with
    pages := p.pages.modify index fun page => { page with lastSubmission := submission }
    used := used }

/-- All pages are gone. -/
def clear (p : Pool) : Pool := ofConfig p.config

/-! ## Equations -/

@[simp] theorem submitted_reclaim_append_writable (completed : Nat) (p : Pool) :
    p.submitted.takeWhile (p.isDone completed) ++ (p.reclaim completed).submitted =
      p.submitted :=
  List.takeWhile_append_dropWhile

@[simp] theorem pages_reclaim (completed : Nat) (p : Pool) :
    (p.reclaim completed).pages = p.pages := rfl

@[simp] theorem pages_retire (p : Pool) : p.retire.pages = p.pages := rfl

@[simp] theorem pages_markFlushed (p : Pool) : p.markFlushed.pages = p.pages := rfl

@[simp] theorem length_pages_handOut (index submission used : Nat) (p : Pool) :
    (p.handOut index submission used).pages.length = p.pages.length := by
  simp [handOut]

theorem new_eq_ok_iff {config : Config} {p : Pool} :
    new config = .ok p ↔
      config.pageSize ≠ 0 ∧ config.flushUnit ≠ 0 ∧ p = ofConfig config := by
  unfold new
  split
  · simp [*]
  · split
    · simp [*]
    · simp [*, eq_comm]

theorem size_cut_le (p : Pool) (page : Page) (size offset : Nat) :
    (p.cut page size offset).size ≤ size := Nat.min_le_left _ _

end Pool

end GuestReplica.Staging
