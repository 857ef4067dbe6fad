import GuestReplica.Guest
import GuestReplica.Staging.Request

set_option autoImplicit false

/-!
# Staging of guest pages

Guest pages go into staging memory piece by piece: each piece is as long as the
allocation that the pool hands out.  A piece is claimed as valid first, then its
bytes are copied, then its copy region joins a batch.  A batch is recorded as one
copy command when the next piece lies in another staging buffer, and at the end.
-/

namespace GuestReplica

/-! ## Batches of copy regions -/

/-- Copy regions with the same source buffer that are still to be recorded. -/
structure Batch where
  source : Handle
  regions : List CopyRegion
  deriving DecidableEq, Repr, Inhabited

namespace Batch

variable {τ ε σ : Type}

/-- No region, and no source yet. -/
def empty : Batch := ⟨Handle.null, []⟩

/-- Records the regions as one copy into `target`, if there are any. -/
def record (batch : Batch) (target : Handle) : Action τ ε σ Unit :=
  if batch.regions = [] then
    return ()
  else if batch.source = Handle.null then
    Action.violate .nullSource
  else
    Action.emit [.command (.copy batch.source target batch.regions)]

/-- Adds a region of a source buffer.  The regions of another source are recorded first. -/
def push (batch : Batch) (target source : Handle) (region : CopyRegion) :
    Action τ ε σ Batch := do
  if source = batch.source then
    return { batch with regions := batch.regions ++ [region] }
  else
    batch.record target
    return ⟨source, [region]⟩

end Batch

/-! ## Pieces of a range -/

/-- How guest reads are traced. -/
inductive ReadTrace where
  | off
  /-- as lines of the log -/
  | log
  /-- as events of their own -/
  | report
  deriving DecidableEq, Repr, Inhabited

/-- The events that trace a guest read. -/
def ReadTrace.events : ReadTrace → (address length : Nat) → List Event
  | .off, _, _ => []
  | .log, address, length => [.notice (.guestRead address length)]
  | .report, address, length => [.guestRead address length]

/-- What the pieces of an upload have in common. -/
structure Upload where
  guest : GuestMemory
  trace : ReadTrace
  /-- the buffer that the guest's bytes go to -/
  target : Handle
  /-- a guest page has `2 ^ pageBits` bytes -/
  pageBits : Nat
  /-- the submission that will copy the pieces -/
  submission : Nat

namespace Upload

variable {τ ε σ : Type}

/-- Fills an allocation with the guest bytes from `address` on, and adds the piece
to the batch.  The claim comes before the copy, so that a guest write in between
is not missed. -/
def stagePiece (d : Device σ) (upload : Upload) (batch : Batch) (address : Nat)
    (piece : Staging.Allocation) : Action τ ε σ Batch := do
  Action.emit [.marked address (piece.size % addressLimit) false, .lookup address piece.size]
  match upload.guest.window? address piece.size with
  | none => Action.violate .guestOutOfBounds
  | some bytes =>
    piece.write d bytes
    batch.push upload.target piece.buffer ⟨piece.offset, address, piece.size⟩

/-- Stages `remaining` guest pages from the page `start` on.  Answers with the
batch, and with the failure that stopped the work, if any. -/
def stagePages (d : Device σ) (upload : Upload) (batch : Batch) (start remaining : Nat) :
    Action Staging.Pool ε σ (Batch × Option StagingError) :=
  if remaining = 0 then
    return (batch, none)
  else do
    match ← (Staging.Pool.request d upload.submission (remaining <<< upload.pageBits)
        (1 <<< upload.pageBits)).attempt with
    | .error failure => return (batch, some failure)
    | .ok piece =>
      let batch ← stagePiece d upload batch (toAddress (start <<< upload.pageBits)) piece
      let pages := (piece.size >>> upload.pageBits) % addressLimit
      if 0 < pages ∧ pages ≤ remaining then
        stagePages d upload batch (start + pages) (remaining - pages)
      else
        Action.violate .unevenPiece
termination_by remaining

/-- Stages ranges of pages in order, until a failure stops the work. -/
def stageRanges (d : Device σ) (upload : Upload) (batch : Batch) :
    List PageRange → Action Staging.Pool ε σ (Batch × Option StagingError)
  | [] => return (batch, none)
  | range :: rest => do
    Action.emit (upload.trace.events (toAddress (range.start <<< upload.pageBits))
      (toAddress (range.count <<< upload.pageBits)))
    match ← stagePages d upload batch range.start range.count with
    | (batch, none) => stageRanges d upload batch rest
    | (batch, some failure) => return (batch, some failure)

/-- Stages ranges of pages and records the copies of all that was staged.  Answers
with the failure that stopped the work, if any. -/
def stage (d : Device σ) (upload : Upload) (ranges : List PageRange) :
    Action Staging.Pool ε σ (Option StagingError) := do
  let (batch, failure) ← stageRanges d upload Batch.empty ranges
  batch.record upload.target
  return failure

end Upload

end GuestReplica
