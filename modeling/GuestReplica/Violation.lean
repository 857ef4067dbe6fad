set_option autoImplicit false

/-!
# Violations: what a caller must not do

A violation is a broken precondition or an arithmetic limit that was passed.  It
stops the running operation at once, unlike an error, which the operation hands
back after it has cleaned up.  Only two of the causes have a text of their own.
-/

namespace GuestReplica

/-- Why an operation stopped without an answer. -/
inductive Violation where
  /-- a declared read claims to write the bytes from `start` to `stop` -/
  | readWrites (start stop : Nat)
  /-- the replica has given up its buffer and its staging memory -/
  | shutDown
  /-- a sum of sizes is `Size.limit` or more -/
  | sizeOverflow
  /-- the page after a range has no 32-bit index -/
  | pageIndexOverflow
  /-- page ranges that overlap or are not in ascending order -/
  | rangesOutOfOrder
  /-- the guest page size is more than a gigabyte -/
  | guestPageTooLarge
  /-- a staging page of no bytes -/
  | emptyStagingPage
  /-- flushes in units of no bytes -/
  | emptyFlushUnit
  /-- a request for no bytes -/
  | emptyRequest
  /-- an alignment that is no power of two -/
  | alignmentNotPowerOfTwo
  /-- an index that names no staging page -/
  | unknownPage
  /-- the guest has no memory at an address -/
  | guestOutOfBounds
  /-- a staged piece that is not made of guest pages of its range -/
  | unevenPiece
  /-- a copy whose source is the null buffer -/
  | nullSource
  deriving DecidableEq, Repr, Inhabited

/-- The text of a violation, for those that have one. -/
def Violation.message? : Violation → Option String
  | .readWrites start stop =>
    some s!"a read access of the shared memory can't write {start}..{stop}"
  | .shutDown => some "the shared memory has been shut down"
  | _ => none

end GuestReplica
