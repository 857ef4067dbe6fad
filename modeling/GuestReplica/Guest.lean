import GuestReplica.Violation
import GuestReplica.Size

set_option autoImplicit false

/-!
# The guest's memory and its pages

Guest addresses are words of 32 bits.  Guest memory is a run of bytes that starts
at some address; a look-up outside of it finds nothing.  Uploads are made page by
page, in ranges of page indices that are sorted and do not overlap.
-/

namespace GuestReplica

/-- Guest addresses and page indices are below this bound. -/
def addressLimit : Nat := 1 <<< 32

/-- The guest address of a byte offset; bits past the 32nd are lost. -/
def toAddress (offset : Nat) : Nat := offset % addressLimit

/-- The bytes that the guest has, from the address `base` on. -/
structure GuestMemory where
  base : Nat
  bytes : ByteArray
  deriving Inhabited

namespace GuestMemory

/-- The guest has `length` bytes at `address`. -/
def Covers (guest : GuestMemory) (address length : Nat) : Prop :=
  guest.base ≤ address ∧ address - guest.base + length ≤ guest.bytes.size

instance (guest : GuestMemory) (address length : Nat) : Decidable (guest.Covers address length) :=
  inferInstanceAs (Decidable (_ ∧ _))

/-- The `length` bytes at an address, if the guest has them all. -/
def window? (guest : GuestMemory) (address length : Nat) : Option ByteArray :=
  if guest.Covers address length then
    some (guest.bytes.extract (address - guest.base) (address - guest.base + length))
  else
    none

/-- The guest stores bytes at an address; those that it has no memory for are lost. -/
def write (guest : GuestMemory) (address : Nat) (bytes : ByteArray) : GuestMemory :=
  let offset := address - guest.base
  { guest with
    bytes := guest.bytes.extract 0 offset ++
      bytes.extract 0 (guest.bytes.size - offset) ++
      guest.bytes.extract (offset + bytes.size) guest.bytes.size }

theorem window?_eq_none_iff {guest : GuestMemory} {address length : Nat} :
    guest.window? address length = none ↔ ¬ guest.Covers address length := by
  unfold window?
  split <;> simp [*]

theorem size_of_window? {guest : GuestMemory} {address length : Nat} {bytes : ByteArray}
    (h : guest.window? address length = some bytes) : bytes.size = length := by
  unfold window? at h
  split at h
  · next hc =>
    cases h
    rw [ByteArray.size_extract]
    have := hc.2
    omega
  · cases h

end GuestMemory

/-! ## Page ranges -/

/-- `count` pages of the guest, from the page `start` on. -/
structure PageRange where
  start : Nat
  count : Nat
  deriving DecidableEq, Repr, Inhabited

namespace PageRange

/-- The index of the page after the range. -/
def stop (r : PageRange) : Nat := r.start + r.count

/-- The index of the page after the range, if it is one. -/
def stop? (r : PageRange) : Except Violation Nat :=
  if r.stop < addressLimit then .ok r.stop else .error .pageIndexOverflow

/-- Checks that each range ends where the next one starts, or before. -/
def checkOrder : List PageRange → Except Violation Unit
  | first :: second :: rest => do
    let stop ← first.stop?
    if stop ≤ second.start then
      checkOrder (second :: rest)
    else
      .error .rangesOutOfOrder
  | _ => .ok ()

/-- The bytes of the pages, when a page has `2 ^ pageBits` of them. -/
def bytes (r : PageRange) (pageBits : Nat) : Span :=
  ⟨r.start <<< pageBits, r.stop <<< pageBits⟩

theorem stop?_eq_ok_iff {r : PageRange} {n : Nat} :
    r.stop? = .ok n ↔ r.stop < addressLimit ∧ r.stop = n := by
  unfold stop?
  split <;> simp [*]

/-- Ranges pass the check when all but the last end at an index, and none starts
before the one in front of it ends. -/
theorem checkOrder_eq_ok_iff {first second : PageRange} {rest : List PageRange} :
    checkOrder (first :: second :: rest) = .ok () ↔
      first.stop < addressLimit ∧ first.stop ≤ second.start ∧
        checkOrder (second :: rest) = .ok () := by
  rw [checkOrder, stop?]
  by_cases h : first.stop < addressLimit
  · by_cases h' : first.stop ≤ second.start <;> simp [h, h', bind, Except.bind]
  · simp [h, bind, Except.bind]

end PageRange

end GuestReplica
