import GuestReplica.Proofs.Replica.Tiling

set_option autoImplicit false

/-!
# Where uploads write

An upload declares the bytes from its first page to its last, as far as the buffer
goes, but the addresses that it copies to are cut down to 32 bits and not compared
with the size of the buffer.  The two agree for the bytes of the buffer.  Further
bytes are copied outside of the buffer, or, past the last address, to bytes of it that
may not be declared.
-/

namespace GuestReplica.Replica

variable {σ : Type} {d : Device σ} {r r' : Replica} {s s' : σ} {events : List Event}
variable {guest : GuestMemory} {trace : ReadTrace} {submission : Nat} {ranges : List PageRange}

/-- The bytes that a copy writes lie in the buffer, and are declared as written. -/
def Expects (r : Replica) (target : Nat × Nat) : Prop :=
  target.1 + target.2 ≤ size ∧ r.access.pending.start ≤ target.1 ∧
    target.1 + target.2 ≤ r.access.pending.stop

/-- A byte at an offset is copied into the buffer, behind the first byte that is
declared: the buffer has the byte, or it has the one whose address the offset is cut
down to. -/
def InPlace (lowest x : Nat) : Prop :=
  x < size ∨ addressLimit ≤ x ∧ lowest ≤ toAddress x ∧ toAddress x < size

instance (lowest x : Nat) : Decidable (InPlace lowest x) :=
  inferInstanceAs (Decidable (_ ∨ _))

/-- A piece is copied to where it is expected exactly if all of its bytes are copied
into the buffer, behind the first byte that is declared. -/
theorem expects_iff {span : Span} {start length : Nat} (hlength : 0 < length)
    (hstart : span.start ≤ start) (hstop : start + length ≤ span.stop)
    (hpending : r.access.pending = span.clamp size) :
    r.Expects (toAddress start, length) ↔
      ∀ x, start ≤ x → x < start + length → InPlace span.start x := by
  have hsize : size = 536870912 := rfl
  have haddress : addressLimit = 4294967296 := rfl
  simp only [Expects, hpending, Span.clamp, InPlace, toAddress, haddress]
  constructor
  · intro hexpects x hx hx'
    omega
  · intro hplaces
    -- the first byte is in place; the one that would lie behind the buffer is not, so
    -- the piece ends before it
    have hfirst := hplaces start (Nat.le_refl _) (by omega)
    have hend := hplaces (start + (size - start % 4294967296))
    omega

/-- The copies of an upload have the addresses that the offsets of its pieces are cut
down to. -/
theorem Uploaded.targetsOf_toAddress {pieces : List Piece} {reached : List PageRange}
    {left : List Span} (h : Uploaded r guest trace submission ranges events pieces reached left) :
    targetsOf events = (pieces.map Piece.extent).map fun piece => (toAddress piece.1, piece.2) := by
  rw [targetsOf, regionsOf, h.sourced, List.map_map, List.map_map, List.map_map]
  rfl

/-- A piece of an upload is copied to where it is expected exactly if all of its bytes
are in place. -/
theorem Uploaded.expects_iff {pieces : List Piece} {reached : List PageRange} {left : List Span}
    {first last : PageRange} {piece : Nat × Nat}
    (h : Uploaded r guest trace submission ranges events pieces reached left)
    (haccepts : Accepts ranges first last)
    (hpending : r'.access.pending = (r.uploadSpan first last).clamp size)
    (hmem : piece ∈ pieces.map Piece.extent) :
    r'.Expects (toAddress piece.1, piece.2) ↔
      ∀ x, piece.1 ≤ x → x < piece.1 + piece.2 → InPlace (first.start <<< r.pageBits) x := by
  obtain ⟨span, hspan, hstart, hstop⟩ := h.cuts.piece_subset hmem
  obtain ⟨range, hrange, rfl⟩ := List.mem_map.mp hspan
  have hfirst := haccepts.sorted.first_le_start haccepts.head_eq hrange
  have hlast := haccepts.sorted.stop_le_last haccepts.last_eq hrange
  have hlow : (r.uploadSpan first last).start ≤ piece.1 :=
    Nat.le_trans (shiftLeft_le_shiftLeft r.pageBits hfirst) hstart
  have hhigh : piece.1 + piece.2 ≤ (r.uploadSpan first last).stop :=
    Nat.le_trans hstop (shiftLeft_le_shiftLeft r.pageBits hlast)
  exact Replica.expects_iff (h.cuts.size_pos hmem) hlow hhigh hpending

/-- Where nothing is left of the ranges, their bytes are those of the pieces. -/
theorem Uploaded.mem_ranges_iff {pieces : List Piece} {reached : List PageRange} {left : List Span}
    (h : Uploaded r guest trace submission ranges events pieces reached left)
    (hleft : ∀ span ∈ left, span.IsEmpty) (x : Nat) :
    (∃ range ∈ ranges, x ∈ range.bytes r.pageBits) ↔
      ∃ piece ∈ pieces.map Piece.extent, piece.1 ≤ x ∧ x < piece.1 + piece.2 := by
  have hnone : ¬ ∃ span ∈ left, x ∈ span := by
    rintro ⟨span, hspan, hx⟩
    exact Span.isEmpty_iff.mp (hleft span hspan) x hx
  have hiff := h.cuts.mem_iff x
  rw [or_iff_left hnone] at hiff
  rw [← hiff]
  simp

/-- Where an upload that returns writes.  Its copies are those of pieces that cut the
ranges front to back, at the addresses that their offsets are cut down to; and a piece
is copied to bytes of the buffer that were declared exactly if each of its bytes is in
place.  So an upload that succeeds writes only such bytes exactly if every byte of its
ranges is in place. -/
theorem upload_expects_iff {ending : Ending UploadError Unit} (hr : Reachable d r)
    (hranges : ranges ≠ []) (hreturns : ending.Returns)
    (h : (upload d guest trace submission ranges).run r s = ⟨ending, r', s', events⟩) :
    ∃ first pieces left, ranges.head? = some first ∧
      Cuts (1 <<< r.pageBits) (ranges.map (·.bytes r.pageBits)) pieces left ∧
      (ending = .done () ↔ ∀ span ∈ left, span.IsEmpty) ∧
      targetsOf events = pieces.map (fun piece => (toAddress piece.1, piece.2)) ∧
      (∀ piece ∈ pieces, r'.Expects (toAddress piece.1, piece.2) ↔
        ∀ x, piece.1 ≤ x → x < piece.1 + piece.2 → InPlace (first.start <<< r.pageBits) x) ∧
      (ending = .done () → ((∀ target ∈ targetsOf events, r'.Expects target) ↔
        ∀ range ∈ ranges, ∀ x ∈ range.bytes r.pageBits,
          InPlace (first.start <<< r.pageBits) x)) := by
  obtain ⟨first, last, pieces, reached, left, haccepts, haccess, huploaded, hleft⟩ :=
    (uploads_of_run h).uploaded hr.valid hranges hreturns
  have htargets := huploaded.targetsOf_toAddress
  have hpending : r'.access.pending = (r.uploadSpan first last).clamp size := by
    rw [haccess, Access.Tracker.advance_pending, hr.valid.size_eq]
  have hexpects := fun (piece : Nat × Nat) (hmem : piece ∈ pieces.map Piece.extent) =>
    huploaded.expects_iff haccepts hpending hmem
  rw [huploaded.reaches.left_eq_nil_iff] at hleft
  refine ⟨first, _, left, haccepts.head_eq, huploaded.cuts, hleft, htargets, hexpects, ?_⟩
  intro hdone
  have hmem := huploaded.mem_ranges_iff (hleft.mp hdone)
  rw [htargets]
  constructor
  · intro hall range hrange x hx
    obtain ⟨piece, hpiece, hstart, hstop⟩ := (hmem x).mp ⟨range, hrange, hx⟩
    exact (hexpects piece hpiece).mp (hall _ (List.mem_map_of_mem hpiece)) x hstart hstop
  · intro hall target htarget
    obtain ⟨piece, hpiece, rfl⟩ := List.mem_map.mp htarget
    apply (hexpects piece hpiece).mpr
    intro x hstart hstop
    obtain ⟨range, hrange, hx⟩ := (hmem x).mpr ⟨piece, hpiece, hstart, hstop⟩
    exact hall range hrange x hx

/-- The guest has a byte behind those of the buffer, which is uploaded. -/
def uploadBehind : Outcome Replica UploadError Simulated.State Unit :=
  (upload (Simulated.device .direct) ⟨size, ⟨#[9]⟩⟩ .off 1 [⟨size, 1⟩]).run (bytewiseReplica 1)
    (createBytewise 1).device

/-- That upload succeeds, and writes where nothing is declared. -/
theorem not_expects_behind :
    uploadBehind.ending = .done () ∧
      ¬ ∀ target ∈ targetsOf uploadBehind.events, uploadBehind.subject.Expects target := by
  have hr := reachable_bytewise 1 (by decide +kernel)
  have hdone : uploadBehind.ending = .done () := by decide +kernel
  have hreturns : uploadBehind.ending.Returns := by
    intro v hbroken
    rw [hdone] at hbroken
    cases hbroken
  obtain ⟨first, _, _, hfirst, _, _, _, _, hiff⟩ := upload_expects_iff hr (List.cons_ne_nil _ _)
    hreturns (Outcome.eta uploadBehind)
  obtain rfl := Option.some.inj hfirst
  refine ⟨hdone, fun hall => ?_⟩
  have hplace := (hiff hdone).mp hall _ (List.mem_singleton_self _) size (by decide)
  revert hplace
  decide

end GuestReplica.Replica
