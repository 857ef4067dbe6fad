import GuestReplica.Proofs.Upload.Pieces
import GuestReplica.Proofs.Upload.Ranges

set_option autoImplicit false

/-!
# Uploads that are not stopped

An upload of guest pages that the guest has stages all of them or hands an error back,
unless its pool gets stuck: more bytes are missing, and the end of what is handed out
cannot be rounded up, since a sum of sizes is no size.  A pool serves some bytes in
units when it cannot get stuck before so many bytes are handed out.
-/

namespace GuestReplica

namespace GuestMemory

theorem Covers.sub {guest : GuestMemory} {address length other length' : Nat}
    (h : guest.Covers address length) (hstart : address ≤ other)
    (hstop : other + length' ≤ address + length) : guest.Covers other length' := by
  obtain ⟨hbase, hsize⟩ := h
  refine ⟨Nat.le_trans hbase hstart, ?_⟩
  omega

theorem Covers.window?_ne_none {guest : GuestMemory} {address length : Nat}
    (h : guest.Covers address length) : guest.window? address length ≠ none := by
  rw [Ne, window?_eq_none_iff, not_not]
  exact h

end GuestMemory

/-- An address stays what it is. -/
theorem toAddress_of_lt {offset : Nat} (h : offset < addressLimit) : toAddress offset = offset :=
  Nat.mod_eq_of_lt h

namespace Staging.Pool

variable {σ : Type} {d : Device σ} {p q : Pool} {events : List Event}

/-- Nothing stops requests for whole units until they have got so many bytes: a sum of a
page and a unit is a size, or no request gets to the end of a page. -/
structure Serves (p : Pool) (unit bytes : Nat) : Prop where
  valid : p.Valid
  aligned : p.Aligned unit
  nonNull : p.NonNull
  unit_fits : p.config.pageSize + unit < Size.limit ∨ p.used + bytes ≤ p.config.pageSize
  flushUnit_fits : p.config.pageSize + p.config.flushUnit < Size.limit

variable {submission size unit bytes : Nat} {a : Allocation}

/-- Requests for whole units get whole units, in buffers that have a handle. -/
structure Sound (p : Pool) (unit : Nat) : Prop where
  valid : p.Valid
  aligned : p.Aligned unit
  nonNull : p.NonNull

theorem Requests.sound (hd : d.NeverNull) {ending : Ending StagingError Allocation}
    (h : Requests d p submission size unit ending q events) (hsize : unit ∣ size)
    (hp : p.Sound unit) : q.Sound unit :=
  ⟨h.valid hp.valid, h.aligned hp.aligned hsize, h.nonNull hd hp.nonNull⟩

/-- When so many of some bytes are looked up, a pool has got to a state where at least a unit
is missing, and where what is handed out cannot be rounded up to a unit, or has to be flushed
and cannot be rounded up to a flush unit. -/
structure Stuck (p q : Pool) (unit looked bytes : Nat) : Prop where
  missing : looked + unit ≤ bytes
  used_le : q.used ≤ p.used + looked
  overflows : Size.limit ≤ q.used + unit ∨ q.FlushOverflows

/-- A pool that got stuck after it had served some bytes was stuck before, too, on the way to
more bytes. -/
theorem Stuck.after {r : Pool} {first looked whole : Nat} (h : Stuck q r unit looked bytes)
    (hused : q.used ≤ p.used + first) (hwhole : first + bytes ≤ whole) :
    Stuck p r unit (first + looked) whole := by
  have hmissing := h.missing
  have hle := h.used_le
  exact ⟨by omega, by omega, h.overflows⟩

/-- A pool that serves the bytes does not get stuck. -/
theorem Serves.not_stuck {looked : Nat} (hp : p.Serves unit bytes) (hq : q.Valid)
    (hconfig : q.config = p.config) : ¬ Stuck p q unit looked bytes := by
  rintro ⟨hmissing, hle, hoverflows⟩
  have hused := hq.used_le_pageSize
  have hunit := hp.unit_fits
  have hflush := hp.flushUnit_fits
  rw [hconfig] at hused
  rcases hoverflows with hlarge | hflushes
  · omega
  · have hlarge := hflushes.large
    rw [hconfig] at hlarge
    omega

end Staging.Pool

theorem one_shiftLeft_ne_zero {n : Nat} (bits : Nat) (h : n ≠ 0) : n <<< bits ≠ 0 := by
  rw [Nat.shiftLeft_eq]
  exact Nat.mul_ne_zero h (Nat.pos_iff_ne_zero.mp (Nat.two_pow_pos bits))

/-- A region with a buffer can be added, and leaves a batch that has a source. -/
theorem Batch.Pushes.not_lacksSource {ε : Type} {batch batch' : Batch} {target source : Handle}
    {region : CopyRegion} {events : List Event} (hsource : source ≠ Handle.null)
    (h : batch.Pushes (ε := ε) target source region (.done batch') events) :
    ¬ batch'.LacksSource := by
  cases h with
  | joined heq =>
    rw [heq] at hsource
    exact fun hlacks => hsource hlacks.2
  | started _ _ => exact fun hlacks => hsource hlacks.2

namespace Upload

open Staging (Allocation Pool)

variable {ε σ : Type} {d : Device σ} {u : Upload} {p q : Pool} {batch batch' : Batch}
variable {events : List Event}

theorem StagesPiece.not_broken {address : Nat} {a : Allocation} {v : Violation}
    (hcovers : u.guest.Covers address a.size) (hbatch : ¬ batch.LacksSource) :
    ¬ StagesPiece (ε := ε) u batch address a (.broken v) events := by
  intro h
  cases h with
  | outside hwindow => exact hcovers.window?_ne_none hwindow
  | filled _ hpush =>
    cases hpush with
    | sourceless _ hlacks => exact hbatch hlacks

theorem StagesPiece.not_lacksSource {address : Nat} {a : Allocation}
    (hbuffer : a.buffer ≠ Handle.null)
    (h : StagesPiece (ε := ε) u batch address a (.done batch') events) : ¬ batch'.LacksSource := by
  cases h with
  | filled _ hpush => exact hpush.not_lacksSource hbuffer

/-- Of pages that end below the last address, neither the number nor the address of the
first one is cut down. -/
theorem lt_of_stop_lt {bits start remaining : Nat}
    (hlimit : (start + remaining) <<< bits < addressLimit) :
    remaining < addressLimit ∧ toAddress (start <<< bits) = start <<< bits := by
  have hpages : start + remaining < addressLimit := Nat.lt_of_shiftLeft_lt hlimit
  have hstart := shiftLeft_le_shiftLeft bits (Nat.le_add_right start remaining)
  exact ⟨by omega, toAddress_of_lt (Nat.lt_of_le_of_lt hstart hlimit)⟩

/-- What is left of some pages when a piece was cut off: pages whose addresses are
not cut down, and of which the guest has whatever it had. -/
theorem covers_rest {start remaining pages : Nat} {guest : GuestMemory} (hle : pages ≤ remaining)
    (hcovers : guest.Covers (start <<< u.pageBits) (remaining <<< u.pageBits)) :
    guest.Covers ((start + pages) <<< u.pageBits) ((remaining - pages) <<< u.pageBits) := by
  simp only [Nat.shiftLeft_eq] at hcovers ⊢
  apply hcovers.sub (Nat.mul_le_mul_right _ (Nat.le_add_right start pages))
  rw [← Nat.add_mul, ← Nat.add_mul]
  exact Nat.mul_le_mul_right _ (by omega)

/-- The bytes of the pages that are left, and those of a piece that was cut off. -/
theorem shiftLeft_sub_add {remaining pages size : Nat} (hsize : pages <<< u.pageBits = size)
    (hle : pages ≤ remaining) :
    remaining <<< u.pageBits = size + (remaining - pages) <<< u.pageBits := by
  rw [← hsize, Nat.shiftLeft_eq, Nat.shiftLeft_eq, Nat.shiftLeft_eq, ← Nat.add_mul,
    Nat.add_sub_cancel' hle]

/-- The staging of pages that the guest has leaves a batch that has a source, unless the
pool gets stuck. -/
theorem StagesPages.progress (hd : d.NeverNull) {start remaining : Nat}
    {ending : Ending ε (Batch × Option StagingError)}
    (h : StagesPages d u p batch start remaining ending q events)
    (hp : p.Sound (1 <<< u.pageBits)) (hbatch : ¬ batch.LacksSource)
    (hcovers : remaining ≠ 0 → u.guest.Covers (start <<< u.pageBits) (remaining <<< u.pageBits))
    (hlimit : (start + remaining) <<< u.pageBits < addressLimit) :
    (∃ batch' failure, ending = .done (batch', failure) ∧ ¬ batch'.LacksSource ∧
        (failure = none → q.used ≤ p.used + lookedUp events ∧
          lookedUp events ≤ remaining <<< u.pageBits)) ∨
      (ending = .broken .sizeOverflow ∧
        Pool.Stuck p q (1 <<< u.pageBits) (lookedUp events) (remaining <<< u.pageBits)) := by
  have hpower := Size.isPowerOfTwo_one_shiftLeft u.pageBits
  induction h with
  | finished p batch start =>
    exact .inl ⟨batch, none, rfl, hbatch, fun _ => ⟨Nat.le_refl _, Nat.zero_le _⟩⟩
  | @failed p q batch _ _ e _ _ _ => exact .inl ⟨batch, some e, rfl, hbatch, nofun⟩
  | stopped hzero hrequest =>
    have hsize := one_shiftLeft_ne_zero u.pageBits hzero
    obtain ⟨rfl, rfl, hoverflows⟩ := hrequest.overflows hp.valid hsize hpower
    have hunit := Nat.le_of_dvd (Nat.pos_of_ne_zero hsize) (one_shiftLeft_dvd u.pageBits _)
    rw [lookedUp_of_calls hrequest.calls]
    exact .inr ⟨rfl, by rwa [Nat.zero_add], Nat.le_refl _, hoverflows⟩
  | broken hzero hrequest hpiece =>
    have hpages := (hcovers hzero).sub (Nat.le_refl _)
      (Nat.add_le_add_left hrequest.size_le _)
    rw [(lt_of_stop_lt hlimit).2] at hpiece
    exact absurd hpiece (StagesPiece.not_broken hpages hbatch)
  | uneven _ hrequest _ hpages =>
    have hdvd := hrequest.dvd_size hp.aligned (one_shiftLeft_dvd _ _)
    obtain ⟨hsize, hle⟩ := pages_shiftLeft hdvd hrequest.size_le (lt_of_stop_lt hlimit).1
    have hpos := hrequest.size_pos hp.valid
    rw [← hsize, Nat.shiftLeft_eq] at hpos
    exact absurd ⟨Nat.pos_of_mul_pos_right hpos, hle⟩ hpages
  | @piece p q r _ _ start remaining a _ requested staged rest hzero hrequest hpiece hpages _ ih =>
    have hdvd := hrequest.dvd_size hp.aligned (one_shiftLeft_dvd _ _)
    obtain ⟨hsize, _⟩ := pages_shiftLeft hdvd hrequest.size_le (lt_of_stop_lt hlimit).1
    have hsum : start + u.pages a + (remaining - u.pages a) = start + remaining := by omega
    have hused := hrequest.used_le hp.aligned hpower.pos
    have hwhole := shiftLeft_sub_add hsize hpages.2
    have hlooked : lookedUp (requested ++ staged ++ rest) = a.size + lookedUp rest := by
      rw [lookedUp_append, lookedUp_append, lookedUp_of_calls hrequest.calls,
        hpiece.staged.1.lookedUp_eq, Nat.zero_add]
      rfl
    rw [hlooked]
    rcases ih (hrequest.sound hd (one_shiftLeft_dvd _ _) hp)
      (hpiece.not_lacksSource (hrequest.buffer_ne_null hd hp.nonNull))
      (fun _ => covers_rest hpages.2 (hcovers hzero)) (by rwa [hsum]) with
      ⟨batch', failure, hending, hsource, hleft⟩ | ⟨hending, hstuck⟩
    · refine .inl ⟨batch', failure, hending, hsource, fun hnone => ?_⟩
      obtain ⟨hle, hless⟩ := hleft hnone
      exact ⟨by omega, by omega⟩
    · exact .inr ⟨hending, hstuck.after hused (Nat.le_of_eq hwhole.symm)⟩

theorem StagesPages.sound (hd : d.NeverNull) {start remaining : Nat}
    {ending : Ending ε (Batch × Option StagingError)}
    (h : StagesPages d u p batch start remaining ending q events)
    (hp : p.Sound (1 <<< u.pageBits)) : q.Sound (1 <<< u.pageBits) :=
  h.keeps (fun hrequest hsize hp => hrequest.sound hd hsize hp) hp

theorem StagesRanges.progress (hd : d.NeverNull) {ranges : List PageRange}
    {ending : Ending ε (Batch × Option StagingError)}
    (h : StagesRanges d u p batch ranges ending q events) (hp : p.Sound (1 <<< u.pageBits))
    (hbatch : ¬ batch.LacksSource)
    (hcovers : ∀ range ∈ ranges, range.count ≠ 0 →
      u.guest.Covers (range.start <<< u.pageBits) (range.count <<< u.pageBits))
    (hlimit : ∀ range ∈ ranges, range.stop <<< u.pageBits < addressLimit) :
    (∃ batch' failure, ending = .done (batch', failure) ∧ ¬ batch'.LacksSource) ∨
      (ending = .broken .sizeOverflow ∧
        Pool.Stuck p q (1 <<< u.pageBits) (lookedUp events)
          (PageRange.total ranges u.pageBits)) := by
  induction h with
  | finished p batch => exact .inl ⟨batch, none, rfl, hbatch⟩
  | failed hpages =>
    rcases hpages.progress hd hp hbatch (hcovers _ List.mem_cons_self)
      (hlimit _ List.mem_cons_self) with ⟨_, _, heq, hsource, _⟩ | ⟨heq, _⟩
    · exact .inl ⟨_, _, heq, hsource⟩
    · cases heq
  | broken hpages =>
    rcases hpages.progress hd hp hbatch (hcovers _ List.mem_cons_self)
      (hlimit _ List.mem_cons_self) with ⟨_, _, heq, _⟩ | ⟨heq, hstuck⟩
    · cases heq
    · cases heq
      rw [lookedUp_append, lookedUp_announce, Nat.zero_add, PageRange.total_cons]
      exact .inr ⟨rfl, Nat.le_add_right_of_le hstuck.missing, hstuck.used_le, hstuck.overflows⟩
  | @range p q r _ _ range ranges _ _ _ hpages _ ih =>
    rcases hpages.progress hd hp hbatch (hcovers _ List.mem_cons_self)
      (hlimit _ List.mem_cons_self) with ⟨_, _, heq, hsource, hleft⟩ | ⟨heq, _⟩
    · cases heq
      rcases ih (hpages.sound hd hp) hsource
        (fun range hmem => hcovers range (List.mem_cons_of_mem _ hmem))
        (fun range hmem => hlimit range (List.mem_cons_of_mem _ hmem)) with
        hdone | ⟨hending, hstuck⟩
      · exact .inl hdone
      · obtain ⟨hused, hle⟩ := hleft rfl
        rw [lookedUp_append, lookedUp_append, lookedUp_announce, Nat.zero_add,
          PageRange.total_cons]
        exact .inr ⟨hending, hstuck.after hused (Nat.add_le_add_right hle _)⟩
    · cases heq

/-- An upload of pages that the guest has is not stopped, unless the pool gets stuck. -/
theorem Stages.progress (hd : d.NeverNull) {ranges : List PageRange} {v : Violation}
    (h : Stages (ε := ε) d u p ranges (.broken v) q events) (hp : p.Sound (1 <<< u.pageBits))
    (hcovers : ∀ range ∈ ranges, range.count ≠ 0 →
      u.guest.Covers (range.start <<< u.pageBits) (range.count <<< u.pageBits))
    (hlimit : ∀ range ∈ ranges, range.stop <<< u.pageBits < addressLimit) :
    v = .sizeOverflow ∧
      Pool.Stuck p q (1 <<< u.pageBits) (lookedUp events) (PageRange.total ranges u.pageBits) := by
  have hempty : ¬ Batch.empty.LacksSource := fun hlacks => hlacks.1 rfl
  cases h with
  | broken hranges =>
    rcases hranges.progress hd hp hempty hcovers hlimit with ⟨_, _, heq, _⟩ | ⟨heq, hstuck⟩
    · cases heq
    · cases heq
      exact ⟨rfl, hstuck⟩
  | sourceless hranges hlacks =>
    rcases hranges.progress hd hp hempty hcovers hlimit with ⟨_, _, heq, hsource⟩ | ⟨heq, _⟩
    · cases heq
      exact absurd hlacks hsource
    · cases heq

end Upload

end GuestReplica
