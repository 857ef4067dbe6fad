import GuestReplica.Proofs.Staging.Limits
import GuestReplica.Proofs.Upload.Progress

set_option autoImplicit false

/-!
# Uploads into the current page

As long as the current page of a pool has room for all that is uploaded, the bytes come
from there: the pool turns to no other page, and takes as many bytes as are needed.  On
the other hand, nothing more comes from a pool once it is at the limit of sizes: no page is
staged or refused then, and a refusal does not lead there.
-/

namespace GuestReplica

namespace Staging.Pool

variable {σ : Type} {d : Device σ} {p q r : Pool} {events : List Event}
variable {submission size alignment unit bytes index : Nat}

/-- So many bytes more of the current page are handed out. -/
structure Fills (p q : Pool) (bytes : Nat) : Prop where
  config_eq : q.config = p.config
  current_eq : q.current = p.current
  used_eq : q.used = p.used + bytes

theorem Fills.refl (p : Pool) : Fills p p 0 := ⟨rfl, rfl, rfl⟩

theorem Fills.trans {more : Nat} (h : Fills p q bytes) (h' : Fills q r more) :
    Fills p r (bytes + more) :=
  ⟨h'.config_eq.trans h.config_eq, h'.current_eq.trans h.current_eq, by
    rw [h'.used_eq, h.used_eq, Nat.add_assoc]⟩

/-- A request for whole units that fits in the current page is served whole. -/
theorem Requests.fills {ending : Ending StagingError Allocation}
    (h : Requests d p submission size unit ending q events) (hreturns : ending.Returns)
    (haligned : p.Aligned unit) (hunit : 0 < unit) (hcurrent : p.current = some index)
    (hroom : p.used + size ≤ p.config.pageSize) :
    ∃ a, ending = .done a ∧ a.size = size ∧ Fills p q size := by
  have hnotfull : ∀ {offset : Nat}, size ≠ 0 → Size.roundUp? p.used unit = some offset →
      ¬ (p.current = none ∨ p.config.pageSize ≤ offset) := by
    intro offset hsize hround
    obtain ⟨_, rfl⟩ := Size.roundUp?_eq_some_iff.mp hround
    rw [Size.roundUp_of_dvd hunit haligned.dvd_used]
    rintro (hnone | hfull)
    · rw [hcurrent] at hnone
      cases hnone
    · omega
  cases h with
  | empty _ => exact absurd rfl (hreturns _)
  | misaligned _ => exact absurd rfl (hreturns _)
  | overflow _ => exact absurd rfl (hreturns _)
  | missing _ _ => exact absurd rfl (hreturns _)
  | @served _ offset page _ _ hround _ _ _ =>
    obtain ⟨_, rfl⟩ := Size.roundUp?_eq_some_iff.mp hround
    rw [Size.roundUp_of_dvd hunit haligned.dvd_used]
    have hcut : (p.cut page size p.used).size = size := by
      simp only [cut]
      omega
    exact ⟨_, rfl, hcut, rfl, rfl, by rw [hcut]; rfl⟩
  | unturned hsize hround hfull _ => exact absurd hfull (hnotfull hsize hround)
  | broken _ => exact absurd rfl (hreturns _)
  | lost _ _ => exact absurd rfl (hreturns _)
  | turned hsize hround hfull _ _ => exact absurd hfull (hnotfull hsize hround)

end Staging.Pool

namespace Upload

open Staging (Pool)

variable {ε σ : Type} {d : Device σ} {u : Upload} {p q : Pool} {batch batch' : Batch}
variable {events : List Event} {failure : Option StagingError} {index : Nat}

/-- Pages that fit in the current page are staged in one piece. -/
theorem StagesPages.fills {start remaining : Nat}
    (h : StagesPages (ε := ε) d u p batch start remaining (.done (batch', failure)) q events)
    (haligned : p.Aligned (1 <<< u.pageBits)) (hremaining : remaining < addressLimit)
    (hcurrent : p.current = some index)
    (hroom : p.used + remaining <<< u.pageBits ≤ p.config.pageSize) :
    failure = none ∧ Pool.Fills p q (remaining <<< u.pageBits) := by
  have hunit := (Size.isPowerOfTwo_one_shiftLeft u.pageBits).pos
  cases h with
  | finished _ _ _ =>
    rw [Nat.zero_shiftLeft]
    exact ⟨rfl, .refl p⟩
  | @failed _ _ _ _ _ e _ _ hrequest =>
    obtain ⟨_, heq, _⟩ :=
      hrequest.fills (Ending.returns_failed e) haligned hunit hcurrent hroom
    cases heq
  | @piece _ p₁ _ _ _ _ _ a _ _ _ _ _ hrequest _ _ hrest =>
    obtain ⟨_, heq, hsize, hfills⟩ :=
      hrequest.fills (Ending.returns_done a) haligned hunit hcurrent hroom
    cases heq
    -- the piece holds all pages, so none is left
    have hdvd := hrequest.dvd_size haligned (one_shiftLeft_dvd _ _)
    obtain ⟨hpages, _⟩ := pages_shiftLeft hdvd hrequest.size_le hremaining
    rw [hsize, Nat.shiftLeft_eq, Nat.shiftLeft_eq] at hpages
    have hall : u.pages a = remaining :=
      Nat.eq_of_mul_eq_mul_right (Nat.two_pow_pos u.pageBits) hpages
    rw [hall, Nat.sub_self] at hrest
    cases hrest with
    | finished _ _ _ => exact ⟨rfl, hfills⟩
    | failed hzero _ => exact absurd rfl hzero
    | piece hzero _ _ _ _ => exact absurd rfl hzero

/-- So are ranges, in as many pieces as there are ranges with a page. -/
theorem StagesRanges.fills {ranges : List PageRange}
    (h : StagesRanges (ε := ε) d u p batch ranges (.done (batch', failure)) q events)
    (haligned : p.Aligned (1 <<< u.pageBits))
    (hcounts : ∀ range ∈ ranges, range.count < addressLimit) (hcurrent : p.current = some index)
    (hroom : p.used + PageRange.total ranges u.pageBits ≤ p.config.pageSize) :
    failure = none ∧ Pool.Fills p q (PageRange.total ranges u.pageBits) := by
  generalize hending : Ending.done (batch', failure) = ending at h
  induction h with
  | finished p _ =>
    cases hending
    exact ⟨rfl, .refl p⟩
  | failed hpages =>
    cases hending
    rw [PageRange.total_cons] at hroom
    obtain ⟨hnone, _⟩ := hpages.fills haligned (hcounts _ List.mem_cons_self) hcurrent (by omega)
    cases hnone
  | broken _ => cases hending
  | range hpages _ ih =>
    rw [PageRange.total_cons] at hroom ⊢
    obtain ⟨_, hfills⟩ := hpages.fills haligned (hcounts _ List.mem_cons_self) hcurrent (by omega)
    have hq := hpages.keeps (fun hrequest hsize hp => hrequest.aligned hp hsize) haligned
    have hroom' := hfills.used_eq
    obtain ⟨hnone, hrest⟩ := ih hq (fun range hmem => hcounts range (List.mem_cons_of_mem _ hmem))
      (hfills.current_eq.trans hcurrent) (by rw [hfills.config_eq]; omega) hending
    exact ⟨hnone, hfills.trans hrest⟩

theorem Stages.fills {ranges : List PageRange}
    (h : Stages (ε := ε) d u p ranges (.done failure) q events)
    (haligned : p.Aligned (1 <<< u.pageBits))
    (hcounts : ∀ range ∈ ranges, range.count < addressLimit) (hcurrent : p.current = some index)
    (hroom : p.used + PageRange.total ranges u.pageBits ≤ p.config.pageSize) :
    failure = none ∧ Pool.Fills p q (PageRange.total ranges u.pageBits) := by
  cases h with
  | staged hranges _ => exact hranges.fills haligned hcounts hcurrent hroom

/-! ## At the limit of sizes -/

/-- Where no pages are left, the pool stays as it is. -/
theorem StagesPages.eq_of_zero {start remaining : Nat}
    {ending : Ending ε (Batch × Option StagingError)}
    (h : StagesPages d u p batch start remaining ending q events) (hzero : remaining = 0) :
    ending = .done (batch, none) ∧ q = p := by
  cases h with
  | finished _ _ _ => exact ⟨rfl, rfl⟩
  | failed hremaining _ => exact absurd hzero hremaining
  | stopped hremaining _ => exact absurd hzero hremaining
  | broken hremaining _ _ => exact absurd hzero hremaining
  | uneven hremaining _ _ _ => exact absurd hzero hremaining
  | piece hremaining _ _ _ _ => exact absurd hzero hremaining

/-- Pages that are left are only staged, or refused, by a pool that is not at the limit. -/
theorem StagesPages.not_fullAtLimit {start remaining : Nat}
    (h : StagesPages (ε := ε) d u p batch start remaining (.done (batch', failure)) q events)
    (hp : p.Valid) (hremaining : remaining ≠ 0) : ¬ p.FullAtLimit (1 <<< u.pageBits) := by
  intro hfull
  cases h with
  | finished _ _ _ => exact hremaining rfl
  | @failed _ _ _ _ _ e _ _ hrequest => exact hfull.not_returns hp hrequest (Ending.returns_failed e)
  | @piece _ _ _ _ _ _ _ a _ _ _ _ _ hrequest _ _ _ =>
    exact hfull.not_returns hp hrequest (Ending.returns_done a)

/-- The same goes for ranges, if one of them has a page. -/
theorem StagesRanges.not_fullAtLimit {ranges : List PageRange}
    (h : StagesRanges (ε := ε) d u p batch ranges (.done (batch', failure)) q events)
    (hp : p.Valid) (htotal : PageRange.total ranges u.pageBits ≠ 0) :
    ¬ p.FullAtLimit (1 <<< u.pageBits) := by
  generalize hending : Ending.done (batch', failure) = ending at h
  induction h with
  | finished _ _ => exact absurd rfl htotal
  | failed hpages =>
    refine hpages.not_fullAtLimit hp fun hzero => ?_
    cases (hpages.eq_of_zero hzero).1
  | broken _ => cases hending
  | @range _ _ _ _ _ range _ _ _ _ hpages _ ih =>
    by_cases hzero : range.count = 0
    · obtain ⟨_, rfl⟩ := hpages.eq_of_zero hzero
      rw [PageRange.total_cons, hzero, Nat.zero_shiftLeft, Nat.zero_add] at htotal
      exact ih hp htotal hending
    · exact hpages.not_fullAtLimit hp hzero

/-- A pool that has refused pages is not at the limit. -/
theorem StagesPages.not_fullAtLimit_of_failed {start remaining : Nat} {e : StagingError}
    (h : StagesPages (ε := ε) d u p batch start remaining (.done (batch', some e)) q events)
    (hp : p.Valid) : ¬ q.FullAtLimit (1 <<< u.pageBits) := by
  generalize hending : Ending.done (batch', some e) = ending at h
  induction h with
  | finished _ _ _ => cases hending
  | failed _ hrequest => exact hrequest.not_fullAtLimit hp
  | stopped _ _ => cases hending
  | broken _ _ _ => cases hending
  | uneven _ _ _ _ => cases hending
  | piece _ hrequest _ _ _ ih => exact ih (hrequest.valid hp) hending

theorem StagesRanges.not_fullAtLimit_of_failed {ranges : List PageRange} {e : StagingError}
    (h : StagesRanges (ε := ε) d u p batch ranges (.done (batch', some e)) q events)
    (hp : p.Valid) : ¬ q.FullAtLimit (1 <<< u.pageBits) := by
  generalize hending : Ending.done (batch', some e) = ending at h
  induction h with
  | finished _ _ => cases hending
  | failed hpages => exact hpages.not_fullAtLimit_of_failed hp
  | broken _ => cases hending
  | range hpages _ ih => exact ih (hpages.keeps (fun hrequest _ => hrequest.valid) hp) hending

/-- An upload of some pages that starts at the limit does not get on. -/
theorem Stages.not_fullAtLimit {ranges : List PageRange}
    (h : Stages (ε := ε) d u p ranges (.done failure) q events) (hp : p.Valid)
    (htotal : PageRange.total ranges u.pageBits ≠ 0) : ¬ p.FullAtLimit (1 <<< u.pageBits) := by
  cases h with
  | staged hranges _ => exact hranges.not_fullAtLimit hp htotal

theorem Stages.not_fullAtLimit_of_failed {ranges : List PageRange} {e : StagingError}
    (h : Stages (ε := ε) d u p ranges (.done (some e)) q events) (hp : p.Valid) :
    ¬ q.FullAtLimit (1 <<< u.pageBits) := by
  cases h with
  | staged hranges _ => exact hranges.not_fullAtLimit_of_failed hp

end Upload

end GuestReplica
