import Mathlib.Algebra.GroupWithZero.Nat
import Mathlib.Data.List.Induction
import Mathlib.Order.Bounds.Defs
import GuestReplica.Proofs.Staging.Flushing
import GuestReplica.Proofs.Staging.Order
import GuestReplica.Proofs.Staging.Places

set_option autoImplicit false

/-!
# Where allocations lie

An allocation starts at a multiple of its alignment and takes as much as it can get of
what is left of its page.  It goes on in the current page, behind the allocation before
it, while that page has an aligned byte left, and starts another page otherwise.  Since an
allocation is never empty, requests for the bytes that are still missing come to an end.
-/

namespace GuestReplica

/-- Rounding up finds the least multiple that is no smaller. -/
theorem Size.isLeast_roundUp {unit : Nat} (value : Nat) (h : 0 < unit) :
    IsLeast {x | unit ∣ x ∧ value ≤ x} (Size.roundUp value unit) :=
  ⟨⟨Size.dvd_roundUp value unit, Size.le_roundUp value h⟩,
    fun _ hx => Size.roundUp_le h hx.1 hx.2⟩

namespace Staging

/-! ## Allocations of a run -/

section

variable {υ ε : Type}

/-- The allocation that a step has answered with. -/
def allocation? (step : Step υ ε (Option Allocation)) : Option Allocation :=
  match step.answer with
  | .done a => a
  | .failed _ | .broken _ => none

/-- The allocations that some steps have answered with, in order. -/
def allocationsOf (steps : List (Step υ ε (Option Allocation))) : List Allocation :=
  steps.filterMap allocation?

/-- The bytes of all of them. -/
def bytesOf (steps : List (Step υ ε (Option Allocation))) : Nat :=
  ((allocationsOf steps).map (·.size)).sum

variable {step : Step υ ε (Option Allocation)}

theorem allocation?_eq_some_iff {a : Allocation} :
    allocation? step = some a ↔ step.answer = .done (some a) := by
  unfold allocation?
  split <;> simp [*]

theorem allocation?_eq_none (h : ∀ a, step.answer ≠ .done (some a)) : allocation? step = none :=
  Option.eq_none_iff_forall_ne_some.mpr fun a ha => h a (allocation?_eq_some_iff.mp ha)

theorem allocationsOf_append (first second : List (Step υ ε (Option Allocation))) :
    allocationsOf (first ++ second) = allocationsOf first ++ allocationsOf second :=
  List.filterMap_append

theorem allocationsOf_singleton (step : Step υ ε (Option Allocation)) :
    allocationsOf [step] = (allocation? step).toList := by
  cases h : allocation? step <;> simp [allocationsOf, h]

theorem bytesOf_append (first second : List (Step υ ε (Option Allocation))) :
    bytesOf (first ++ second) = bytesOf first + bytesOf second := by
  simp [bytesOf, allocationsOf_append]

end

namespace Pool

variable {σ : Type} {d : Device σ} {p q : Pool} {events : List Event}
variable {submission size alignment index : Nat} {a : Allocation}

/-! ## An allocation in its page -/

/-- An allocation starts at a multiple of the alignment, is not empty, and is as large as was
asked for, or as large as the page allows if that is less. -/
structure Fits (config : Config) (size alignment : Nat) (a : Allocation) : Prop where
  dvd_offset : alignment ∣ a.offset
  size_pos : 1 ≤ a.size
  size_eq : a.size = min size (config.pageSize - a.offset)
  stop_le_pageSize : a.offset + a.size ≤ config.pageSize

/-- The allocation is cut from the current page, which is handed out as far as the end of
the allocation. -/
structure CutFrom (p : Pool) (index : Nat) (a : Allocation) : Prop where
  current_eq : p.current = some index
  page : ∃ page, p.pages[index]? = some page ∧ a.buffer = page.buffer ∧ a.memory = page.memory
  used_eq : p.used = a.offset + a.size

/-- The allocation is cut at the least multiple of the alignment that is not handed out yet,
if that lies in the current page, and from the start of another page otherwise. -/
structure GoesOn (p : Pool) (alignment index : Nat) (a : Allocation) : Prop where
  of_none : p.current = none → a.offset = 0
  of_some : ∀ {old}, p.current = some old →
    ∃ least, IsLeast {x | alignment ∣ x ∧ p.used ≤ x} least ∧
      (least < p.config.pageSize → index = old ∧ a.offset = least) ∧
      (p.config.pageSize ≤ least → index ≠ old ∧ a.offset = 0)

theorem Requests.dvd_offset (h : Requests d p submission size alignment (.done a) q events) :
    alignment ∣ a.offset := by
  cases h with
  | served _ _ hround _ _ _ =>
    obtain ⟨_, rfl⟩ := Size.roundUp?_eq_some_iff.mp hround
    exact Size.dvd_roundUp p.used alignment
  | turned _ _ _ _ _ => exact Nat.dvd_zero alignment

theorem Requests.size_eq (h : Requests d p submission size alignment (.done a) q events) :
    a.size = min size (p.config.pageSize - a.offset) := by
  cases h with
  | served _ _ _ _ _ _ => rfl
  | turned _ _ _ hturn _ =>
    rw [← hturn.config_eq]
    rfl

theorem Requests.cutFrom (h : Requests d p submission size alignment (.done a) q events) :
    ∃ index, q.CutFrom index a := by
  cases h with
  | @served index _ _ _ _ _ hcurrent _ hpage =>
    exact ⟨index, hcurrent, ⟨_, getElem?_pages_handOut hpage, rfl, rfl⟩, rfl⟩
  | @turned _ index _ _ _ _ _ _ hturn hpage =>
    exact ⟨index, hturn.turned.1, ⟨_, getElem?_pages_handOut hpage, rfl, rfl⟩,
      (Nat.zero_add _).symm⟩

/-- The end of an allocation, which is as far as its page is handed out, lies in the page. -/
theorem Requests.fits (h : Requests d p submission size alignment (.done a) q events)
    (hp : p.Valid) : Fits p.config size alignment a := by
  obtain ⟨index, hcut⟩ := h.cutFrom
  have hused := (h.valid hp).used_le_pageSize
  rw [hcut.used_eq, h.config_eq] at hused
  exact ⟨h.dvd_offset, h.size_pos hp, h.size_eq, hused⟩

/-- A page that is left is submitted, so a turn that succeeds ends at another one. -/
theorem Turns.ne_of_current_eq {old : Nat} (h : Turns d p (.done index) q events) (hp : p.Valid)
    (hcurrent : p.current = some old) : index ≠ old := by
  rintro rfl
  apply (h.valid hp).not_mem_submitted h.turned.1
  rw [h.submitted_eq.1]
  simp [queue, hcurrent]

theorem Requests.goesOn (h : Requests d p submission size alignment (.done a) q events)
    (hp : p.Valid) (hpower : Size.IsPowerOfTwo alignment) (hcut : q.CutFrom index a) :
    GoesOn p alignment index a := by
  have hleast := Size.isLeast_roundUp p.used hpower.pos
  cases h with
  | @served old offset page _ _ hround hcurrent hroom hpage =>
    obtain ⟨_, rfl⟩ := Size.roundUp?_eq_some_iff.mp hround
    have hindex : some old = some index := hcurrent.symm.trans hcut.current_eq
    refine ⟨fun hnone => ?_, fun {other} hother => ⟨_, hleast, fun _ => ⟨?_, rfl⟩, fun hle => ?_⟩⟩
    · cases hcurrent.symm.trans hnone
    · exact Option.some.inj (hindex.symm.trans (hcurrent.symm.trans hother))
    · exact absurd hroom (Nat.not_lt_of_le hle)
  | @turned q turned _ page _ _ hround hfull hturn hpage =>
    obtain ⟨_, rfl⟩ := Size.roundUp?_eq_some_iff.mp hround
    have hindex : some turned = some index := hturn.turned.1.symm.trans hcut.current_eq
    obtain rfl := Option.some.inj hindex
    refine ⟨fun _ => rfl, fun {other} hother => ⟨_, hleast, fun hlt => ?_, fun _ => ⟨?_, rfl⟩⟩⟩
    · rcases hfull with hnone | hle
      · cases hnone.symm.trans hother
      · exact absurd hlt (Nat.not_lt_of_le hle)
    · exact hturn.ne_of_current_eq hp hother

/-! ## What is handed out of the current page -/

/-- If a page is current afterwards, it was so before, and nothing was handed out of it. -/
def StaysIn (p q : Pool) : Prop :=
  ∀ {index}, q.current = some index → p.current = some index ∧ q.used = p.used ∧ q.pages = p.pages

theorem StaysIn.refl (p : Pool) : StaysIn p p := fun h => ⟨h, rfl, rfl⟩

theorem staysIn_of_current_eq_none (h : q.current = none) : StaysIn p q := by
  intro index hcurrent
  cases h.symm.trans hcurrent

theorem StaysIn.cutFrom (h : StaysIn p q) (hcurrent : q.current = some index)
    (hcut : p.CutFrom index a) : q.CutFrom index a := by
  obtain ⟨_, hused, hpages⟩ := h hcurrent
  exact ⟨hcurrent, hpages ▸ hcut.page, hused.trans hcut.used_eq⟩

theorem Flushes.staysIn {ending : Ending StagingError Unit} (h : Flushes p ending q events) :
    StaysIn p q := by
  cases h <;> exact fun hcurrent => ⟨hcurrent, rfl, rfl⟩

/-- A turn that does not succeed leaves the current page as it was, or leaves no current page. -/
theorem Turns.staysIn {ending : Ending StagingError Nat} (h : Turns d p ending q events)
    (hending : ∀ index, ending ≠ .done index) : StaysIn p q := by
  cases h with
  | unflushed hflush => exact hflush.staysIn
  | broken hflush => exact hflush.staysIn
  | reused _ _ => exact absurd rfl (hending _)
  | uncreated _ _ hcreate => cases hcreate <;> exact staysIn_of_current_eq_none rfl
  | created _ _ _ => exact absurd rfl (hending _)

theorem Requests.staysIn {ending : Ending StagingError Allocation}
    (h : Requests d p submission size alignment ending q events) (hp : p.Valid)
    (hending : ∀ a, ending ≠ .done a) : StaysIn p q := by
  cases h with
  | empty _ => exact StaysIn.refl p
  | misaligned _ => exact StaysIn.refl p
  | overflow _ => exact StaysIn.refl p
  | missing _ _ => exact StaysIn.refl p
  | served _ _ _ _ _ _ => exact absurd rfl (hending _)
  | unturned _ _ _ hturn => exact hturn.staysIn (by simp)
  | broken hturn => exact hturn.staysIn (by simp)
  | lost hturn hnone => exact absurd hnone (hturn.page_ne_none hp)
  | turned _ _ _ _ _ => exact absurd rfl (hending _)

/-! ## Runs -/

variable {use : OwnerUse} {answer : Ending StagingError (Option Allocation)}

/-- A step hands out an allocation if it is a request that succeeds, and otherwise stays in
the current page or leaves it. -/
theorem OwnerPerforms.request_or_staysIn (h : OwnerPerforms d p use answer q events)
    (hp : p.Valid) :
    (∃ a submission size alignment, answer = .done (some a) ∧
        use = .client (.request submission size alignment) ∧
        Requests d p submission size alignment (.done a) q events) ∨
      (∀ a, answer ≠ .done (some a)) ∧ StaysIn p q := by
  cases h with
  | client hperforms =>
    cases hperforms with
    | allocated hrequest => exact .inl ⟨_, _, _, _, rfl, rfl, hrequest⟩
    | unserved hrequest => exact .inr ⟨by simp, hrequest.staysIn hp (by simp)⟩
    | stopped hrequest => exact .inr ⟨by simp, hrequest.staysIn hp (by simp)⟩
    | reclaimed _ => exact .inr ⟨by simp, fun hcurrent => ⟨hcurrent, rfl, rfl⟩⟩
    | flushed hflush => exact .inr ⟨by simp, hflush.staysIn⟩
    | unflushed hflush => exact .inr ⟨by simp, hflush.staysIn⟩
    | overflow hflush => exact .inr ⟨by simp, hflush.staysIn⟩
  | destroyed => exact .inr ⟨by simp, staysIn_of_current_eq_none rfl⟩

variable {s s' : σ} {steps : List (Step OwnerUse StagingError (Option Allocation))}

/-- The current page is handed out as far as the last allocation, which was cut from it. -/
def EndsWith (p : Pool) (last : Option Allocation) : Prop :=
  ∀ index, p.current = some index → ∃ a, last = some a ∧ p.CutFrom index a

theorem endsWith_of_runs {config : Config} (hnew : new config = .ok p)
    (hrun : Runs (OwnerUse.action d) p s steps q s') :
    q.EndsWith (allocationsOf steps).getLast? := by
  induction steps using List.reverseRecOn generalizing q s' with
  | nil =>
    cases hrun
    obtain ⟨_, _, rfl⟩ := new_eq_ok_iff.mp hnew
    intro index hcurrent
    cases hcurrent
  | append_singleton steps step ih =>
    obtain ⟨p₁, s₁, hbefore, hlast⟩ := hrun.split
    obtain ⟨_, _, hstep, hnil⟩ := hlast.uncons
    cases hnil
    obtain ⟨_, _, rfl⟩ := new_eq_ok_iff.mp hnew
    have hvalid := (keeps_of_ownerRuns hbefore (valid_of_new hnew) (bounded_ofConfig config)).1
    rw [allocationsOf_append, allocationsOf_singleton]
    intro index hcurrent
    rcases (ownerPerforms_of_run hstep).request_or_staysIn hvalid with
      ⟨a, _, _, _, hanswer, _, hrequest⟩ | ⟨hanswer, hstays⟩
    · obtain ⟨other, hcut⟩ := hrequest.cutFrom
      obtain rfl := Option.some.inj (hcut.current_eq.symm.trans hcurrent)
      exact ⟨a, by simp [allocation?_eq_some_iff.mpr hanswer], hcut⟩
    · obtain ⟨a, hlast, hcut⟩ := ih hbefore index (hstays hcurrent).1
      have hnone := allocation?_eq_none hanswer
      exact ⟨a, by simpa [hnone] using hlast, hstays.cutFrom hcurrent hcut⟩

/-- Each request of some steps is for the bytes that were not handed out by those before it. -/
def AsksForMissing (missing : Nat)
    (steps : List (Step OwnerUse StagingError (Option Allocation))) : Prop :=
  ∀ {before step after submission size alignment}, steps = before ++ step :: after →
    step.use = .client (.request submission size alignment) → size = missing - bytesOf before

theorem AsksForMissing.of_append {missing : Nat}
    {first second : List (Step OwnerUse StagingError (Option Allocation))}
    (h : AsksForMissing missing (first ++ second)) : AsksForMissing missing first := by
  rintro before step after submission size alignment rfl huse
  exact h (List.append_assoc _ _ _) huse

/-- Each allocation is of a byte at least, and of no more than is missing. -/
theorem length_le_bytesOf_le {missing : Nat} (hp : p.Valid) (hbounded : p.Bounded)
    (hrun : Runs (OwnerUse.action d) p s steps q s') (hasks : AsksForMissing missing steps) :
    (allocationsOf steps).length ≤ bytesOf steps ∧ bytesOf steps ≤ missing := by
  induction steps using List.reverseRecOn generalizing q s' with
  | nil => exact ⟨Nat.le_refl 0, Nat.zero_le missing⟩
  | append_singleton steps step ih =>
    obtain ⟨p₁, s₁, hbefore, hlast⟩ := hrun.split
    obtain ⟨_, _, hstep, _⟩ := hlast.uncons
    have hvalid := (keeps_of_ownerRuns hbefore hp hbounded).1
    obtain ⟨hlength, hbytes⟩ := ih hbefore hasks.of_append
    have hsingle : bytesOf [step] = (((allocation? step).toList).map (·.size)).sum := by
      rw [bytesOf, allocationsOf_singleton]
    rw [bytesOf_append, hsingle, allocationsOf_append, allocationsOf_singleton, List.length_append]
    rcases (ownerPerforms_of_run hstep).request_or_staysIn hvalid with
      ⟨a, submission, size, alignment, hanswer, huse, hrequest⟩ | ⟨hanswer, _⟩
    · have hsize : size = missing - bytesOf steps := hasks rfl huse
      have hpos := hrequest.size_pos hvalid
      have hle := hrequest.size_le
      simp only [allocation?_eq_some_iff.mpr hanswer, Option.toList_some, List.length_singleton,
        List.map_singleton, List.sum_singleton]
      omega
    · simpa [allocation?_eq_none hanswer] using ⟨hlength, hbytes⟩

/-- A request is only served at an alignment that is a power of two. -/
theorem isPowerOfTwo_of_request
    (h : (request d submission size alignment).run p s = ⟨.done a, q, s', events⟩) :
    Size.IsPowerOfTwo alignment := by
  by_contra hpower
  unfold request at h
  split at h <;> cases h

/-- Whatever the owner of a pool has done with it, and however the device answers, an
allocation that a request answers with lies in its page, starts at a multiple of the
alignment, and is as large as it can be.  It is cut from the page that was current, at the
least such multiple behind the allocation before it, if there is one in that page, and
otherwise from the start of another page.  A loop of requests for the bytes that are still
missing makes no more requests that succeed than there are bytes, and each of them makes
the missing bytes fewer, so it comes to an end when nothing is missing. -/
theorem allocations_fit {config : Config} {p₀ : Pool} {s₀ : σ} (hnew : new config = .ok p₀)
    (hrun : Runs (OwnerUse.action d) p₀ s₀ steps p s) :
    p.EndsWith (allocationsOf steps).getLast? ∧
      (∀ {submission size alignment a q s' events},
        (request d submission size alignment).run p s = ⟨.done a, q, s', events⟩ →
        Fits config size alignment a ∧ ∃ index, q.CutFrom index a ∧ GoesOn p alignment index a) ∧
      ∀ {missing loop q s'}, Runs (OwnerUse.action d) p s loop q s' →
        AsksForMissing missing loop →
        (allocationsOf loop).length ≤ bytesOf loop ∧ bytesOf loop ≤ missing := by
  have hends := endsWith_of_runs hnew hrun
  have hvalid := valid_of_new hnew
  obtain ⟨_, _, rfl⟩ := new_eq_ok_iff.mp hnew
  obtain ⟨hp, hbounded, hconfig⟩ := keeps_of_ownerRuns hrun hvalid (bounded_ofConfig config)
  refine ⟨hends, fun {submission size alignment a q s' events} hdone => ?_,
    fun hloop hasks => length_le_bytesOf_le hp hbounded hloop hasks⟩
  have hrequest := requests_of_run hdone
  obtain ⟨index, hcut⟩ := hrequest.cutFrom
  have hfits := hrequest.fits hp
  rw [hconfig] at hfits
  exact ⟨hfits, index, hcut, hrequest.goesOn hp (isPowerOfTwo_of_request hdone) hcut⟩

/-- Five bytes of a page are handed out. -/
def startPage : List (Step OwnerUse StagingError (Option Allocation)) × Pool × Simulated.State :=
  play (OwnerUse.action (Simulated.device .direct)) (ofConfig wholePages) (Simulated.State.new {})
    [.client (.request 1 5 1)]

/-- Twenty bytes are requested after that. -/
def requestTwenty : List (Step OwnerUse StagingError (Option Allocation)) × Pool × Simulated.State :=
  play (OwnerUse.action (Simulated.device .direct)) startPage.2.1 startPage.2.2
    [.client (.request 2 20 4), .client .flush, .client (.request 2 12 4)]

/-- The first of them are cut from the same page, which has eight bytes left behind the first
multiple of four. -/
theorem allocations_fit_twenty :
    Fits wholePages 20 4 ⟨1, 2, 8, 8⟩ ∧ (∃ index, GoesOn startPage.2.1 4 index ⟨1, 2, 8, 8⟩) ∧
      (allocationsOf requestTwenty.1).length ≤ 20 := by
  have hnew : new wholePages = .ok (ofConfig wholePages) := rfl
  have hrun : Runs (OwnerUse.action (Simulated.device .direct)) (ofConfig wholePages)
      (Simulated.State.new {}) startPage.1 startPage.2.1 startPage.2.2 := runs_play _ _ _ _
  have hloop : Runs (OwnerUse.action (Simulated.device .direct)) startPage.2.1 startPage.2.2
      requestTwenty.1 requestTwenty.2.1 requestTwenty.2.2 := runs_play _ _ _ _
  have hfirst : (request (Simulated.device .direct) 2 20 4).run startPage.2.1 startPage.2.2 =
      ⟨.done ⟨1, 2, 8, 8⟩, startPage.2.1.handOut 0 2 16, startPage.2.2, []⟩ := rfl
  have hsteps : requestTwenty.1 = [⟨.client (.request 2 20 4), .done (some ⟨1, 2, 8, 8⟩), []⟩,
      ⟨.client .flush, .done none, []⟩,
      ⟨.client (.request 2 12 4), .done (some ⟨3, 4, 0, 12⟩),
        [.call (.createBuffer (bufferInfo 16) (.ok 3)), .call (.requirements 3 ⟨65536, 65536, 7⟩),
          .call (.allocate 65536 1 (.ok 4))] ++ mappedEvents 3 4⟩] := by decide
  have hasks : AsksForMissing 20 requestTwenty.1 := by
    rw [hsteps]
    rintro (_ | ⟨_, _ | ⟨_, _ | ⟨_, before⟩⟩⟩) step after submission size alignment hcut huse
    · cases hcut
      cases huse
      rfl
    · cases hcut
      cases huse
    · cases hcut
      cases huse
      rfl
    · cases before <;> cases hcut
  obtain ⟨_, hfits, hcovers⟩ := allocations_fit hnew hrun
  obtain ⟨hfit, index, _, hgoesOn⟩ := hfits hfirst
  obtain ⟨hlength, hbytes⟩ := hcovers hloop hasks
  exact ⟨hfit, ⟨index, hgoesOn⟩, Nat.le_trans hlength hbytes⟩

end Pool

end Staging

end GuestReplica
