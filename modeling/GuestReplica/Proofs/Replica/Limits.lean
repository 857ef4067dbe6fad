import GuestReplica.Proofs.Replica.Capacity
import GuestReplica.Proofs.Upload.CurrentPage
import GuestReplica.Proofs.Upload.Exactness

set_option autoImplicit false

/-!
# Uploads at the limit of sizes

The pages of a staging pool are so small that a guest page more is a size or the first
number that is none.  So the end of what is handed out can be rounded up to guest pages
unless a whole page of the largest kind is handed out.  The same goes for flush units that are
no larger than a page allows, and these matter only where there is something to flush.  An
upload of pages that the guest has is stopped in these states, and nowhere else.
-/

namespace GuestReplica.Replica

variable {σ : Type} {d : Device σ} {r r' : Replica} {s s' : σ} {events : List Event}
variable {guest : GuestMemory} {trace : ReadTrace} {submission : Nat} {ranges : List PageRange}

/-! ## The size of a staging page -/

theorem pageSize_lt_of_staging? {config : Config} {staging : Staging.Config}
    (h : config.staging? = .ok staging) : staging.pageSize < Size.limit := by
  unfold Config.staging? at h
  split at h
  · cases h
  · next pageSize hround =>
    cases h
    obtain ⟨hlt, rfl⟩ := Size.roundUp?_eq_some_iff.mp hround
    exact Nat.lt_trans (Size.roundUp_lt_add _ (Size.isPowerOfTwo_one_shiftLeft _).pos) hlt

theorem Reachable.pageSize_lt (h : Reachable d r) :
    ∀ p ∈ r.pool, p.config.pageSize < Size.limit := by
  obtain @⟨config, r₀, _, _, _, _, _, hcreate, hrun⟩ := h
  have hinitial : ∀ p ∈ r₀.pool, p.config.pageSize < Size.limit := by
    obtain ⟨store, staging, _, hstaging, _, rfl, _⟩ := create_done hcreate
    rintro p ⟨⟩
    exact pageSize_lt_of_staging? hstaging
  have hkeeps := fun unit => keeps_config d unit (·.pageSize < Size.limit)
  exact hrun.keeps (fun hstep => (performs_of_run hstep).keeps (hkeeps _)) hinitial

/-- The limit of sizes is a multiple of every guest page, so there is none of them between
the largest page and the limit. -/
theorem Reachable.pageSize_add_le (h : Reachable d r) :
    ∀ p ∈ r.pool, p.config.pageSize + (1 <<< r.pageBits) ≤ Size.limit := by
  intro p hpool
  have hlt := h.pageSize_lt p hpool
  have hlimit : 1 <<< r.pageBits ∣ Size.limit := by
    rw [Nat.one_shiftLeft, Size.limit, Nat.one_shiftLeft]
    exact Nat.pow_dvd_pow 2 (Nat.le_trans h.valid.pageBits_le (by decide))
  have hrest : 1 <<< r.pageBits ∣ Size.limit - p.config.pageSize :=
    Nat.dvd_sub hlimit (h.valid.pool_aligned p hpool).dvd_pageSize
  have hle := Nat.le_of_dvd (Nat.sub_pos_of_lt hlt) hrest
  omega

/-! ## What can stop an upload -/

/-- An upload is stopped where pages are missing and the pool is at the limit. -/
theorem Uploads.fullAtLimit {p : Staging.Pool} {v : Violation}
    (h : Uploads d guest trace submission r ranges (.broken v) r' events) (hd : d.NeverNull)
    (hr : Reachable d r) (hpool : r.pool = some p) (hsorted : PageRange.Sorted ranges)
    (hin : ∀ range ∈ ranges, range.stop <<< r.pageBits ≤ size)
    (hcovers : ∀ range ∈ ranges, range.count ≠ 0 →
      guest.Covers (range.start <<< r.pageBits) (range.count <<< r.pageBits))
    (hflush : p.config.pageSize + p.config.flushUnit ≤ Size.limit) :
    v = .sizeOverflow ∧
      lookedUp events + (1 <<< r.pageBits) ≤ PageRange.total ranges r.pageBits ∧
      ∃ q, r'.pool = some q ∧ q.config = p.config ∧ q.used ≤ p.used + lookedUp events ∧
        q.FullAtLimit (1 <<< r.pageBits) := by
  have hsound : p.Sound (1 <<< r.pageBits) :=
    ⟨hr.valid.pool_valid p hpool, hr.valid.pool_aligned p hpool, hr.nonNull hd p hpool⟩
  have hlimit : ∀ range ∈ ranges, range.stop <<< r.pageBits < addressLimit := fun range hmem =>
    Nat.lt_of_le_of_lt (hin range hmem) size_lt_addressLimit
  obtain ⟨hv, q, hq, hconfig, hvalid, hstuck⟩ :=
    h.stuck hd hpool hsound hsorted hlimit hcovers
  have hunit := hr.pageSize_add_le p hpool
  rw [← hconfig] at hunit hflush
  exact ⟨hv, hstuck.missing, q, hq, hconfig, hstuck.used_le,
    Staging.Pool.fullAtLimit_of_overflows hvalid hunit hflush hstuck.overflows⟩

/-- An upload that succeeds has looked up all of its pages. -/
theorem Uploads.lookedUp_eq
    (h : Uploads d guest trace submission r ranges (.done ()) r' events) (hr : r.Valid) :
    lookedUp events = PageRange.total ranges r.pageBits := by
  have hreturns := Ending.returns_done (ε := UploadError) ()
  by_cases hranges : ranges = []
  · subst hranges
    rcases h.stages hreturns with ⟨_, _, rfl⟩ | ⟨_, _, _, _, _, _, haccepts, _⟩
    · rfl
    · cases haccepts.head_eq
  · obtain ⟨_, _, _, _, _, _, _, huploaded, hdone⟩ := h.uploaded hr hranges hreturns
    rw [huploaded.total_eq, hdone.mp rfl]
    rfl

/-- An upload that fails does not leave a pool that is at the limit. -/
theorem Uploads.not_fullAtLimit {e : UploadError} {q : Staging.Pool}
    (h : Uploads d guest trace submission r ranges (.failed e) r' events) (hr : r.Valid)
    (hq : r'.pool = some q) : ¬ q.FullAtLimit (1 <<< r.pageBits) := by
  cases h with
  | failed _ hpool hstages =>
    cases hq
    exact hstages.not_fullAtLimit_of_failed (hr.pool_valid _ hpool)

/-- An upload of some pages that starts at the limit does not return. -/
theorem Uploads.not_returns {p : Staging.Pool} {ending : Ending UploadError Unit}
    (h : Uploads d guest trace submission r ranges ending r' events) (hr : r.Valid)
    (hpool : r.pool = some p) (htotal : PageRange.total ranges r.pageBits ≠ 0)
    (hfull : p.FullAtLimit (1 <<< r.pageBits)) : ¬ ending.Returns := by
  intro hreturns
  rcases h.stages hreturns with ⟨rfl, _⟩ | ⟨_, _, p', _, _, _, _, hpool', hstages, _⟩
  · exact htotal rfl
  · rw [hpool] at hpool'
    cases hpool'
    exact hstages.not_fullAtLimit (hr.pool_valid p hpool) htotal hfull

/-- However an upload ends, it has looked up whole pages of its ranges. -/
theorem Uploads.exact {p : Staging.Pool} {ending : Ending UploadError Unit}
    (h : Uploads d guest trace submission r ranges ending r' events) (hr : r.Valid)
    (hpool : r.pool = some p) (hlimit : ∀ range ∈ ranges, range.stop <<< r.pageBits < addressLimit) :
    Exact r.pageBits ranges events := by
  have hbarriers : Exact r.pageBits ranges (r.barriers .transferDestination) := by
    obtain ⟨hstaged, _⟩ := staged_barriers (r.job guest trace submission) r .transferDestination
    exact .of_eq_nil hstaged.marks hstaged.lookups
  have hvalid := hr.pool_valid p hpool
  have haligned := hr.pool_aligned p hpool
  cases h with
  | idle _ => exact .of_eq_nil rfl rfl
  | refused _ _ => exact .of_eq_nil rfl rfl
  | shutDown _ _ => exact hbarriers
  | broken _ hpool' hstages =>
    rw [hpool] at hpool'
    cases hpool'
    exact hbarriers.append (hstages.exact hvalid haligned hlimit)
  | finished _ hpool' hstages =>
    rw [hpool] at hpool'
    cases hpool'
    exact hbarriers.append (hstages.exact hvalid haligned hlimit)
  | failed _ hpool' hstages =>
    rw [hpool] at hpool'
    cases hpool'
    exact (hbarriers.append (hstages.exact hvalid haligned hlimit)).append (.of_eq_nil rfl rfl)

/-- An upload into the buffer, of pages that the guest has, answers or hands an error back, or
it is stopped because a sum is no size: by no piece that holds no page or too many, and by no
null source.  It is stopped if and only if it is left with pages missing and a pool that is at
the limit of sizes, where all of the staging page is handed out, and the page adds up to the
limit with a guest page, or with a flush unit while it is the current one and has bytes to
flush, which no coherent page has.  It is stopped at once if its pool is at the limit already,
and never if all of its pages fit behind what is handed out.  However it ends, nothing was cut
down: it has looked up whole pages of its ranges, at least one at a time, and has claimed
these. -/
theorem upload_returns_or_fullAtLimit {p : Staging.Pool} {ending : Ending UploadError Unit}
    (hd : d.NeverNull) (hr : Reachable d r) (hpool : r.pool = some p)
    (hsorted : PageRange.Sorted ranges)
    (hsize : ∀ last ∈ ranges.getLast?, last.stop <<< r.pageBits ≤ size)
    (hcovers : ∀ range ∈ ranges, range.count ≠ 0 →
      guest.Covers (range.start <<< r.pageBits) (range.count <<< r.pageBits))
    (hflush : p.config.pageSize + p.config.flushUnit ≤ Size.limit)
    (h : (upload d guest trace submission ranges).run r s = ⟨ending, r', s', events⟩) :
    (ending.Returns ∨ ending = .broken .sizeOverflow) ∧
      (ending = .broken .sizeOverflow ↔
        lookedUp events < PageRange.total ranges r.pageBits ∧
          ∃ q, r'.pool = some q ∧ q.config = p.config ∧ q.FullAtLimit (1 <<< r.pageBits)) ∧
      (p.FullAtLimit (1 <<< r.pageBits) → PageRange.total ranges r.pageBits ≠ 0 →
        ending = .broken .sizeOverflow) ∧
      (p.used + PageRange.total ranges r.pageBits ≤ p.config.pageSize → ending.Returns) ∧
      Exact r.pageBits ranges events := by
  have huploads := uploads_of_run h
  have hin : ∀ range ∈ ranges, range.stop <<< r.pageBits ≤ size := by
    intro range hmem
    have hlast := List.getLast?_eq_some_getLast (List.ne_nil_of_mem hmem)
    exact stop_le_size hsorted hlast (hsize _ hlast) hmem
  have hexact := huploads.exact hr.valid hpool fun range hmem =>
    Nat.lt_of_le_of_lt (hin range hmem) size_lt_addressLimit
  cases ending with
  | done value =>
    have hreturns := Ending.returns_done (ε := UploadError) value
    have hall := huploads.lookedUp_eq hr.valid
    refine ⟨.inl hreturns, iff_of_false nofun ?_, ?_, fun _ => hreturns, hexact⟩
    · rintro ⟨hless, _⟩
      omega
    · intro hfull htotal
      exact absurd hreturns (huploads.not_returns hr.valid hpool htotal hfull)
  | failed e =>
    have hreturns := Ending.returns_failed (α := Unit) e
    refine ⟨.inl hreturns, iff_of_false nofun ?_, ?_, fun _ => hreturns, hexact⟩
    · rintro ⟨_, q, hq, _, hfull⟩
      exact huploads.not_fullAtLimit hr.valid hq hfull
    · intro hfull htotal
      exact absurd hreturns (huploads.not_returns hr.valid hpool htotal hfull)
  | broken v =>
    obtain ⟨rfl, hmissing, q, hq, hconfig, hused, hfull⟩ :=
      huploads.fullAtLimit hd hr hpool hsorted hin hcovers hflush
    have hunit := (Size.isPowerOfTwo_one_shiftLeft r.pageBits).pos
    refine ⟨.inr rfl, iff_of_true rfl ⟨by omega, q, hq, hconfig, hfull⟩, fun _ _ => rfl, ?_, hexact⟩
    intro hroom
    have hwhole : q.used = q.config.pageSize := hfull.elim (·.1) (·.1.1)
    rw [hconfig] at hwhole
    omega

/-! ## A flush unit that fills up a page -/

/-- A replica whose staging pages hold one guest page of two bytes, and whose flush units are
as large as such a page allows.  A mask says which types of memory are coherent. -/
def brimful (coherent : Mask) : Config where
  pageBits := 1
  memoryTypes := ⟨1, 2, coherent⟩
  stagingPageSize := 2
  flushUnit := Size.limit - 2

/-- What is created when nothing fails. -/
def createBrimful (coherent : Mask) : Outcome Unit CreationError Simulated.State Replica :=
  (create (Simulated.device .direct) (brimful coherent)).run () (Simulated.State.new {})

/-- The pool of the replica that is created. -/
def brimfulPool (coherent : Mask) : Staging.Pool :=
  .ofConfig
    { pageSize := 2, hostVisible := 2, hostCoherent := coherent, flushUnit := Size.limit - 2 }

/-- The replica that is created. -/
def brimfulReplica (coherent : Mask) : Replica :=
  initial (brimful coherent) ⟨1, size, [2], 0, .plain⟩ (brimfulPool coherent).config

/-- A guest with two pages of two bytes. -/
def fourBytes : GuestMemory := ⟨0, ⟨#[5, 6, 7, 8]⟩⟩

/-- Both of them are uploaded. -/
def uploadBrimful (coherent : Mask) : Outcome Replica UploadError Simulated.State Unit :=
  (upload (Simulated.device .direct) fourBytes .report 1 [⟨0, 2⟩]).run (brimfulReplica coherent)
    (createBrimful coherent).device

theorem reachable_brimful {coherent : Mask}
    (h : (createBrimful coherent).ending = .done (brimfulReplica coherent)) :
    Reachable (Simulated.device .direct) (brimfulReplica coherent) := by
  have hcreate : (create (Simulated.device .direct) (brimful coherent)).run ()
      (Simulated.State.new {}) = ⟨.done (brimfulReplica coherent), (),
        (createBrimful coherent).device, (createBrimful coherent).events⟩ := by
    rw [← h]
    rfl
  exact .intro hcreate (.nil _ _)

/-- The second page turns to another staging page.  Where the first one has to be flushed for
that, the upload is stopped, and where it is coherent, the upload succeeds. -/
theorem upload_returns_brimful :
    (∀ coherent, (brimfulPool coherent).config.pageSize +
      (brimfulPool coherent).config.flushUnit = Size.limit) ∧
    ((uploadBrimful 0).ending = .broken .sizeOverflow ∧
      lookedUp (uploadBrimful 0).events < PageRange.total [⟨0, 2⟩] 1 ∧
      (∃ q, (uploadBrimful 0).subject.pool = some q ∧ q.config = (brimfulPool 0).config ∧
        q.FullAtLimit 2) ∧
      Exact 1 [⟨0, 2⟩] (uploadBrimful 0).events) ∧
    (uploadBrimful 2).ending.Returns ∧
      lookedUp (uploadBrimful 2).events = PageRange.total [⟨0, 2⟩] 1 ∧
      Exact 1 [⟨0, 2⟩] (uploadBrimful 2).events := by
  have hcovers : ∀ range ∈ ([⟨0, 2⟩] : List PageRange), range.count ≠ 0 →
      fourBytes.Covers (range.start <<< 1) (range.count <<< 1) := by decide
  have hsum : 2 + (Size.limit - 2) = Size.limit := by decide
  have hr₀ : Reachable (Simulated.device .direct) (brimfulReplica 0) :=
    reachable_brimful (by decide +kernel)
  have hr₂ : Reachable (Simulated.device .direct) (brimfulReplica 2) :=
    reachable_brimful (by decide +kernel)
  obtain ⟨_, hstopped, _, _, hexact⟩ := upload_returns_or_fullAtLimit Simulated.neverNull hr₀ rfl
    (by decide) (by decide) hcovers (Nat.le_of_eq hsum) (Outcome.eta (uploadBrimful 0))
  obtain ⟨hreturns, hcoherent, _, _, hexact'⟩ := upload_returns_or_fullAtLimit Simulated.neverNull
    hr₂ rfl (by decide) (by decide) hcovers (Nat.le_of_eq hsum) (Outcome.eta (uploadBrimful 2))
  have hbroken : (uploadBrimful 0).ending = .broken .sizeOverflow := by decide +kernel
  have hall : lookedUp (uploadBrimful 2).events = PageRange.total [⟨0, 2⟩] 1 := by decide +kernel
  obtain ⟨hmissing, hfull⟩ := hstopped.mp hbroken
  refine ⟨fun _ => hsum, ⟨hbroken, hmissing, hfull, hexact⟩, ?_, hall, hexact'⟩
  exact hreturns.resolve_right fun hending => Nat.ne_of_lt (hcoherent.mp hending).1 hall

/-! ## A page as large as there are sizes -/

/-- An upload that returns and fits in the current page succeeds, and takes its bytes from
there. -/
theorem Uploads.fills {p : Staging.Pool} {index : Nat} {ending : Ending UploadError Unit}
    (h : Uploads d guest trace submission r ranges ending r' events) (hr : r.Valid)
    (hreturns : ending.Returns) (hranges : ranges ≠ []) (hpool : r.pool = some p)
    (hcurrent : p.current = some index)
    (hroom : p.used + PageRange.total ranges r.pageBits ≤ p.config.pageSize) :
    ending = .done () ∧ ∃ q, r'.pool = some q ∧ p.Fills q (PageRange.total ranges r.pageBits) := by
  rcases h.stages hreturns with ⟨hnil, _⟩ |
    ⟨first, last, p', q, failure, staged, haccepts, hpool', hstages, rfl, _, hdone⟩
  · exact absurd hnil hranges
  · rw [hpool] at hpool'
    cases hpool'
    have hcounts : ∀ range ∈ ranges, range.count < addressLimit := by
      intro range hmem
      exact Nat.lt_of_le_of_lt range.count_le_stop (haccepts.stop_lt_of_mem hmem)
    obtain ⟨hnone, hfills⟩ :=
      hstages.fills (hr.pool_aligned p hpool) hcounts hcurrent hroom
    exact ⟨hdone.mpr hnone, q, rfl, hfills⟩

/-- A device without a state, on which everything works. -/
def agreeable : Device Unit where
  sparsePath := .direct
  onCreateBuffer _ _ := (.ok 1, ())
  onDestroyBuffer _ _ := ()
  onRequirements _ _ := (⟨1, 1, 3⟩, ())
  onAllocate _ _ _ := (.ok 1, ())
  onFree _ _ := ()
  onBind _ _ _ _ := (.ok (), ())
  onBindSparse _ _ := (.ok (), ())
  onMap _ _ _ _ _ := (.ok .address, ())
  onUnmap _ _ := ()
  onFlush _ _ := (.ok (), ())
  onCreateFence _ _ := (.ok 1, ())
  onQueueBindSparse _ _ _ _ := (.ok (), ())
  onWaitForFences _ _ _ _ := (.ok (), ())
  onDestroyFence _ _ := ()
  onPipelineBarrier _ _ _ := ()
  onCopyBuffer _ _ _ _ _ := ()
  onHostWrite _ _ _ _ := ()

theorem agreeable_neverNull : agreeable.NeverNull := by
  rintro info s ⟨⟩

/-- A replica with guest pages of two bytes, and with the largest staging pages that these
allow. -/
def vast : Config where
  pageBits := 1
  memoryTypes := ⟨1, 2, 2⟩
  stagingPageSize := Size.limit - 3
  flushUnit := 1

/-- The pool of the replica that is created. -/
def vastPool : Staging.Pool :=
  .ofConfig { pageSize := Size.limit - 2, hostVisible := 2, hostCoherent := 2, flushUnit := 1 }

/-- The replica that is created. -/
def vastReplica : Replica := initial vast ⟨1, size, [1], 0, .plain⟩ vastPool.config

theorem reachable_vast : Reachable agreeable vastReplica := by
  have hending : ((create agreeable vast).run () ()).ending = .done vastReplica := by
    decide +kernel
  have hcreate : (create agreeable vast).run () () =
      ⟨.done vastReplica, (), (), ((create agreeable vast).run () ()).events⟩ := by
    rw [← hending]
  exact .intro hcreate (.nil _ _)

/-- A device without a state goes on from wherever it is. -/
theorem Reachable.step {d : Device Unit} (h : Reachable d r) (use : Use) :
    Reachable d ((use.action d).run r ()).subject := by
  obtain ⟨hcreate, hrun⟩ := h
  exact .intro hcreate (hrun.concat (Outcome.eta _))

/-- The first page of the guest. -/
def firstPage : List PageRange := [⟨0, 1⟩]

theorem firstPage_in (hbits : r.pageBits = 1) :
    (∀ range ∈ firstPage, range.stop <<< r.pageBits ≤ size) ∧
      ∀ range ∈ firstPage, range.count ≠ 0 →
        fourBytes.Covers (range.start <<< r.pageBits) (range.count <<< r.pageBits) := by
  rw [hbits]
  decide

/-- It is uploaded once more. -/
def uploadPage : Use := .upload fourBytes .off 1 firstPage

/-- Uploads of that page can hand out so many bytes of the first staging page. -/
def CanFill (used : Nat) : Prop :=
  ∃ r p, Reachable agreeable r ∧ r.pageBits = 1 ∧ r.pool = some p ∧
    p.config = vastPool.config ∧ p.current = some 0 ∧ p.used = used

theorem canFill_first : CanFill 2 := by
  have hfirst : ((uploadPage.action agreeable).run vastReplica ()).subject.pageBits = 1 ∧
      ((uploadPage.action agreeable).run vastReplica ()).subject.pool.map
        (fun p => (p.config, p.current, p.used)) = some (vastPool.config, some 0, 2) := by
    decide +kernel
  obtain ⟨hbits, hmap⟩ := hfirst
  obtain ⟨p, hpool, heq⟩ := Option.map_eq_some_iff.mp hmap
  obtain ⟨hconfig, hplace⟩ := Prod.mk.inj heq
  obtain ⟨hcurrent, hused⟩ := Prod.mk.inj hplace
  exact ⟨_, p, reachable_vast.step uploadPage, hbits, hpool, hconfig, hcurrent, hused⟩

theorem CanFill.next {used : Nat} (h : CanFill used) (hle : used + 2 ≤ Size.limit - 2) :
    CanFill (used + 2) := by
  obtain ⟨r, p, hr, hbits, hpool, hconfig, hcurrent, rfl⟩ := h
  have hpageSize : p.config.pageSize = Size.limit - 2 := by rw [hconfig]; rfl
  have hflushUnit : p.config.flushUnit = 1 := by rw [hconfig]; rfl
  have htotal : PageRange.total firstPage r.pageBits = 2 := by rw [hbits]; rfl
  have hroom : p.used + PageRange.total firstPage r.pageBits ≤ p.config.pageSize := by omega
  rcases ho : (uploadPage.action agreeable).run r () with ⟨answer, r', s', events⟩
  have hstep : Performs agreeable r (.upload fourBytes .off 1 firstPage) answer r' events :=
    performs_of_run ho
  have hreached := hr.step uploadPage
  have hframe := hstep.frame Use.noConfusion
  rw [ho] at hreached
  cases hstep with
  | uploaded hupload =>
    obtain ⟨_, q, hq, hfills⟩ := hupload.fills hr.valid (Ending.returns_done ())
      (List.cons_ne_nil _ _) hpool hcurrent hroom
    rw [htotal] at hfills
    exact ⟨r', q, hreached, hframe.pageBits_eq.trans hbits, hq, hfills.config_eq.trans hconfig,
      hfills.current_eq.trans hcurrent, hfills.used_eq⟩
  | unstaged hupload =>
    obtain ⟨hdone, _⟩ := hupload.fills hr.valid (Ending.returns_failed _) (List.cons_ne_nil _ _)
      hpool hcurrent hroom
    cases hdone
  | @stopped _ _ _ _ _ v _ hupload =>
    obtain ⟨hin, hcovers⟩ := firstPage_in hbits
    exact absurd rfl (hupload.returns agreeable_neverNull hr hpool (by decide) hin hcovers
      (by omega) (.inr hroom) v)

/-- They can hand out all of it. -/
theorem canFill_page : CanFill (Size.limit - 2) := by
  have hfill : ∀ n, 2 * n + 2 ≤ Size.limit - 2 → CanFill (2 * n + 2) := by
    intro n
    induction n with
    | zero => exact fun _ => canFill_first
    | succ n ih => exact fun hle => (ih (by omega)).next hle
  have hhalf : 2 * (Size.limit / 2 - 2) + 2 = Size.limit - 2 := by decide
  rw [← hhalf]
  exact hfill _ (Nat.le_of_eq hhalf)

/-- The limits are reached.  When the only staging page so far is full, two pages into small
staging pages are stopped after the first one, since the end of what has to be flushed is no
size; and a page into the largest staging pages is stopped, since the end of what was handed
out cannot be rounded up to a guest page. -/
theorem stopped_at_limit :
    (Reachable (Simulated.device .direct) (brimfulReplica 0) ∧
      (∀ p ∈ (brimfulReplica 0).pool, p.config.pageSize + p.config.flushUnit ≤ Size.limit) ∧
      PageRange.Sorted [⟨0, 2⟩] ∧
      PageRange.stop ⟨0, 2⟩ <<< (brimfulReplica 0).pageBits ≤ size ∧ fourBytes.Covers 0 4 ∧
      (uploadBrimful 0).ending = .broken .sizeOverflow) ∧
    ∃ r p, Reachable agreeable r ∧ r.pageBits = 1 ∧ r.pool = some p ∧
      p.config.pageSize + p.config.flushUnit < Size.limit ∧ fourBytes.Covers 0 2 ∧
      ((upload agreeable fourBytes .off 1 firstPage).run r ()).ending = .broken .sizeOverflow := by
  refine ⟨⟨reachable_brimful (by decide +kernel), ?_, by decide, by decide, by decide,
    by decide +kernel⟩, ?_⟩
  · rintro p ⟨⟩
    decide
  · obtain ⟨r, p, hr, hbits, hpool, hconfig, _, hused⟩ := canFill_page
    have hflush : p.config.pageSize + p.config.flushUnit < Size.limit := by
      rw [hconfig]
      decide
    have hfull : p.FullAtLimit (1 <<< r.pageBits) := by
      rw [hbits]
      exact .inl ⟨by rw [hused, hconfig]; rfl, by rw [hconfig]; decide⟩
    have htotal : PageRange.total firstPage r.pageBits ≠ 0 := by
      rw [hbits]
      decide
    refine ⟨r, p, hr, hbits, hpool, hflush, by decide, ?_⟩
    have hupload := uploads_of_run (Outcome.eta
      ((upload agreeable fourBytes .off 1 firstPage).run r ()))
    have hstopped := hupload.not_returns hr.valid hpool htotal hfull
    obtain ⟨hin, hcovers⟩ := firstPage_in hbits
    cases hending : ((upload agreeable fourBytes .off 1 firstPage).run r ()).ending with
    | done value => exact absurd (hending ▸ Ending.returns_done value) hstopped
    | failed e => exact absurd (hending ▸ Ending.returns_failed e) hstopped
    | broken v =>
      rw [hending] at hupload
      rw [(hupload.fullAtLimit agreeable_neverNull hr hpool (by decide) hin hcovers
        (Nat.le_of_lt hflush)).1]

end GuestReplica.Replica
