import GuestReplica.Device.Simulated
import GuestReplica.Proofs.Staging.Runs

set_option autoImplicit false

/-!
# Where the pages of a pool are

Every page of a pool is in one place: it is the current one, or it waits for its
submission, or it can be written again.  No operation loses a page or puts it into two
places, be it served, refused or stopped half-way, and giving all pages back leaves a
pool that can be used again.  A page is only created when no other can be had.
-/

namespace GuestReplica.Staging.Pool

variable {σ : Type} {d : Device σ} {p q : Pool} {events : List Event}

/-! ## What the owner of a pool does -/

/-- What the owner of a pool does with it: what any client does, and giving all pages
back. -/
inductive OwnerUse where
  | client (use : Use)
  | destroy
  deriving DecidableEq, Repr, Inhabited

/-- Does it.  Only a request answers with an allocation. -/
def OwnerUse.action (d : Device σ) : OwnerUse → Action Pool StagingError σ (Option Allocation)
  | .client use => use.action d
  | .destroy => do
    Pool.destroy d
    return none

/-- A step of a run of a pool by its owner. -/
abbrev OwnerStep : Type := Step OwnerUse StagingError (Option Allocation)

/-- How a step of the owner can end. -/
inductive OwnerPerforms (d : Device σ) (p : Pool) :
    OwnerUse → Ending StagingError (Option Allocation) → Pool → List Event → Prop where
  | client {q : Pool} {use : Use} {answer : Ending StagingError (Option Allocation)}
      {events : List Event} (hperforms : Performs d p use answer q events) :
      OwnerPerforms d p (.client use) answer q events
  | destroyed : OwnerPerforms d p .destroy (.done none) p.clear (released p.pages)

theorem ownerPerforms_of_run {s s' : σ} {use : OwnerUse}
    {answer : Ending StagingError (Option Allocation)}
    (h : (use.action d).run p s = ⟨answer, q, s', events⟩) :
    OwnerPerforms d p use answer q events := by
  cases use with
  | client use => exact .client (performs_of_run h)
  | destroy =>
    obtain ⟨s₁, hdestroy⟩ := destroy_run (ε := StagingError) d p s
    simp only [OwnerUse.action, Action.run_bind, hdestroy, Outcome.andThen_done, Action.run_pure,
      Outcome.after_mk, List.append_nil] at h
    cases h
    exact .destroyed

/-! ## The number of pages -/

/-- The pool has no more pages than it may create. -/
def Bounded (p : Pool) : Prop := ∀ n ∈ p.config.maxPages, p.pages.length ≤ n

theorem bounded_ofConfig (config : Config) : (ofConfig config).Bounded :=
  fun n _ => Nat.zero_le n

theorem Bounded.of_length_eq (hp : p.Bounded) (hconfig : q.config = p.config)
    (hlength : q.pages.length = p.pages.length) : q.Bounded := by
  intro n hn
  rw [hconfig] at hn
  rw [hlength]
  exact hp n hn

theorem Flushes.length_eq {ending : Ending StagingError Unit} (h : Flushes p ending q events) :
    q.pages.length = p.pages.length := by
  cases h <;> rfl

/-- Only a pool that is not full gets another page. -/
theorem Creates.bounded {ending : Ending StagingError Nat} (h : Creates d p ending q events)
    (hp : p.Bounded) : q.Bounded := by
  cases h with
  | created hfull _ _ =>
    intro n hn
    have hroom : ¬ n ≤ p.pages.length := fun hle => hfull ⟨n, hn, hle⟩
    simp only [addPage, List.length_append, List.length_singleton]
    omega
  | _ => exact hp

theorem Flushes.bounded {ending : Ending StagingError Unit} (h : Flushes p ending q events)
    (hp : p.Bounded) : q.Bounded :=
  hp.of_length_eq h.config_eq h.length_eq

theorem Turns.bounded {ending : Ending StagingError Nat} (h : Turns d p ending q events)
    (hp : p.Bounded) : q.Bounded := by
  cases h with
  | unflushed hflush => exact hflush.bounded hp
  | broken hflush => exact hflush.bounded hp
  | reused hflush _ =>
    have hflushed := hflush.bounded hp
    exact hflushed
  | uncreated hflush _ hcreate =>
    have hflushed := hflush.bounded hp
    exact hcreate.bounded hflushed
  | created hflush _ hcreate =>
    have hflushed := hflush.bounded hp
    exact hcreate.bounded hflushed

theorem Requests.bounded {submission size alignment : Nat}
    {ending : Ending StagingError Allocation}
    (h : Requests d p submission size alignment ending q events) (hp : p.Bounded) :
    q.Bounded := by
  cases h with
  | empty _ => exact hp
  | misaligned _ => exact hp
  | overflow _ => exact hp
  | missing _ _ => exact hp
  | served _ _ _ _ _ _ => exact hp.of_length_eq rfl (length_pages_handOut _ _ _ p)
  | unturned _ _ _ hturn => exact hturn.bounded hp
  | broken hturn => exact hturn.bounded hp
  | lost hturn _ => exact hturn.bounded hp
  | turned _ _ _ hturn _ => exact (hturn.bounded hp).of_length_eq rfl (length_pages_handOut _ _ _ _)

/-! ## When pages are created -/

/-- From one pool to another, no page is created, and no buffer for one, while a page
can be written again. -/
structure CreatesLast (p q : Pool) (events : List Event) : Prop where
  writable_eq_of_ask : ∀ info answer, .call (.createBuffer info answer) ∈ events →
    p.writable = []
  writable_eq_of_length_lt : p.pages.length < q.pages.length → p.writable = []

/-- This is so where there is none to be written again. -/
theorem createsLast_of_writable_eq (h : p.writable = []) : CreatesLast p q events :=
  ⟨fun _ _ _ => h, fun _ => h⟩

/-- It is also so where nothing is created at all. -/
theorem createsLast_of_length_eq (hlength : q.pages.length = p.pages.length)
    (hasks : ∀ info answer, .call (.createBuffer info answer) ∉ events) :
    CreatesLast p q events := by
  refine ⟨fun info answer hmem => absurd hmem (hasks info answer), fun hlt => ?_⟩
  omega

theorem Flushes.createsLast {ending : Ending StagingError Unit}
    (h : Flushes p ending q events) : CreatesLast p q events := by
  refine createsLast_of_length_eq h.length_eq fun info answer => ?_
  cases h <;> simp

theorem Flushes.writable_eq {ending : Ending StagingError Unit} (h : Flushes p ending q events) :
    q.writable = p.writable := by
  cases h <;> rfl

theorem Turns.createsLast {ending : Ending StagingError Nat} (h : Turns d p ending q events) :
    CreatesLast p q events := by
  cases h with
  | unflushed hflush => exact hflush.createsLast
  | broken hflush => exact hflush.createsLast
  | reused hflush _ =>
    obtain ⟨hasks, hgrows⟩ := hflush.createsLast
    exact ⟨hasks, hgrows⟩
  | uncreated hflush hnone _ => exact createsLast_of_writable_eq (hflush.writable_eq ▸ hnone)
  | created hflush hnone _ => exact createsLast_of_writable_eq (hflush.writable_eq ▸ hnone)

theorem Requests.createsLast {submission size alignment : Nat}
    {ending : Ending StagingError Allocation}
    (h : Requests d p submission size alignment ending q events) : CreatesLast p q events := by
  have hidle : CreatesLast p p [] := createsLast_of_length_eq rfl (by simp)
  cases h with
  | empty _ => exact hidle
  | misaligned _ => exact hidle
  | overflow _ => exact hidle
  | missing _ _ => exact hidle
  | served _ _ _ _ _ _ => exact createsLast_of_length_eq (length_pages_handOut _ _ _ p) (by simp)
  | unturned _ _ _ hturn => exact hturn.createsLast
  | broken hturn => exact hturn.createsLast
  | lost hturn _ => exact hturn.createsLast
  | turned _ _ _ hturn _ =>
    obtain ⟨hasks, hgrows⟩ := hturn.createsLast
    refine ⟨hasks, fun hlt => hgrows ?_⟩
    rwa [length_pages_handOut] at hlt

/-! ## What stops an operation -/

/-- The violations of which the caller is warned: a request for no bytes, one at an
alignment that is no power of two, and a sum that is no size. -/
def foreseen : List Violation := [.emptyRequest, .alignmentNotPowerOfTwo, .sizeOverflow]

theorem Flushes.foreseen {v : Violation} (h : Flushes p (.broken v) q events) :
    v ∈ Pool.foreseen := by
  cases h with
  | overflow _ _ _ => simp [Pool.foreseen]

theorem Turns.foreseen {v : Violation} (h : Turns d p (.broken v) q events) :
    v ∈ Pool.foreseen := by
  cases h with
  | broken hflush => exact hflush.foreseen

/-- A valid pool never looks for a page that it does not have. -/
theorem Requests.foreseen {submission size alignment : Nat} {v : Violation}
    (h : Requests d p submission size alignment (.broken v) q events) (hp : p.Valid) :
    v ∈ Pool.foreseen := by
  cases h with
  | empty _ => simp [Pool.foreseen]
  | misaligned _ => simp [Pool.foreseen]
  | overflow _ => simp [Pool.foreseen]
  | missing hcurrent hnone =>
    obtain ⟨page, hpage⟩ := hp.exists_page hcurrent
    rw [hpage] at hnone
    cases hnone
  | broken hturn => exact hturn.foreseen
  | lost hturn hnone =>
    obtain ⟨page, hpage⟩ := (hturn.valid hp).exists_page hturn.turned.1
    rw [hpage] at hnone
    cases hnone

/-! ## Steps of the owner -/

theorem Valid.clear (hp : p.Valid) : p.clear.Valid :=
  ⟨hp.pageSize_pos, hp.flushUnit_pos, List.Perm.refl _, Nat.le_refl _, Nat.zero_le _⟩

variable {use : OwnerUse} {answer : Ending StagingError (Option Allocation)}

theorem OwnerPerforms.valid (h : OwnerPerforms d p use answer q events) (hp : p.Valid) :
    q.Valid := by
  cases h with
  | client hperforms => exact hperforms.valid hp
  | destroyed => exact hp.clear

theorem OwnerPerforms.config_eq (h : OwnerPerforms d p use answer q events) :
    q.config = p.config := by
  cases h with
  | client hperforms => exact hperforms.config_eq
  | destroyed => rfl

theorem OwnerPerforms.bounded (h : OwnerPerforms d p use answer q events) (hp : p.Bounded) :
    q.Bounded := by
  cases h with
  | client hperforms =>
    cases hperforms with
    | allocated hrequest => exact hrequest.bounded hp
    | unserved hrequest => exact hrequest.bounded hp
    | stopped hrequest => exact hrequest.bounded hp
    | reclaimed _ => exact hp
    | flushed hflush => exact hflush.bounded hp
    | unflushed hflush => exact hflush.bounded hp
    | overflow hflush => exact hflush.bounded hp
  | destroyed => exact bounded_ofConfig p.config

theorem OwnerPerforms.createsLast (h : OwnerPerforms d p use answer q events) :
    CreatesLast p q events := by
  cases h with
  | client hperforms =>
    cases hperforms with
    | allocated hrequest => exact hrequest.createsLast
    | unserved hrequest => exact hrequest.createsLast
    | stopped hrequest => exact hrequest.createsLast
    | reclaimed _ => exact createsLast_of_length_eq rfl (by simp)
    | flushed hflush => exact hflush.createsLast
    | unflushed hflush => exact hflush.createsLast
    | overflow hflush => exact hflush.createsLast
  | destroyed =>
    refine ⟨fun info answer hmem => ?_, fun hlt => absurd hlt (Nat.not_lt_zero _)⟩
    simp [released] at hmem

theorem OwnerPerforms.foreseen {v : Violation}
    (h : OwnerPerforms d p use (.broken v) q events) (hp : p.Valid) : v ∈ Pool.foreseen := by
  cases h with
  | client hperforms =>
    cases hperforms with
    | stopped hrequest => exact hrequest.foreseen hp
    | overflow hflush => exact hflush.foreseen

/-! ## Runs of the owner -/

/-- Each page is in one place and nothing else is in any, there are no more pages than
there may be, and what is flushed and what is handed out of the current page are parts of
it. -/
structure Represents (p : Pool) : Prop where
  count_places : ∀ index, p.places.count index = if index < p.pages.length then 1 else 0
  length_le_maxPages : ∀ n ∈ p.config.maxPages, p.pages.length ≤ n
  flushed_le_used : p.flushed ≤ p.used
  used_le_pageSize : p.used ≤ p.config.pageSize

theorem Valid.represents (hp : p.Valid) (hbounded : p.Bounded) : p.Represents := by
  refine ⟨fun index => ?_, hbounded, hp.flushed_le_used, hp.used_le_pageSize⟩
  rw [hp.places_perm.count_eq, List.nodup_range.count]
  simp only [List.mem_range]

/-- What a pool is like, that it is valid and that it has not too many pages is kept by
all that its owner does. -/
theorem keeps_of_ownerRuns {s s' : σ} {steps : List (Step OwnerUse StagingError (Option Allocation))}
    (h : Runs (OwnerUse.action d) p s steps q s') (hp : p.Valid) (hbounded : p.Bounded) :
    q.Valid ∧ q.Bounded ∧ q.config = p.config := by
  induction h with
  | nil p s => exact ⟨hp, hbounded, rfl⟩
  | cons hstep _ ih =>
    have hperforms := ownerPerforms_of_run hstep
    obtain ⟨hvalid, hbounded, hconfig⟩ := ih (hperforms.valid hp) (hperforms.bounded hbounded)
    exact ⟨hvalid, hbounded, hconfig.trans hperforms.config_eq⟩

theorem keeps_of_new {config : Config} {s s' : σ} {steps : List OwnerStep}
    (hnew : new config = .ok p) (h : Runs (OwnerUse.action d) p s steps q s') :
    q.Valid ∧ q.Bounded ∧ q.config = config := by
  have hp := valid_of_new hnew
  obtain ⟨_, _, rfl⟩ := new_eq_ok_iff.mp hnew
  exact keeps_of_ownerRuns h hp (bounded_ofConfig config)

/-- Whatever the owner of a new pool does with it, and however the device answers, each
step leaves every page in one place, stays within the number of pages, and creates none
while another can be written again.  If the step is stopped, the caller was warned. -/
theorem represents_of_runs {config : Config} {s s' : σ}
    {steps : List (Step OwnerUse StagingError (Option Allocation))}
    (hnew : new config = .ok p) (hrun : Runs (OwnerUse.action d) p s steps q s') :
    q.config = config ∧ q.Represents ∧
      ∀ {before step after}, steps = before ++ step :: after →
        ∃ p₁ s₁ p₂ s₂, Runs (OwnerUse.action d) p s before p₁ s₁ ∧
          (step.use.action d).run p₁ s₁ = ⟨step.answer, p₂, s₂, step.events⟩ ∧
          p₂.config = config ∧ p₂.Represents ∧ CreatesLast p₁ p₂ step.events ∧
          ∀ v, step.answer = .broken v → v ∈ foreseen := by
  have hp := valid_of_new hnew
  obtain ⟨_, _, rfl⟩ := new_eq_ok_iff.mp hnew
  have hbounded := bounded_ofConfig config
  obtain ⟨hvalid, hbounded', hconfig⟩ := keeps_of_ownerRuns hrun hp hbounded
  refine ⟨hconfig, hvalid.represents hbounded', ?_⟩
  rintro before step after rfl
  obtain ⟨p₁, s₁, hbefore, hrest⟩ := hrun.split
  obtain ⟨p₂, s₂, hstep, _⟩ := hrest.uncons
  obtain ⟨hvalid, hbounded, hconfig⟩ := keeps_of_ownerRuns hbefore hp hbounded
  have hperforms := ownerPerforms_of_run hstep
  refine ⟨p₁, s₁, p₂, s₂, hbefore, hstep, hperforms.config_eq.trans hconfig, ?_,
    hperforms.createsLast, ?_⟩
  · exact (hperforms.valid hvalid).represents (hperforms.bounded hbounded)
  · intro v hbroken
    rw [hbroken] at hperforms
    exact hperforms.foreseen hvalid

/-- A pool of at most two small pages. -/
def twoPages : Config where
  pageSize := 16
  hostVisible := 2
  flushUnit := 4
  maxPages := some 2

/-- Both pages are used up, one is written again after the first submission, and after
all pages are given back the pool starts anew. -/
def reusePages : List (Step OwnerUse StagingError (Option Allocation)) × Pool × Simulated.State :=
  play (OwnerUse.action (Simulated.device .direct)) (ofConfig twoPages) (Simulated.State.new {})
    [.client (.request 1 16 1), .client (.request 2 16 1), .client (.request 2 1 1),
      .client (.reclaim 1), .client (.request 2 8 4), .destroy, .client (.request 3 5 1)]

theorem represents_of_runs_reusePages :
    ∃ p₁ s₁ p₂ s₂,
      Runs (OwnerUse.action (Simulated.device .direct)) (ofConfig twoPages)
        (Simulated.State.new {}) (reusePages.1.take 4) p₁ s₁ ∧
      (OwnerUse.action (Simulated.device .direct) (.client (.request 2 8 4))).run p₁ s₁ =
        ⟨.done (some ⟨1, 2, 0, 8⟩), p₂, s₂, []⟩ ∧
      p₂.Represents ∧ CreatesLast p₁ p₂ [] := by
  have hnew : new twoPages = .ok (ofConfig twoPages) := rfl
  have hrun : Runs (OwnerUse.action (Simulated.device .direct)) (ofConfig twoPages)
      (Simulated.State.new {}) reusePages.1 reusePages.2.1 reusePages.2.2 := runs_play _ _ _ _
  have hsteps : reusePages.1 = reusePages.1.take 4 ++
      ⟨.client (.request 2 8 4), .done (some ⟨1, 2, 0, 8⟩), []⟩ :: reusePages.1.drop 5 := by
    decide
  obtain ⟨p₁, s₁, p₂, s₂, hbefore, hstep, _, hrepresents, hlast, _⟩ :=
    (represents_of_runs hnew hrun).2.2 hsteps
  exact ⟨p₁, s₁, p₂, s₂, hbefore, hstep, hrepresents, hlast⟩

end GuestReplica.Staging.Pool
