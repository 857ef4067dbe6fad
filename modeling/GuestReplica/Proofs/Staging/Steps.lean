import GuestReplica.Staging.Request

set_option autoImplicit false

/-!
# What the operations of a staging pool can do

Flushes, creations of pages, turns to another page and requests each end in one of
a few ways.  The relations of this module say which: how the operation ends, what
becomes of the pool, and which events happen, with every guard that was passed on
the way.  Each operation is shown once to end in one of these ways, and whatever
else is shown about it afterwards is a case analysis on its relation.
-/

namespace GuestReplica.Staging.Pool

variable {τ ε σ : Type}

/-! ## Flushes -/

/-- How a flush can end. -/
inductive Flushes (p : Pool) : Ending StagingError Unit → Pool → List Event → Prop where
  /-- there is no current page -/
  | idle (hpage : p.currentPage? = none) : Flushes p (.done ()) p []
  /-- the device sees all of the current page already -/
  | clean {page : Page} (hpage : p.currentPage? = some page) (hdirty : ¬ p.IsDirty page) :
      Flushes p (.done ()) p.markFlushed []
  | flushed {page : Page} {range : MappedRange} (hpage : p.currentPage? = some page)
      (hdirty : p.IsDirty page) (hrange : p.dirtyRange? page = some range) :
      Flushes p (.done ()) p.markFlushed [.call (.flush [range] (.ok ()))]
  /-- the device fails to flush -/
  | refused {page : Page} {range : MappedRange} {code : Code}
      (hpage : p.currentPage? = some page) (hdirty : p.IsDirty page)
      (hrange : p.dirtyRange? page = some range) :
      Flushes p (.failed (.device code)) p [.call (.flush [range] (.failed code))]
  /-- the end of the dirty range is no size -/
  | overflow {page : Page} (hpage : p.currentPage? = some page) (hdirty : p.IsDirty page)
      (hrange : p.dirtyRange? page = none) : Flushes p (.broken .sizeOverflow) p []

theorem flushes_of_run {d : Device σ} {p q : Pool} {s s' : σ}
    {ending : Ending StagingError Unit} {events : List Event}
    (h : (flush d).run p s = ⟨ending, q, s', events⟩) : Flushes p ending q events := by
  simp only [flush, Action.run_bind, Action.run_subject, Outcome.andThen_done] at h
  split at h
  · next hpage =>
    cases h
    exact .idle hpage
  · next page hpage =>
    split at h
    · next hdirty =>
      split at h
      · next hrange =>
        cases h
        exact .overflow hpage hdirty hrange
      · next range hrange =>
        simp only [Action.run_bind, Device.flush, Action.run_ask, Outcome.andThen_done] at h
        cases hanswer : (d.onFlush [range] s).1 with
        | failed code =>
          rw [hanswer] at h
          cases h
          exact .refused hpage hdirty hrange
        | ok value =>
          rw [hanswer] at h
          cases h
          exact .flushed hpage hdirty hrange
    · next hdirty =>
      cases h
      exact .clean hpage hdirty

/-! ## Creation of pages -/

/-- How a staging buffer can fail to become a mapped page once it has memory. -/
inductive Unmapped (buffer memory : Handle) : Code → List Event → Prop where
  | unbound {code : Code} :
      Unmapped buffer memory code [.call (.bind buffer memory 0 (.failed code))]
  | unmapped {code : Code} :
      Unmapped buffer memory code
        [.call (.bind buffer memory 0 (.ok ())),
         .call (.map memory 0 Size.whole 0 (.failed code))]
  /-- the device maps the memory at the null address -/
  | nowhere :
      Unmapped buffer memory Code.memoryMapFailed
        [.call (.bind buffer memory 0 (.ok ())),
         .call (.map memory 0 Size.whole 0 (.ok .null))]

/-- What the device is asked when a staging buffer does become a mapped page. -/
def mappedEvents (buffer memory : Handle) : List Event :=
  [.call (.bind buffer memory 0 (.ok ())), .call (.map memory 0 Size.whole 0 (.ok .address))]

theorem bindAndMap_run (d : Device σ) (buffer memory : Handle) (t : τ) (s : σ) :
    (∃ s', (bindAndMap d buffer memory : Action τ ε σ (Answer Unit)).run t s =
        ⟨.done (.ok ()), t, s', mappedEvents buffer memory⟩) ∨
      ∃ code s' events, Unmapped buffer memory code events ∧
        (bindAndMap d buffer memory : Action τ ε σ (Answer Unit)).run t s =
          ⟨.done (.failed code), t, s', events⟩ := by
  simp only [bindAndMap, Device.bind, Device.map, Action.run_bind, Action.run_ask,
    Outcome.andThen_done]
  cases hbind : (d.onBind buffer memory 0 s).1 with
  | failed code => exact Or.inr ⟨_, _, _, .unbound, rfl⟩
  | ok value =>
    simp only [Action.run_bind, Action.run_ask, Outcome.andThen_done]
    cases hmap : (d.onMap memory 0 Size.whole 0 (d.onBind buffer memory 0 s).2).1 with
    | failed code => exact Or.inr ⟨_, _, _, .unmapped, rfl⟩
    | ok mapping =>
      cases mapping with
      | null => exact Or.inr ⟨_, _, _, .nowhere, rfl⟩
      | address => exact Or.inl ⟨_, rfl⟩

/-- The type of memory that a pool picks for a new page. -/
def memoryTypeFor? (p : Pool) (needs : Requirements) : Option Nat :=
  MemoryTypes.choose? needs.types p.config.hostVisible p.config.hostCoherent

/-- A page that no allocation was cut from yet. -/
def freshPage (p : Pool) (buffer memory : Handle) (memoryType : Nat) : Page :=
  ⟨buffer, memory, p.config.hostCoherent.getLsbD memoryType, 0⟩

/-- How the creation of a page can end.  Whatever was created by an attempt that
fails is given back. -/
inductive Creates (d : Device σ) (p : Pool) :
    Ending StagingError Nat → Pool → List Event → Prop where
  | full (hfull : p.IsFull) : Creates d p (.failed .outOfPages) p []
  | noBuffer {code : Code} (hfull : ¬ p.IsFull) :
      Creates d p (.failed (.device code)) p
        [.call (.createBuffer (bufferInfo p.config.pageSize) (.failed code))]
  | noType {buffer : Handle} {needs : Requirements} (hfull : ¬ p.IsFull)
      (htype : p.memoryTypeFor? needs = none) :
      Creates d p (.failed .noHostVisibleMemoryType) p
        [.call (.createBuffer (bufferInfo p.config.pageSize) (.ok buffer)),
         .call (.requirements buffer needs), .call (.destroyBuffer buffer)]
  | noMemory {buffer : Handle} {needs : Requirements} {memoryType : Nat} {code : Code}
      (hfull : ¬ p.IsFull) (htype : p.memoryTypeFor? needs = some memoryType) :
      Creates d p (.failed (.device code)) p
        [.call (.createBuffer (bufferInfo p.config.pageSize) (.ok buffer)),
         .call (.requirements buffer needs),
         .call (.allocate needs.size memoryType (.failed code)), .call (.destroyBuffer buffer)]
  | noMapping {buffer memory : Handle} {needs : Requirements} {memoryType : Nat} {code : Code}
      {events : List Event} (hfull : ¬ p.IsFull)
      (htype : p.memoryTypeFor? needs = some memoryType)
      (hmap : Unmapped buffer memory code events) :
      Creates d p (.failed (.device code)) p
        ([.call (.createBuffer (bufferInfo p.config.pageSize) (.ok buffer)),
          .call (.requirements buffer needs),
          .call (.allocate needs.size memoryType (.ok memory))] ++ events ++
          [.call (.destroyBuffer buffer), .call (.free memory)])
  | created {buffer memory : Handle} {needs : Requirements} {memoryType : Nat}
      (hfull : ¬ p.IsFull)
      (hbuffer : ∃ s, (d.onCreateBuffer (bufferInfo p.config.pageSize) s).1 = .ok buffer)
      (htype : p.memoryTypeFor? needs = some memoryType) :
      Creates d p (.done p.pages.length) (p.addPage (p.freshPage buffer memory memoryType))
        ([.call (.createBuffer (bufferInfo p.config.pageSize) (.ok buffer)),
          .call (.requirements buffer needs),
          .call (.allocate needs.size memoryType (.ok memory))] ++ mappedEvents buffer memory)

theorem creates_of_run {d : Device σ} {p q : Pool} {s s' : σ}
    {ending : Ending StagingError Nat} {events : List Event}
    (h : (createPage d).run p s = ⟨ending, q, s', events⟩) : Creates d p ending q events := by
  simp only [createPage, Action.run_bind, Action.run_subject, Outcome.andThen_done] at h
  split at h
  · next hfull =>
    cases h
    exact .full hfull
  · next hfull =>
    simp only [Action.run_bind, Device.createBuffer, Action.run_ask, Outcome.andThen_done] at h
    cases hbuffer : (d.onCreateBuffer (bufferInfo p.config.pageSize) s).1 with
    | failed code =>
      rw [hbuffer] at h
      cases h
      exact .noBuffer hfull
    | ok buffer =>
      rw [hbuffer] at h
      simp only [Action.accept_ok, Action.run_pure, Outcome.andThen_done,
        Device.requirements, Action.run_ask] at h
      generalize (d.onCreateBuffer (bufferInfo p.config.pageSize) s).2 = s₁ at h
      generalize (d.onRequirements buffer s₁).1 = needs at h
      generalize (d.onRequirements buffer s₁).2 = s₂ at h
      split at h
      · next htype =>
        cases h
        exact .noType hfull htype
      · next memoryType htype =>
        simp only [pageFor, Device.allocate, Action.run_bind, Action.run_ask,
          Outcome.andThen_done] at h
        cases hmemory : (d.onAllocate needs.size memoryType s₂).1 with
        | failed code =>
          rw [hmemory] at h
          cases h
          exact .noMemory hfull htype
        | ok memory =>
          rw [hmemory] at h
          simp only [Action.run_bind] at h
          generalize (d.onAllocate needs.size memoryType s₂).2 = s₃ at h
          rcases bindAndMap_run (ε := StagingError) d buffer memory p s₃ with
            ⟨s₄, hrun⟩ | ⟨code, s₄, mapped, hmap, hrun⟩
          · rw [hrun] at h
            cases h
            exact .created hfull ⟨s, hbuffer⟩ htype
          · simp only [hrun, Action.run_bind, Device.destroyBuffer, Device.free, Action.run_tell,
              Action.run_fail, Outcome.andThen_done, Outcome.andThen_failed, Outcome.after_mk,
              List.append_nil] at h
            cases h
            exact .noMapping hfull htype hmap

/-! ## Turning to another page -/

/-- How the turn to another page can end. -/
inductive Turns (d : Device σ) (p : Pool) :
    Ending StagingError Nat → Pool → List Event → Prop where
  /-- the current page cannot be flushed, so it stays -/
  | unflushed {q : Pool} {e : StagingError} {events : List Event}
      (hflush : Flushes p (.failed e) q events) : Turns d p (.failed e) q events
  | broken {q : Pool} {v : Violation} {events : List Event}
      (hflush : Flushes p (.broken v) q events) : Turns d p (.broken v) q events
  /-- the page that became writable last is used again -/
  | reused {q : Pool} {index : Nat} {events : List Event}
      (hflush : Flushes p (.done ()) q events) (hlast : q.writable.getLast? = some index) :
      Turns d p (.done index) (q.retire.dropWritable.turnTo index) events
  /-- the current page is retired, and there is no other -/
  | uncreated {q r : Pool} {e : StagingError} {flushing creating : List Event}
      (hflush : Flushes p (.done ()) q flushing) (hnone : q.writable = [])
      (hcreate : Creates d q.retire (.failed e) r creating) :
      Turns d p (.failed e) r (flushing ++ creating)
  | created {q r : Pool} {index : Nat} {flushing creating : List Event}
      (hflush : Flushes p (.done ()) q flushing) (hnone : q.writable = [])
      (hcreate : Creates d q.retire (.done index) r creating) :
      Turns d p (.done index) (r.turnTo index) (flushing ++ creating)

theorem Creates.not_broken {d : Device σ} {p q : Pool} {v : Violation} {events : List Event} :
    ¬ Creates d p (.broken v) q events := by
  intro h
  cases h

theorem turns_of_run {d : Device σ} {p q : Pool} {s s' : σ}
    {ending : Ending StagingError Nat} {events : List Event}
    (h : (turnPage d).run p s = ⟨ending, q, s', events⟩) : Turns d p ending q events := by
  simp only [turnPage, nextPage, Action.run_bind] at h
  rcases hflush : (flush d).run p s with ⟨flushed, p₁, s₁, flushing⟩
  have hflushes := flushes_of_run hflush
  rw [hflush] at h
  cases flushed with
  | failed e =>
    cases h
    exact .unflushed hflushes
  | broken v =>
    cases h
    exact .broken hflushes
  | done value =>
    simp only [Action.run_update, Action.run_subject, Outcome.andThen_done] at h
    split at h
    · next index hlast =>
      simp only [Action.run_bind, Action.run_update, Action.run_pure, Outcome.andThen_done,
        Outcome.after_mk, List.append_nil] at h
      cases h
      exact .reused hflushes hlast
    · next hlast =>
      rcases hcreate : (createPage d).run p₁.retire s₁ with ⟨created, p₂, s₂, creating⟩
      have hcreates := creates_of_run hcreate
      have hnone : p₁.writable = [] := List.getLast?_eq_none_iff.mp hlast
      rw [hcreate] at h
      cases created with
      | failed e =>
        cases h
        exact .uncreated hflushes hnone hcreates
      | broken v => exact absurd hcreates Creates.not_broken
      | done index =>
        simp only [Outcome.andThen_done, Outcome.after_mk, Action.run_pure, List.nil_append,
          List.append_nil] at h
        cases h
        exact .created hflushes hnone hcreates

/-! ## Requests -/

/-- How a request can end. -/
inductive Requests (d : Device σ) (p : Pool) (submission size alignment : Nat) :
    Ending StagingError Allocation → Pool → List Event → Prop where
  | empty (hsize : size = 0) :
      Requests d p submission size alignment (.broken .emptyRequest) p []
  | misaligned (hpower : ¬ Size.IsPowerOfTwo alignment) :
      Requests d p submission size alignment (.broken .alignmentNotPowerOfTwo) p []
  | overflow (hround : Size.roundUp? p.used alignment = none) :
      Requests d p submission size alignment (.broken .sizeOverflow) p []
  /-- the current page is no page of the pool -/
  | missing {index : Nat} (hcurrent : p.current = some index)
      (hpage : p.pages[index]? = none) :
      Requests d p submission size alignment (.broken .unknownPage) p []
  /-- the current page has bytes left -/
  | served {index offset : Nat} {page : Page} (hsize : size ≠ 0)
      (hpower : Size.IsPowerOfTwo alignment)
      (hround : Size.roundUp? p.used alignment = some offset) (hcurrent : p.current = some index)
      (hroom : offset < p.config.pageSize) (hpage : p.pages[index]? = some page) :
      Requests d p submission size alignment (.done (p.cut page size offset))
        (p.handOut index submission (offset + (p.cut page size offset).size)) []
  | unturned {q : Pool} {e : StagingError} {offset : Nat} {events : List Event}
      (hsize : size ≠ 0) (hround : Size.roundUp? p.used alignment = some offset)
      (hfull : p.current = none ∨ p.config.pageSize ≤ offset)
      (hturn : Turns d p (.failed e) q events) :
      Requests d p submission size alignment (.failed e) q events
  | broken {q : Pool} {v : Violation} {events : List Event}
      (hturn : Turns d p (.broken v) q events) :
      Requests d p submission size alignment (.broken v) q events
  /-- the page that the pool turned to is no page of the pool -/
  | lost {q : Pool} {index : Nat} {events : List Event} (hturn : Turns d p (.done index) q events)
      (hpage : q.pages[index]? = none) :
      Requests d p submission size alignment (.broken .unknownPage) q events
  /-- the bytes come from the start of another page -/
  | turned {q : Pool} {index offset : Nat} {page : Page} {events : List Event}
      (hsize : size ≠ 0) (hround : Size.roundUp? p.used alignment = some offset)
      (hfull : p.current = none ∨ p.config.pageSize ≤ offset)
      (hturn : Turns d p (.done index) q events) (hpage : q.pages[index]? = some page) :
      Requests d p submission size alignment (.done (q.cut page size 0))
        (q.handOut index submission (q.cut page size 0).size) events

/-- A request that turns to another page ends as the turn does, or is served from
the start of that page. -/
theorem requests_of_turn {d : Device σ} {p q : Pool} {s s' : σ}
    {submission size alignment offset : Nat} {ending : Ending StagingError Allocation}
    {events : List Event} (hsize : size ≠ 0)
    (hround : Size.roundUp? p.used alignment = some offset)
    (hfull : p.current = none ∨ p.config.pageSize ≤ offset)
    (h : (turnPage d >>= serve submission size 0).run p s = ⟨ending, q, s', events⟩) :
    Requests d p submission size alignment ending q events := by
  rw [Action.run_bind] at h
  rcases hturn : (turnPage d).run p s with ⟨turned, p₁, s₁, turning⟩
  have hturns := turns_of_run hturn
  rw [hturn] at h
  cases turned with
  | failed e =>
    cases h
    exact .unturned hsize hround hfull hturns
  | broken v =>
    cases h
    exact .broken hturns
  | done index =>
    simp only [serve, Action.run_bind, Action.run_subject, Outcome.andThen_done] at h
    split at h
    · next hpage =>
      simp only [Action.run_violate, Outcome.after_mk, List.append_nil] at h
      cases h
      exact .lost hturns hpage
    · next page hpage =>
      simp only [Action.run_bind, Action.run_update, Action.run_pure, Outcome.andThen_done,
        Outcome.after_mk, List.append_nil, Nat.zero_add] at h
      cases h
      exact .turned hsize hround hfull hturns hpage

theorem requests_of_run {d : Device σ} {p q : Pool} {s s' : σ} {submission size alignment : Nat}
    {ending : Ending StagingError Allocation} {events : List Event}
    (h : (request d submission size alignment).run p s = ⟨ending, q, s', events⟩) :
    Requests d p submission size alignment ending q events := by
  unfold request at h
  split at h
  · next hsize =>
    cases h
    exact .empty hsize
  · next hsize =>
    split at h
    · next hpower =>
      cases h
      exact .misaligned hpower
    · next hpower =>
      simp only [Action.run_bind, Action.run_subject, Outcome.andThen_done,
        Outcome.after_nil] at h
      split at h
      · next _ _ hround =>
        cases h
        exact .overflow hround
      · next offset index hround hcurrent =>
        split at h
        · next hroom =>
          simp only [serve, Action.run_bind, Action.run_subject, Outcome.andThen_done,
            Outcome.after_nil] at h
          split at h
          · next hpage =>
            cases h
            exact .missing hcurrent hpage
          · next page hpage =>
            cases h
            exact .served hsize (Decidable.not_not.mp hpower) hround hcurrent hroom hpage
        · next hroom => exact requests_of_turn hsize hround (Or.inr (Nat.le_of_not_lt hroom)) h
      · next offset hround hcurrent => exact requests_of_turn hsize hround (Or.inl hcurrent) h

/-! ## Giving back -/

/-- What happens when pages are given back. -/
def released (pages : List Page) : List Event :=
  pages.flatMap fun page =>
    [.call (.unmap page.memory), .call (.destroyBuffer page.buffer), .call (.free page.memory)]

theorem release_run (d : Device σ) (pages : List Page) (t : τ) (s : σ) :
    ∃ s', (release d pages : Action τ ε σ Unit).run t s = ⟨.done (), t, s', released pages⟩ := by
  induction pages generalizing s with
  | nil => exact ⟨s, rfl⟩
  | cons page rest ih =>
    obtain ⟨s', hrest⟩ := ih (d.onFree page.memory (d.onDestroyBuffer page.buffer
      (d.onUnmap page.memory s)))
    refine ⟨s', ?_⟩
    simp [release, released, Device.unmap, Device.destroyBuffer, Device.free, hrest]

theorem destroy_run (d : Device σ) (p : Pool) (s : σ) :
    ∃ s', (destroy d : Action Pool ε σ Unit).run p s =
      ⟨.done (), p.clear, s', released p.pages⟩ := by
  obtain ⟨s', hrelease⟩ := release_run (ε := ε) d p.pages p s
  exact ⟨s', by simp [destroy, hrelease]⟩

end GuestReplica.Staging.Pool
