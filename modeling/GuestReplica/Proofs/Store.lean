import GuestReplica.Proofs.Handles
import GuestReplica.Store

set_option autoImplicit false

/-!
# What the creation of a store can do

Bindings of sparse buffers, the two strategies, an attempt with one of them and the
creation of a store each end in one of a few ways.  The relations of this module say
which, with all events.  An attempt that fails ends by giving its store back; when one
succeeds, the store has the buffer of that attempt, which is live from then on.
-/

namespace GuestReplica

variable {τ ε σ α : Type} {d : Device σ}

/-! ## Bindings of sparse buffers -/

/-- How the binding of memory to a sparse buffer can end. -/
inductive SparsePath.Binds (path : SparsePath) (binding : BufferBinding) :
    Answer Unit → List Event → Prop where
  | direct {answer : Answer Unit} (hpath : path = .direct) :
      Binds path binding answer [.call (.bindSparse binding answer)]
  | noQueue (hpath : path = .queued none) : Binds path binding (.failed Code.featureNotPresent) []
  | noFence {queue : Handle} {code : Code} (hpath : path = .queued (some queue)) :
      Binds path binding (.failed code) [.call (.createFence 0 (.failed code))]
  /-- the queue refuses the binding, so there is nothing to wait for -/
  | refused {queue fence : Handle} {code : Code} (hpath : path = .queued (some queue)) :
      Binds path binding (.failed code)
        [.call (.createFence 0 (.ok fence)),
         .call (.queueBindSparse queue [binding] fence (.failed code)),
         .call (.destroyFence fence)]
  | awaited {queue fence : Handle} {answer : Answer Unit} (hpath : path = .queued (some queue)) :
      Binds path binding answer
        [.call (.createFence 0 (.ok fence)),
         .call (.queueBindSparse queue [binding] fence (.ok ())),
         .call (.waitForFences [fence] true Size.whole answer), .call (.destroyFence fence)]

theorem Device.bindMemory_run (d : Device σ) (binding : BufferBinding) (t : τ) (s : σ) :
    ∃ answer s' events,
      (d.bindMemory binding : Action τ ε σ (Answer Unit)).run t s = ⟨.done answer, t, s', events⟩ ∧
        d.sparsePath.Binds binding answer events := by
  unfold bindMemory
  split
  · next hpath => exact ⟨_, _, _, rfl, .direct hpath⟩
  · next hpath => exact ⟨_, _, _, rfl, .noQueue hpath⟩
  · next queue hpath =>
    simp only [bindOnQueue, createFence, queueBindSparse, waitForFences, destroyFence,
      Action.run_bind, Action.run_ask, Outcome.andThen_done]
    cases hfence : (d.onCreateFence 0 s).1 with
    | failed code => exact ⟨_, _, _, rfl, .noFence hpath⟩
    | ok fence =>
      simp only [Action.run_bind, Action.run_ask, Outcome.andThen_done]
      cases hsubmit : (d.onQueueBindSparse queue [binding] fence (d.onCreateFence 0 s).2).1 with
      | failed code => exact ⟨_, _, _, rfl, .refused hpath⟩
      | ok value =>
        simp only [Action.run_ask, Action.run_bind, Action.run_tell, Action.run_pure,
          Outcome.andThen_done, Outcome.after_mk, List.append_nil]
        exact ⟨_, _, _, rfl, .awaited hpath⟩

theorem SparsePath.Binds.leaveBuffers {path : SparsePath} {binding : BufferBinding}
    {answer : Answer Unit} {events : List Event} (h : path.Binds binding answer events) :
    LeaveBuffers events := by
  intro live
  cases h <;> rfl

theorem SparsePath.Binds.calls {path : SparsePath} {binding : BufferBinding} {answer : Answer Unit}
    {events : List Event} (h : path.Binds binding answer events) :
    ∀ event ∈ events, ∃ call, event = .call call := by
  cases h <;> simp

namespace Store

/-! ## Giving back -/

/-- What happens when a store is given back. -/
def destroyed (store : Store) : List Event :=
  (if store.buffer = Handle.null then [] else [.call (.destroyBuffer store.buffer)]) ++
    store.memory.map fun memory => .call (.free memory)

theorem freeAll_run (d : Device σ) (memory : List Handle) (t : τ) (s : σ) :
    ∃ s', (freeAll d memory : Action τ ε σ Unit).run t s =
      ⟨.done (), t, s', memory.map fun memory => .call (.free memory)⟩ := by
  induction memory generalizing s with
  | nil => exact ⟨s, rfl⟩
  | cons first rest ih =>
    obtain ⟨s', hrest⟩ := ih (d.onFree first s)
    exact ⟨s', by simp [freeAll, Device.free, hrest]⟩

theorem destroy_run (d : Device σ) (store : Store) (t : τ) (s : σ) :
    ∃ s', (store.destroy d : Action τ ε σ Store).run t s =
      ⟨.done { store with buffer := Handle.null, memory := [] }, t, s', store.destroyed⟩ := by
  by_cases hbuffer : store.buffer = Handle.null
  · obtain ⟨s', hfree⟩ := freeAll_run (ε := ε) d store.memory t s
    exact ⟨s', by simp [destroy, destroyed, hbuffer, hfree]⟩
  · obtain ⟨s', hfree⟩ := freeAll_run (ε := ε) d store.memory t (d.onDestroyBuffer store.buffer s)
    exact ⟨s', by simp [destroy, destroyed, hbuffer, Device.destroyBuffer, hfree]⟩

/-- A store that is given up is not handed out. -/
theorem abandon_run (d : Device σ) (store : Store) (error : CreationError) (t : τ) (s : σ) :
    ∃ s', (store.abandon d error : Action τ CreationError σ α).run t s =
      ⟨.failed error, t, s', store.destroyed⟩ := by
  obtain ⟨s', hdestroy⟩ := destroy_run (ε := CreationError) d store t s
  exact ⟨s', by simp [abandon, hdestroy]⟩

/-! ## Chunks -/

/-- How the allocation of the chunks from an offset on can end. -/
inductive Allocates (memoryType chunk total : Nat) :
    (offset : Nat) → List SparseBind → Option Code → List Event → Prop where
  | covered {offset : Nat} (hdone : ¬ (offset < total ∧ 0 < chunk)) :
      Allocates memoryType chunk total offset [] none []
  | refused {offset : Nat} {code : Code} (hmore : offset < total ∧ 0 < chunk) :
      Allocates memoryType chunk total offset [] (some code)
        [.call (.allocate (min chunk (total - offset)) memoryType (.failed code))]
  | allocated {offset : Nat} {memory : Handle} {binds : List SparseBind} {failure : Option Code}
      {events : List Event} (hmore : offset < total ∧ 0 < chunk)
      (hrest : Allocates memoryType chunk total (offset + min chunk (total - offset)) binds failure
        events) :
      Allocates memoryType chunk total offset
        (⟨offset, min chunk (total - offset), memory, 0, 0⟩ :: binds) failure
        (.call (.allocate (min chunk (total - offset)) memoryType (.ok memory)) :: events)

theorem allocateChunks_run (d : Device σ) (memoryType chunk total offset : Nat) (t : τ) (s : σ) :
    ∃ binds failure s' events,
      (allocateChunks d memoryType chunk total offset : Action τ ε σ _).run t s =
        ⟨.done (binds, failure), t, s', events⟩ ∧
      Allocates memoryType chunk total offset binds failure events := by
  -- each chunk leaves less to be covered
  fun_induction allocateChunks (τ := τ) (ε := ε) d memoryType chunk total offset
    generalizing s with
  | case1 offset hmore size ih =>
    simp only [Device.allocate, Action.run_bind, Action.run_ask, Outcome.andThen_done]
    cases hallocate : (d.onAllocate size memoryType s).1 with
    | failed code => exact ⟨_, _, _, _, rfl, .refused hmore⟩
    | ok memory =>
      obtain ⟨binds, failure, s', events, hrun, hrest⟩ := ih (d.onAllocate size memoryType s).2
      simp only [Action.run_bind, hrun, Outcome.andThen_done, Action.run_pure, Outcome.after_mk,
        List.append_nil]
      exact ⟨_, _, _, _, rfl, .allocated hmore hrest⟩
  | case2 offset hdone => exact ⟨_, _, _, _, rfl, .covered hdone⟩

theorem Allocates.leaveBuffers {memoryType chunk total offset : Nat} {binds : List SparseBind}
    {failure : Option Code} {events : List Event}
    (h : Allocates memoryType chunk total offset binds failure events) : LeaveBuffers events := by
  intro live
  induction h with
  | covered _ => rfl
  | refused _ => rfl
  | allocated _ _ ih => exact ih

theorem Allocates.calls {memoryType chunk total offset : Nat} {binds : List SparseBind}
    {failure : Option Code} {events : List Event}
    (h : Allocates memoryType chunk total offset binds failure events) :
    ∀ event ∈ events, ∃ call, event = .call call := by
  induction h with
  | covered _ => simp
  | refused _ => simp
  | allocated _ _ ih => simpa using ih

/-! ## One attempt -/

/-- The store with some memory behind its buffer. -/
def withMemory (store : Store) (memory : List Handle) : Store := { store with memory := memory }

/-- How a store without memory can get some. -/
inductive Backs (path : SparsePath) (store : Store) (needs : Requirements) :
    Ending CreationError Store → List Event → Prop where
  | unallocated {code : Code} (hstrategy : store.strategy = .plain) :
      Backs path store needs (.failed (.memoryAllocation code))
        (.call (.allocate needs.size store.memoryType (.failed code)) :: store.destroyed)
  | unbound {memory : Handle} {code : Code} (hstrategy : store.strategy = .plain) :
      Backs path store needs (.failed (.memoryBinding code))
        ([.call (.allocate needs.size store.memoryType (.ok memory)),
          .call (.bind store.buffer memory 0 (.failed code))] ++
          (store.withMemory [memory]).destroyed)
  | bound {memory : Handle} (hstrategy : store.strategy = .plain) :
      Backs path store needs (.done (store.withMemory [memory]))
        [.call (.allocate needs.size store.memoryType (.ok memory)),
         .call (.bind store.buffer memory 0 (.ok ()))]
  /-- the aligned size of a chunk is no size -/
  | overflow (hstrategy : store.strategy = .sparse)
      (hround : Size.roundUp? chunkSize (max needs.alignment 1) = none) :
      Backs path store needs (.broken .sizeOverflow) []
  | chunksUnallocated {chunk : Nat} {binds : List SparseBind} {code : Code} {events : List Event}
      (hstrategy : store.strategy = .sparse)
      (hround : Size.roundUp? chunkSize (max needs.alignment 1) = some chunk)
      (hallocates : Allocates store.memoryType chunk needs.size 0 binds (some code) events) :
      Backs path store needs (.failed (.memoryAllocation code))
        (events ++ (store.withMemory (binds.map (·.memory))).destroyed)
  | chunksUnbound {chunk : Nat} {binds : List SparseBind} {code : Code}
      {allocating binding : List Event} (hstrategy : store.strategy = .sparse)
      (hround : Size.roundUp? chunkSize (max needs.alignment 1) = some chunk)
      (hallocates : Allocates store.memoryType chunk needs.size 0 binds none allocating)
      (hbinds : path.Binds ⟨store.buffer, binds⟩ (.failed code) binding) :
      Backs path store needs (.failed (.memoryBinding code))
        (allocating ++ binding ++ (store.withMemory (binds.map (·.memory))).destroyed)
  | chunksBound {chunk : Nat} {binds : List SparseBind} {allocating binding : List Event}
      (hstrategy : store.strategy = .sparse)
      (hround : Size.roundUp? chunkSize (max needs.alignment 1) = some chunk)
      (hallocates : Allocates store.memoryType chunk needs.size 0 binds none allocating)
      (hbinds : path.Binds ⟨store.buffer, binds⟩ (.ok ()) binding) :
      Backs path store needs (.done (store.withMemory (binds.map (·.memory))))
        (allocating ++ binding)

variable {t t' : τ} {s s' : σ} {store : Store} {needs : Requirements}
variable {ending : Ending CreationError Store} {events : List Event}

theorem backs_of_backPlain (hstrategy : store.strategy = .plain)
    (h : (store.backPlain d needs).run t s = ⟨ending, t', s', events⟩) :
    Backs d.sparsePath store needs ending events ∧ t' = t := by
  simp only [backPlain, Device.allocate, Action.run_bind, Action.run_ask, Outcome.andThen_done] at h
  cases hallocate : (d.onAllocate needs.size store.memoryType s).1 with
  | failed code =>
    obtain ⟨_, habandon⟩ := abandon_run (α := Store) d store (.memoryAllocation code) t
      (d.onAllocate needs.size store.memoryType s).2
    simp only [hallocate, habandon] at h
    cases h
    exact ⟨.unallocated hstrategy, rfl⟩
  | ok memory =>
    simp only [hallocate, Device.bind, Action.run_bind, Action.run_ask, Outcome.andThen_done] at h
    generalize (d.onAllocate needs.size store.memoryType s).2 = s₁ at h
    cases hbind : (d.onBind store.buffer memory 0 s₁).1 with
    | failed code =>
      obtain ⟨_, habandon⟩ := abandon_run (α := Store) d (store.withMemory [memory])
        (.memoryBinding code) t (d.onBind store.buffer memory 0 s₁).2
      unfold withMemory at habandon
      simp only [hbind, habandon] at h
      cases h
      exact ⟨.unbound hstrategy, rfl⟩
    | ok value =>
      simp only [hbind] at h
      cases h
      exact ⟨.bound hstrategy, rfl⟩

theorem backs_of_backSparse (hstrategy : store.strategy = .sparse)
    (h : (store.backSparse d needs).run t s = ⟨ending, t', s', events⟩) :
    Backs d.sparsePath store needs ending events ∧ t' = t := by
  unfold backSparse at h
  split at h
  · next hround =>
    cases h
    exact ⟨.overflow hstrategy hround, rfl⟩
  · next chunk hround =>
    obtain ⟨binds, failure, s₁, allocating, hallocate, hallocates⟩ :=
      allocateChunks_run (ε := CreationError) d store.memoryType chunk needs.size 0 t s
    simp only [Action.run_bind, hallocate, Outcome.andThen_done] at h
    cases failure with
    | some code =>
      obtain ⟨_, habandon⟩ := abandon_run (α := Store) d
        (store.withMemory (binds.map (·.memory))) (.memoryAllocation code) t s₁
      unfold withMemory at habandon
      simp only [habandon] at h
      cases h
      exact ⟨.chunksUnallocated hstrategy hround hallocates, rfl⟩
    | none =>
      obtain ⟨answer, s₂, binding, hbind, hbinds⟩ :=
        Device.bindMemory_run (ε := CreationError) d ⟨store.buffer, binds⟩ t s₁
      simp only [Action.run_bind, hbind, Outcome.andThen_done] at h
      cases answer with
      | failed code =>
        obtain ⟨_, habandon⟩ := abandon_run (α := Store) d
          (store.withMemory (binds.map (·.memory))) (.memoryBinding code) t s₂
        unfold withMemory at habandon
        simp only [habandon, Outcome.after_mk, ← List.append_assoc] at h
        cases h
        exact ⟨.chunksUnbound hstrategy hround hallocates hbinds, rfl⟩
      | ok value =>
        simp only [Action.run_pure, Outcome.after_mk, List.append_nil] at h
        cases h
        exact ⟨.chunksBound hstrategy hround hallocates hbinds, rfl⟩

/-- How an attempt with one strategy can end. -/
inductive Attempts (path : SparsePath) (size : Nat) (deviceLocal : Mask) (strategy : Strategy) :
    Ending CreationError Store → List Event → Prop where
  | noBuffer {code : Code} :
      Attempts path size deviceLocal strategy (.failed (.bufferCreation code))
        [.call (.createBuffer (bufferInfo size strategy) (.failed code))]
  | noType {buffer : Handle} {needs : Requirements}
      (htype : MemoryTypes.choose? needs.types deviceLocal 0 = none) :
      Attempts path size deviceLocal strategy (.failed .noDeviceLocalMemoryType)
        ([.call (.createBuffer (bufferInfo size strategy) (.ok buffer)),
          .call (.requirements buffer needs)] ++
          destroyed ⟨buffer, size, [], 0, strategy⟩)
  | typed {buffer : Handle} {needs : Requirements} {memoryType : Nat}
      {ending : Ending CreationError Store} {events : List Event}
      (htype : MemoryTypes.choose? needs.types deviceLocal 0 = some memoryType)
      (hbacks : Backs path ⟨buffer, size, [], memoryType, strategy⟩ needs ending events) :
      Attempts path size deviceLocal strategy ending
        ([.call (.createBuffer (bufferInfo size strategy) (.ok buffer)),
          .call (.requirements buffer needs)] ++ events)

variable {size : Nat} {deviceLocal : Mask} {strategy : Strategy} {strategies : List Strategy}
variable {path : SparsePath} {failure : CreationError}

theorem attempts_of_run
    (h : (createWith d size strategy deviceLocal).run t s = ⟨ending, t', s', events⟩) :
    Attempts d.sparsePath size deviceLocal strategy ending events ∧ t' = t := by
  simp only [createWith, Device.createBuffer, Action.run_bind, Action.run_ask,
    Outcome.andThen_done] at h
  cases hcreate : (d.onCreateBuffer (bufferInfo size strategy) s).1 with
  | failed code =>
    rw [hcreate] at h
    cases h
    exact ⟨.noBuffer, rfl⟩
  | ok buffer =>
    simp only [hcreate, Action.accept_ok, Action.run_pure, Outcome.andThen_done,
      Device.requirements, Action.run_ask] at h
    generalize (d.onCreateBuffer (bufferInfo size strategy) s).2 = s₁ at h
    generalize (d.onRequirements buffer s₁).1 = needs at h
    generalize (d.onRequirements buffer s₁).2 = s₂ at h
    split at h
    · next htype =>
      obtain ⟨_, habandon⟩ := abandon_run (α := Store) d ⟨buffer, size, [], 0, strategy⟩
        .noDeviceLocalMemoryType t s₂
      rw [habandon] at h
      cases h
      exact ⟨.noType htype, rfl⟩
    · next memoryType htype =>
      cases strategy with
      | plain =>
        rcases hback : (backPlain d ⟨buffer, size, [], memoryType, .plain⟩ needs).run t s₂ with
          ⟨_, _, _, backing⟩
        obtain ⟨hbacks, rfl⟩ := backs_of_backPlain rfl hback
        rw [hback] at h
        cases h
        exact ⟨.typed htype hbacks, rfl⟩
      | sparse =>
        rcases hback : (backSparse d ⟨buffer, size, [], memoryType, .sparse⟩ needs).run t s₂ with
          ⟨_, _, _, backing⟩
        obtain ⟨hbacks, rfl⟩ := backs_of_backSparse rfl hback
        rw [hback] at h
        cases h
        exact ⟨.typed htype hbacks, rfl⟩

/-! ## The first strategy that works -/

/-- How the creation of a store with one of some strategies can end. -/
inductive Creates (path : SparsePath) (size : Nat) (deviceLocal : Mask) :
    List Strategy → CreationError → Ending CreationError Store → List Event → Prop where
  | exhausted (failure : CreationError) :
      Creates path size deviceLocal [] failure (.failed failure) []
  | created {strategy : Strategy} {rest : List Strategy} {failure : CreationError} {store : Store}
      {events : List Event}
      (hattempt : Attempts path size deviceLocal strategy (.done store) events) :
      Creates path size deviceLocal (strategy :: rest) failure (.done store)
        (events ++ [.notice (.bufferCreated size strategy store.memoryType)])
  | broken {strategy : Strategy} {rest : List Strategy} {failure : CreationError} {v : Violation}
      {events : List Event}
      (hattempt : Attempts path size deviceLocal strategy (.broken v) events) :
      Creates path size deviceLocal (strategy :: rest) failure (.broken v) events
  /-- the next strategy is tried -/
  | failed {strategy : Strategy} {rest : List Strategy} {failure cause : CreationError}
      {ending : Ending CreationError Store} {events later : List Event}
      (hattempt : Attempts path size deviceLocal strategy (.failed cause) events)
      (hrest : Creates path size deviceLocal rest cause ending later) :
      Creates path size deviceLocal (strategy :: rest) failure ending
        (events ++ .notice (.strategyFailed strategy cause) :: later)

theorem creates_of_run
    (h : (createFrom d size deviceLocal strategies failure).run t s = ⟨ending, t', s', events⟩) :
    Creates d.sparsePath size deviceLocal strategies failure ending events ∧ t' = t := by
  induction strategies generalizing failure t s events with
  | nil =>
    cases h
    exact ⟨.exhausted failure, rfl⟩
  | cons strategy rest ih =>
    simp only [createFrom, Action.run_bind, Action.run_attempt] at h
    rcases hwith : (createWith d size strategy deviceLocal : Action τ CreationError σ Store).run t s
      with ⟨attempt, t₁, s₁, earlier⟩
    obtain ⟨hattempt, rfl⟩ := attempts_of_run hwith
    rw [hwith] at h
    cases attempt with
    | done store =>
      cases h
      exact ⟨.created hattempt, rfl⟩
    | broken v =>
      cases h
      exact ⟨.broken hattempt, rfl⟩
    | failed cause =>
      simp only [Outcome.caught_failed, Outcome.andThen_done, Action.run_bind, Action.run_emit] at h
      rcases hnext : (createFrom d size deviceLocal rest cause : Action τ CreationError σ Store).run
        t₁ s₁ with ⟨last, t₂, s₂, later⟩
      rw [hnext] at h
      cases h
      obtain ⟨hrest, rfl⟩ := ih hnext
      exact ⟨.failed hattempt hrest, rfl⟩

/-! ## The buffer -/

/-- A store that got memory has the buffer that it had before, and no other buffer was
touched. -/
theorem Backs.keeps_buffer {created : Store} (h : Backs path store needs (.done created) events) :
    created.buffer = store.buffer ∧ LeaveBuffers events := by
  cases h with
  | bound _ => exact ⟨rfl, fun _ => rfl⟩
  | chunksBound _ _ hallocates hbinds =>
    exact ⟨rfl, hallocates.leaveBuffers.append hbinds.leaveBuffers⟩

/-- The store of an attempt that succeeds has a live buffer. -/
theorem Attempts.live (h : Attempts path size deviceLocal strategy (.done store) events)
    (live : List Handle) : store.buffer ∈ liveBuffers live events := by
  cases h with
  | typed _ hbacks =>
    obtain ⟨hbuffer, hleaves⟩ := hbacks.keeps_buffer
    rw [hbuffer, liveBuffers_append, hleaves]
    exact List.mem_cons_self

/-- So does the store of the first strategy that works. -/
theorem Creates.live (h : Creates path size deviceLocal strategies failure (.done store) events)
    (live : List Handle) : store.buffer ∈ liveBuffers live events := by
  generalize hending : Ending.done store = ending at h
  induction h generalizing live with
  | exhausted _ => cases hending
  | created hattempt =>
    cases hending
    rw [liveBuffers_append]
    exact hattempt.live live
  | broken _ => cases hending
  | failed _ _ ih =>
    rw [liveBuffers_append]
    exact ih _ hending

end Store

end GuestReplica
