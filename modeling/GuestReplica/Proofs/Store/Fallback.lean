import GuestReplica.Proofs.Store.Backing

set_option autoImplicit false

/-!
# One strategy after the other

The creation of a store is a run of attempts.  They follow the order of the strategies, and
the first one that succeeds is the last one that is made.  Each attempt starts with the live
objects that there were before the creation, since one that fails gives all that it has
created back, and what it reports is the failure of its only failing call.  A creation that
fails hands back what the last attempt reports.
-/

namespace GuestReplica

/-- What a creation reports of a call that fails. -/
def Call.cause? : Call → Option CreationError
  | .createBuffer _ (.failed code) => some (.bufferCreation code)
  | .allocate _ _ (.failed code) => some (.memoryAllocation code)
  | .bind _ _ _ (.failed code) | .bindSparse _ (.failed code) | .createFence _ (.failed code)
  | .queueBindSparse _ _ _ (.failed code) | .waitForFences _ _ _ (.failed code) =>
    some (.memoryBinding code)
  | _ => none

namespace Store

variable {τ σ : Type} {d : Device σ} {o : Ledger} {others : List Object}

/-! ## What an attempt reports -/

/-- What a creation reports of the calls that fail, in order. -/
def causesOf (events : List Event) : List CreationError :=
  (callsOf events).filterMap Call.cause?

@[simp] theorem causesOf_append (a b : List Event) : causesOf (a ++ b) = causesOf a ++ causesOf b := by
  rw [causesOf, callsOf_append, List.filterMap_append]
  rfl

@[simp] theorem causesOf_destroyed (store : Store) : causesOf store.destroyed = [] := by
  have hfreed : causesOf (store.memory.map fun memory => .call (.free memory)) = [] := by
    induction store.memory with
    | nil => rfl
    | cons memory rest ih => exact ih
  rw [destroyed, causesOf_append, hfreed]
  split <;> rfl

variable {path : SparsePath} {events : List Event}

/-- A binding fails with its only failing call, or because there is no queue for it. -/
theorem causesOf_binding_failed {binding : BufferBinding} {code : Code}
    (h : path.Binds binding (.failed code) events) :
    causesOf events = [.memoryBinding code] ∨
      causesOf events = [] ∧ path = .queued none ∧ code = Code.featureNotPresent := by
  cases h with
  | noQueue hpath => exact .inr ⟨rfl, hpath, rfl⟩
  | _ => exact .inl rfl

theorem Allocates.causesOf_eq {memoryType chunk total offset : Nat} {binds : List SparseBind}
    {failure : Option Code} (h : Allocates memoryType chunk total offset binds failure events) :
    causesOf events = failure.toList.map .memoryAllocation := by
  induction h with
  | covered _ => rfl
  | refused _ => rfl
  | allocated _ _ ih => exact ih

/-- What is reported is the failure of the only failing call.  Where no call failed, no memory
type will do, or bindings need a queue and there is none. -/
inductive Blames (path : SparsePath) (deviceLocal : Mask) : CreationError → List Event → Prop where
  | call {cause : CreationError} {events : List Event} (hcause : causesOf events = [cause]) :
      Blames path deviceLocal cause events
  | noType {buffer : Handle} {needs : Requirements} {events : List Event}
      (hcause : causesOf events = []) (hasked : .requirements buffer needs ∈ callsOf events)
      (htype : ∀ i, needs.types.getLsbD i = true → deviceLocal.getLsbD i = false) :
      Blames path deviceLocal .noDeviceLocalMemoryType events
  | noQueue {events : List Event} (hcause : causesOf events = []) (hpath : path = .queued none) :
      Blames path deviceLocal (.memoryBinding Code.featureNotPresent) events

variable {store : Store} {needs : Requirements} {size : Nat} {deviceLocal : Mask}
variable {strategy : Strategy} {cause : CreationError}

theorem Backs.blames (h : Backs path store needs (.failed cause) events) :
    causesOf events = [cause] ∨
      causesOf events = [] ∧ path = .queued none ∧ cause = .memoryBinding Code.featureNotPresent := by
  cases h with
  | @unallocated code _ =>
    have hcauses := causesOf_append [.call (.allocate needs.size store.memoryType (.failed code))]
      store.destroyed
    rw [causesOf_destroyed] at hcauses
    exact .inl hcauses
  | unbound _ =>
    rw [causesOf_append, causesOf_destroyed]
    exact .inl rfl
  | chunksUnallocated _ _ hallocates =>
    rw [causesOf_append, causesOf_destroyed, hallocates.causesOf_eq]
    exact .inl rfl
  | chunksUnbound _ _ hallocates hbinds =>
    rw [causesOf_append, causesOf_append, causesOf_destroyed, hallocates.causesOf_eq,
      List.append_nil]
    rcases causesOf_binding_failed hbinds with hcause | ⟨hcause, hpath, rfl⟩
    · exact .inl hcause
    · exact .inr ⟨hcause, hpath, rfl⟩

/-- An attempt that fails reports why. -/
theorem Attempts.blames (h : Attempts path size deviceLocal strategy (.failed cause) events) :
    Blames path deviceLocal cause events := by
  cases h with
  | noBuffer => exact .call rfl
  | @noType buffer needs htype =>
    have hasked : .requirements buffer needs ∈ callsOf
        ([.call (.createBuffer (bufferInfo size strategy) (.ok buffer)),
          .call (.requirements buffer needs)] ++ destroyed ⟨buffer, size, [], 0, strategy⟩) :=
      List.mem_cons_of_mem _ List.mem_cons_self
    refine .noType ?_ hasked (MemoryTypes.choose?_eq_none_iff.mp htype)
    rw [causesOf_append, causesOf_destroyed]
    rfl
  | typed _ hbacks =>
    rcases hbacks.blames with hcause | ⟨hcause, hpath, rfl⟩
    · exact .call hcause
    · exact .noQueue hcause hpath

/-! ## The attempts of a creation -/

/-- An attempt with one strategy. -/
abbrev Attempt : Type := Step Strategy CreationError Store

/-- What a log is told of an attempt. -/
def verdict (size : Nat) (attempt : Attempt) : List Event :=
  match attempt.answer with
  | .done store => [.notice (.bufferCreated size attempt.use store.memoryType)]
  | .failed cause => [.notice (.strategyFailed attempt.use cause)]
  | .broken _ => []

/-- What happens in some attempts, with what is told of them. -/
def told (size : Nat) (attempts : List Attempt) : List Event :=
  attempts.flatMap fun attempt => attempt.events ++ verdict size attempt

@[simp] theorem told_nil (size : Nat) : told size [] = [] := rfl

@[simp] theorem told_cons (size : Nat) (attempt : Attempt) (rest : List Attempt) :
    told size (attempt :: rest) = attempt.events ++ verdict size attempt ++ told size rest := rfl

@[simp] theorem told_append (size : Nat) (a b : List Attempt) :
    told size (a ++ b) = told size a ++ told size b :=
  List.flatMap_append

/-- The attempt failed. -/
def Fails (attempt : Attempt) : Prop := ∃ cause, attempt.answer = .failed cause

/-- The attempts follow the order of the strategies up to the first one that does not fail.
The ending is that of the last attempt; without any attempt, there is a failure for it. -/
structure FirstThatWorks (strategies : List Strategy) (failure : CreationError)
    (attempts : List Attempt) (ending : Ending CreationError Store) : Prop where
  uses_prefix : attempts.map (·.use) <+: strategies
  fails : ∀ attempt ∈ attempts.dropLast, Fails attempt
  ending_eq : ending = (attempts.getLast?.map (·.answer)).getD (.failed failure)
  uses_eq : ∀ cause, ending = .failed cause → attempts.map (·.use) = strategies

variable {strategies : List Strategy} {failure : CreationError}
variable {ending : Ending CreationError Store}

/-- The first attempt works, or stops. -/
theorem FirstThatWorks.single (rest : List Strategy) (attempt : Attempt) (hworks : ¬ Fails attempt) :
    FirstThatWorks (attempt.use :: rest) failure [attempt] attempt.answer :=
  ⟨⟨rest, rfl⟩, by simp, rfl, fun cause hcause => absurd ⟨cause, hcause⟩ hworks⟩

/-- The first attempt fails. -/
theorem FirstThatWorks.cons {attempts : List Attempt} (strategy : Strategy)
    (earlier : List Event)
    (h : FirstThatWorks strategies cause attempts ending) :
    FirstThatWorks (strategy :: strategies) failure
      (⟨strategy, .failed cause, earlier⟩ :: attempts) ending where
  uses_prefix := List.prefix_cons_inj strategy |>.mpr h.uses_prefix
  fails := by
    cases hrest : attempts with
    | nil => simp
    | cons next rest =>
      intro attempt hmem
      rw [List.dropLast_cons_cons] at hmem
      rcases List.mem_cons.mp hmem with rfl | hmem
      · exact ⟨cause, rfl⟩
      · exact h.fails attempt (hrest ▸ hmem)
  ending_eq := by
    rw [h.ending_eq, List.getLast?_cons]
    cases attempts.getLast? <;> rfl
  uses_eq last hlast := by rw [List.map_cons, h.uses_eq last hlast]

variable {t t' : τ} {s s' : σ}

/-- A creation is a run of attempts. -/
theorem exists_attempts
    (h : (createFrom d size deviceLocal strategies failure).run t s = ⟨ending, t', s', events⟩) :
    ∃ attempts, Runs (fun strategy => createWith d size strategy deviceLocal) t s attempts t' s' ∧
      events = told size attempts ∧ FirstThatWorks strategies failure attempts ending := by
  induction strategies generalizing failure t s events with
  | nil =>
    cases h
    exact ⟨[], .nil _ _, rfl, ⟨⟨[], rfl⟩, by simp, rfl, fun _ _ => rfl⟩⟩
  | cons strategy rest ih =>
    simp only [createFrom, Action.run_bind, Action.run_attempt] at h
    rcases hwith : (createWith d size strategy deviceLocal : Action τ CreationError σ Store).run t s
      with ⟨answer, t₁, s₁, earlier⟩
    rw [hwith] at h
    cases answer with
    | done store =>
      cases h
      refine ⟨[⟨strategy, .done store, earlier⟩], .cons hwith (.nil _ _), by simp [verdict], ?_⟩
      exact .single rest ⟨strategy, .done store, earlier⟩ (by rintro ⟨_, ⟨⟩⟩)
    | broken v =>
      cases h
      refine ⟨[⟨strategy, .broken v, earlier⟩], .cons hwith (.nil _ _), by simp [verdict], ?_⟩
      exact .single rest ⟨strategy, .broken v, earlier⟩ (by rintro ⟨_, ⟨⟩⟩)
    | failed cause =>
      simp only [Outcome.caught_failed, Outcome.andThen_done, Action.run_bind, Action.run_emit] at h
      rcases hnext : (createFrom d size deviceLocal rest cause : Action τ CreationError σ Store).run
        t₁ s₁ with ⟨last, t₂, s₂, later⟩
      rw [hnext] at h
      cases h
      obtain ⟨attempts, hruns, rfl, hworks⟩ := ih hnext
      exact ⟨⟨strategy, .failed cause, earlier⟩ :: attempts, .cons hwith hruns,
        by simp [verdict], hworks.cons strategy earlier⟩

/-! ## What the attempts leave -/

variable {attempts : List Attempt}

/-- An attempt of a run is one that can be made. -/
theorem attempts_of_mem
    (h : Runs (fun strategy => createWith d size strategy deviceLocal) t s attempts t' s')
    {attempt : Attempt} (hmem : attempt ∈ attempts) :
    Attempts d.sparsePath size deviceLocal attempt.use attempt.answer attempt.events := by
  obtain ⟨before, after, rfl⟩ := List.append_of_mem hmem
  obtain ⟨_, _, _, hfrom⟩ := h.split
  obtain ⟨_, _, hattempt, _⟩ := hfrom.uncons
  exact (attempts_of_run hattempt).1

/-- Attempts that fail leave the live objects that there were. -/
theorem holds_of_fails
    (h : Runs (fun strategy => createWith d size strategy deviceLocal) t s attempts t' s')
    (hfails : ∀ attempt ∈ attempts, Fails attempt) (ho : o.Holds others)
    (hfresh : o.Fresh (told size attempts)) : (o.noteAll (told size attempts)).Holds others := by
  induction h generalizing o with
  | nil _ _ => exact ho
  | @cons _ _ _ _ _ _ strategy _ earlier rest hattempt _ ih =>
    obtain ⟨cause, rfl⟩ := hfails _ List.mem_cons_self
    rw [told_cons] at hfresh ⊢
    obtain ⟨hfirst, hrest⟩ := Ledger.fresh_append.mp hfresh
    obtain ⟨hleads, _⟩ := (attempts_of_run hattempt).1.leads ho (Ledger.fresh_append.mp hfirst).1
      (Ending.returns_failed cause)
    rw [Ledger.noteAll_append]
    exact ih (fun attempt hmem => hfails attempt (List.mem_cons_of_mem _ hmem))
      (ho.after hfirst (hleads.notice (.strategyFailed strategy cause))) hrest

/-- An attempt that works adds its store. -/
theorem perm_of_done {last : Attempt}
    (h : Runs (fun strategy => createWith d size strategy deviceLocal) t s [last] t' s')
    (hdone : last.answer = .done store) (ho : o.Holds others) (hfresh : o.Fresh (told size [last])) :
    (o.noteAll (told size [last])).live.Perm (store.objects ++ others) := by
  have hattempt := attempts_of_mem h List.mem_cons_self
  rw [hdone] at hattempt
  rw [told_cons, told_nil, List.append_nil, verdict, hdone] at hfresh ⊢
  obtain ⟨hleads, _⟩ := hattempt.leads ho (Ledger.fresh_append.mp hfresh).1
    (Ending.returns_done store)
  exact (hleads.notice _).perm

/-- Before each attempt, the live objects are those that there were before the first one. -/
theorem holds_before_attempt {before after : List Attempt} {attempt : Attempt}
    (h : Runs (fun strategy => createWith d size strategy deviceLocal) t s
      (before ++ attempt :: after) t' s')
    (hworks : FirstThatWorks strategies failure (before ++ attempt :: after) ending)
    (ho : o.Holds others) (hfresh : o.Fresh (told size (before ++ attempt :: after))) :
    (o.noteAll (told size before)).Holds others := by
  obtain ⟨_, _, hbefore, _⟩ := h.split
  rw [told_append] at hfresh
  refine holds_of_fails hbefore (fun other hmem => hworks.fails other ?_) ho
    (Ledger.fresh_append.mp hfresh).1
  rw [List.dropLast_append_of_ne_nil (List.cons_ne_nil _ _)]
  exact List.mem_append_left _ hmem

/-- What some attempts come to, and what they leave besides the objects that there were. -/
inductive Settles (size : Nat) (o : Ledger) (others : List Object) (attempts : List Attempt) :
    Ending CreationError Store → Prop where
  /-- the last attempt succeeded, and left its store -/
  | created {store : Store} {last : Attempt} (hlast : attempts.getLast? = some last)
      (hanswer : last.answer = .done store) (hstrategy : store.strategy = last.use)
      (hleft : (o.noteAll (told size attempts)).live.Perm (store.objects ++ others)) :
      Settles size o others attempts (.done store)
  /-- no attempt succeeded, and nothing is left -/
  | exhausted {cause : CreationError} (hfails : ∀ attempt ∈ attempts, Fails attempt)
      (hleft : (o.noteAll (told size attempts)).live.Perm others) :
      Settles size o others attempts (.failed cause)
  /-- the alignment that was reported leaves no room for a chunk -/
  | stopped {last : Attempt} {buffer : Handle} {needs : Requirements}
      (hlast : attempts.getLast? = some last) (hsparse : last.use = .sparse)
      (hevents : last.events = opening size .sparse buffer needs)
      (hlarge : Size.limit ≤ chunkSize + max needs.alignment 1) :
      Settles size o others attempts (.broken .sizeOverflow)

/-- The last attempt decides, if there is one. -/
theorem settles_of_runs
    (h : Runs (fun strategy => createWith d size strategy deviceLocal) t s attempts t' s')
    (hworks : FirstThatWorks strategies failure attempts ending) (ho : o.Holds others)
    (hfresh : o.Fresh (told size attempts)) : Settles size o others attempts ending := by
  have hending := hworks.ending_eq
  rcases List.eq_nil_or_concat' attempts with rfl | ⟨before, last, rfl⟩
  · rw [hending]
    exact .exhausted (by simp) ho.perm
  rw [List.getLast?_concat, Option.map_some, Option.getD_some] at hending
  have hholds := holds_before_attempt h hworks ho hfresh
  obtain ⟨_, _, _, hlast⟩ := h.split
  have hattempt := attempts_of_mem hlast List.mem_cons_self
  cases hanswer : last.answer with
  | done store =>
    rw [hanswer] at hattempt hending
    rw [hending]
    rw [told_append] at hfresh
    refine .created (by simp) hanswer hattempt.fullyBacks.2.1 ?_
    rw [told_append, Ledger.noteAll_append]
    exact perm_of_done hlast hanswer hholds (Ledger.fresh_append.mp hfresh).2
  | failed cause =>
    rw [hanswer] at hending
    have hfails : ∀ attempt ∈ before ++ [last], Fails attempt := by
      intro attempt hmem
      rcases List.mem_append.mp hmem with hmem | hmem
      · exact hworks.fails attempt (by rwa [List.dropLast_concat])
      · rw [List.mem_singleton.mp hmem]
        exact ⟨cause, hanswer⟩
    rw [hending]
    exact .exhausted hfails (holds_of_fails h hfails ho hfresh).perm
  | broken v =>
    rw [hanswer] at hattempt hending
    obtain ⟨rfl, hsparse, buffer, needs, hevents, hlarge⟩ := hattempt.overflow
    rw [hsparse] at hevents
    rw [hending]
    exact .stopped (by simp) hsparse hevents hlarge

/-- Fallback is clean and ordered.  A creation makes attempts in the order of the strategies
until one succeeds, and hands back what the last one reports.  The live objects at the start
of each attempt are those that there were before the creation.  A creation that succeeds adds
the buffer and the memory of its store, whose strategy is that of the last attempt; one that
fails adds nothing, and has tried all strategies.  What an attempt reports is the failure of
its only failing call, if it has one.  A creation is stopped by a reported alignment that
leaves no room for a chunk, and by nothing else. -/
theorem create_falls_back (ho : o.Holds others)
    (h : (create d size strategies deviceLocal).run t s = ⟨ending, t', s', events⟩)
    (hfresh : o.Fresh events) :
    ∃ attempts, Runs (fun strategy => createWith d size strategy deviceLocal) t s attempts t' s' ∧
      events = told size attempts ∧
      FirstThatWorks strategies (.bufferCreation Code.initializationFailed) attempts ending ∧
      (∀ before attempt after, attempts = before ++ attempt :: after →
        (o.noteAll (told size before)).live.Perm others) ∧
      (∀ attempt ∈ attempts, ∀ cause, attempt.answer = .failed cause →
        Blames d.sparsePath deviceLocal cause attempt.events) ∧
      Settles size o others attempts ending := by
  obtain ⟨attempts, hruns, rfl, hworks⟩ := exists_attempts h
  refine ⟨attempts, hruns, rfl, hworks, ?_, ?_, settles_of_runs hruns hworks ho hfresh⟩
  · rintro before attempt after rfl
    exact (holds_before_attempt hruns hworks ho hfresh).perm
  · intro attempt hmem cause hfailed
    have hattempt := attempts_of_mem hruns hmem
    rw [hfailed] at hattempt
    exact hattempt.blames

/-! ## A creation that falls back -/

/-- A device that fails the second allocation. -/
def stingyDevice : Simulated.State := (Simulated.State.new {}).addFault .allocate 2 1 (-2)

/-- The second chunk is refused, so the chunks are given up for a single allocation. -/
def stingyCreation : Outcome Unit CreationError Simulated.State Store :=
  (create (Simulated.device .direct) (9 <<< 20) [.sparse, .plain] 1).run () stingyDevice

theorem create_falls_back_stingy :
    ∃ attempts, Runs (fun strategy => createWith (Simulated.device .direct) (9 <<< 20) strategy 1) ()
        stingyDevice attempts () stingyCreation.device ∧
      stingyCreation.events = told (9 <<< 20) attempts ∧
      attempts.map (·.use) = [.sparse, .plain] ∧
      (∀ attempt ∈ attempts, ∀ cause, attempt.answer = .failed cause →
        Blames .direct 1 cause attempt.events) ∧
      (Ledger.empty.noteAll stingyCreation.events).live.Perm [.buffer 3, .memory 4 3 false] := by
  have hending : stingyCreation.ending = .done ⟨3, 9 <<< 20, [4], 0, .plain⟩ := by decide +kernel
  obtain ⟨attempts, hruns, hevents, hworks, _, hblames, hlast⟩ :=
    create_falls_back Ledger.holds_empty (Outcome.eta stingyCreation) (by decide +kernel)
  rw [hending] at hlast
  cases hlast with
  | @created _ last hget _ hplain hleft =>
    rw [← hevents] at hleft
    refine ⟨attempts, hruns, hevents, ?_, hblames, hleft⟩
    -- a single attempt would have been made with the other strategy
    have hprefix := hworks.uses_prefix
    rcases attempts with _ | ⟨first, _ | ⟨second, rest⟩⟩
    · cases hget
    · obtain rfl : first = last := by simpa using hget
      obtain ⟨_, hcons⟩ := hprefix
      rw [List.map_cons, ← hplain] at hcons
      cases hcons
    · exact hprefix.eq_of_length_le (by simp)

end Store

end GuestReplica
