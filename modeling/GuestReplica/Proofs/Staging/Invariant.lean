import Mathlib.Data.List.Perm.Subperm
import GuestReplica.Proofs.Handles
import GuestReplica.Proofs.Staging.Steps

set_option autoImplicit false

/-!
# What every staging pool keeps

A pool is valid when each of its pages is in exactly one place, and when no more
than a page is handed out of the current one.  All operations keep this, however
they end.  The buffers of the pages are live buffers: what an operation adds to
the pages of a pool, its events add to the live buffers.
-/

namespace GuestReplica.Staging.Pool

variable {σ : Type} {d : Device σ} {p q : Pool} {events : List Event}

/-! ## Validity -/

/-- The places of a pool, with the pages that are there. -/
def places (p : Pool) : List Nat := p.submitted ++ p.writable ++ p.current.toList

/-- Each page is in one place, and the current page is handed out up to `used`,
of which `flushed` bytes are known to be visible to the device. -/
structure Valid (p : Pool) : Prop where
  pageSize_pos : 0 < p.config.pageSize
  flushUnit_pos : 0 < p.config.flushUnit
  places_perm : p.places.Perm (List.range p.pages.length)
  flushed_le_used : p.flushed ≤ p.used
  used_le_pageSize : p.used ≤ p.config.pageSize

theorem valid_of_new {config : Config} (h : new config = .ok p) : p.Valid := by
  obtain ⟨hpage, hunit, rfl⟩ := new_eq_ok_iff.mp h
  exact ⟨Nat.pos_of_ne_zero hpage, Nat.pos_of_ne_zero hunit, List.Perm.refl _, Nat.le_refl _,
    Nat.zero_le _⟩

/-- An index that is in some place names a page. -/
theorem Valid.lt_length (hp : p.Valid) {index : Nat} (h : index ∈ p.places) :
    index < p.pages.length :=
  List.mem_range.mp (hp.places_perm.mem_iff.mp h)

theorem Valid.current_lt (hp : p.Valid) {index : Nat} (h : p.current = some index) :
    index < p.pages.length :=
  hp.lt_length (by simp [places, h])

/-- No page is in two places. -/
theorem Valid.nodup_places (hp : p.Valid) : p.places.Nodup :=
  hp.places_perm.nodup_iff.mpr List.nodup_range

/-- The current page is a page of the pool. -/
theorem Valid.exists_page (hp : p.Valid) {index : Nat} (h : p.current = some index) :
    ∃ page, p.pages[index]? = some page :=
  ⟨_, List.getElem?_eq_getElem (hp.current_lt h)⟩

/-! ## Steps without a device -/

theorem places_retire (p : Pool) : p.retire.places.Perm p.places := by
  simp only [places, retire, Option.toList_none, List.append_nil, List.append_assoc]
  exact List.Perm.append_left _ List.perm_append_comm

theorem places_reclaim (completed : Nat) (p : Pool) :
    (p.reclaim completed).places.Perm p.places := by
  rw [List.perm_iff_count]
  intro index
  have hsplit := congrArg (List.count index) (submitted_reclaim_append_writable completed p)
  simp only [places, reclaim, List.count_append] at hsplit ⊢
  omega

/-- Turning to the last writable page moves it out of the writable ones. -/
theorem places_reuse {index : Nat} (hcurrent : p.current = none)
    (hlast : p.writable.getLast? = some index) :
    (p.dropWritable.turnTo index).places.Perm p.places := by
  rw [List.perm_iff_count]
  intro other
  have hsplit := congrArg (List.count other) (List.dropLast_append_getLast? index hlast)
  simp only [places, dropWritable, turnTo, hcurrent, Option.toList_none, Option.toList_some,
    List.count_append, List.count_nil] at hsplit ⊢
  omega

theorem Valid.markFlushed (hp : p.Valid) : p.markFlushed.Valid :=
  ⟨hp.pageSize_pos, hp.flushUnit_pos, hp.places_perm, Nat.le_refl _, hp.used_le_pageSize⟩

theorem Valid.retire (hp : p.Valid) : p.retire.Valid :=
  ⟨hp.pageSize_pos, hp.flushUnit_pos, (places_retire p).trans hp.places_perm, hp.flushed_le_used,
    hp.used_le_pageSize⟩

theorem Valid.reclaim (hp : p.Valid) (completed : Nat) : (p.reclaim completed).Valid :=
  ⟨hp.pageSize_pos, hp.flushUnit_pos, (places_reclaim completed p).trans hp.places_perm,
    hp.flushed_le_used, hp.used_le_pageSize⟩

theorem Valid.reuse (hp : p.Valid) {index : Nat} (hcurrent : p.current = none)
    (hlast : p.writable.getLast? = some index) : (p.dropWritable.turnTo index).Valid :=
  ⟨hp.pageSize_pos, hp.flushUnit_pos, (places_reuse hcurrent hlast).trans hp.places_perm,
    Nat.le_refl _, Nat.zero_le _⟩

/-- A page that is added to a pool without a current page becomes the current one. -/
theorem Valid.create (hp : p.Valid) (page : Page) (hcurrent : p.current = none) :
    ((p.addPage page).turnTo p.pages.length).Valid := by
  refine ⟨hp.pageSize_pos, hp.flushUnit_pos, ?_, Nat.le_refl _, Nat.zero_le _⟩
  have hplaces : ((p.addPage page).turnTo p.pages.length).places =
      p.places ++ [p.pages.length] := by
    simp [places, addPage, turnTo, hcurrent]
  have hlength : ((p.addPage page).turnTo p.pages.length).pages.length = p.pages.length + 1 := by
    simp [addPage, turnTo]
  rw [hplaces, hlength, List.range_succ]
  exact hp.places_perm.append_right _

/-- Handing out up to `used` keeps a pool valid as long as nothing is taken back and
the page has that many bytes. -/
theorem Valid.handOut (hp : p.Valid) {index submission used : Nat} (hle : p.used ≤ used)
    (hpage : used ≤ p.config.pageSize) : (p.handOut index submission used).Valid := by
  refine ⟨hp.pageSize_pos, hp.flushUnit_pos, ?_, Nat.le_trans hp.flushed_le_used hle, hpage⟩
  rw [length_pages_handOut]
  exact hp.places_perm

/-- The end of an allocation that starts in a page lies in the page. -/
theorem add_size_cut_le (page : Page) (size : Nat) {offset : Nat}
    (hroom : offset ≤ p.config.pageSize) :
    offset + (p.cut page size offset).size ≤ p.config.pageSize := by
  simp only [cut]
  omega

/-! ## Operations keep validity -/

theorem Flushes.valid {ending : Ending StagingError Unit} (h : Flushes p ending q events)
    (hp : p.Valid) : q.Valid := by
  cases h with
  | idle _ => exact hp
  | clean _ _ => exact hp.markFlushed
  | flushed _ _ _ => exact hp.markFlushed
  | refused _ _ _ => exact hp
  | overflow _ _ _ => exact hp

theorem Turns.valid {ending : Ending StagingError Nat} (h : Turns d p ending q events)
    (hp : p.Valid) : q.Valid := by
  cases h with
  | unflushed hflush => exact hflush.valid hp
  | broken hflush => exact hflush.valid hp
  | reused hflush hlast => exact (hflush.valid hp).retire.reuse rfl hlast
  | uncreated hflush _ hcreate => cases hcreate <;> exact (hflush.valid hp).retire
  | created hflush _ hcreate =>
    cases hcreate with
    | created _ _ _ => exact (hflush.valid hp).retire.create _ rfl

/-- A turn that succeeds ends with an untouched current page. -/
theorem Turns.turned {index : Nat} (h : Turns d p (.done index) q events) :
    q.current = some index ∧ q.used = 0 ∧ q.flushed = 0 := by
  cases h with
  | reused _ _ => exact ⟨rfl, rfl, rfl⟩
  | created _ _ _ => exact ⟨rfl, rfl, rfl⟩

theorem Requests.valid {submission size alignment : Nat} {ending : Ending StagingError Allocation}
    (h : Requests d p submission size alignment ending q events) (hp : p.Valid) : q.Valid := by
  cases h with
  | empty _ => exact hp
  | misaligned _ => exact hp
  | overflow _ => exact hp
  | missing _ _ => exact hp
  | served _ hpower hround _ hroom _ =>
    obtain ⟨_, rfl⟩ := Size.roundUp?_eq_some_iff.mp hround
    refine hp.handOut ?_ (add_size_cut_le _ _ (Nat.le_of_lt hroom))
    exact Nat.le_trans (Size.le_roundUp p.used hpower.pos) (Nat.le_add_right _ _)
  | unturned _ _ _ hturn => exact hturn.valid hp
  | broken hturn => exact hturn.valid hp
  | lost hturn _ => exact hturn.valid hp
  | turned _ _ _ hturn _ =>
    obtain ⟨_, hused, _⟩ := hturn.turned
    apply (hturn.valid hp).handOut (by omega)
    simpa using add_size_cut_le _ _ (Nat.zero_le _)

/-! ## The configuration stays -/

theorem Flushes.config_eq {ending : Ending StagingError Unit} (h : Flushes p ending q events) :
    q.config = p.config := by
  cases h <;> rfl

theorem Creates.config_eq {ending : Ending StagingError Nat} (h : Creates d p ending q events) :
    q.config = p.config := by
  cases h <;> rfl

theorem Turns.config_eq {ending : Ending StagingError Nat} (h : Turns d p ending q events) :
    q.config = p.config := by
  cases h with
  | unflushed hflush => exact hflush.config_eq
  | broken hflush => exact hflush.config_eq
  | reused hflush _ => exact hflush.config_eq
  | uncreated hflush _ hcreate => exact hcreate.config_eq.trans hflush.config_eq
  | created hflush _ hcreate => exact hcreate.config_eq.trans hflush.config_eq

theorem Requests.config_eq {submission size alignment : Nat}
    {ending : Ending StagingError Allocation}
    (h : Requests d p submission size alignment ending q events) : q.config = p.config := by
  cases h with
  | empty _ => rfl
  | misaligned _ => rfl
  | overflow _ => rfl
  | missing _ _ => rfl
  | served _ _ _ _ _ _ => rfl
  | unturned _ _ _ hturn => exact hturn.config_eq
  | broken hturn => exact hturn.config_eq
  | lost hturn _ => exact hturn.config_eq
  | turned _ _ _ hturn _ => exact hturn.config_eq

/-! ## Events are calls -/

theorem Flushes.calls {ending : Ending StagingError Unit} (h : Flushes p ending q events) :
    ∀ event ∈ events, ∃ call, event = .call call := by
  cases h <;> simp

theorem Unmapped.calls {buffer memory : Handle} {code : Code}
    (h : Unmapped buffer memory code events) : ∀ event ∈ events, ∃ call, event = .call call := by
  cases h <;> simp

theorem Creates.calls {ending : Ending StagingError Nat} (h : Creates d p ending q events) :
    ∀ event ∈ events, ∃ call, event = .call call := by
  cases h with
  | noMapping _ _ hmap =>
    have hcalls := hmap.calls
    intro event hmem
    simp only [List.mem_append] at hmem
    rcases hmem with (hmem | hmem) | hmem
    · revert event
      simp
    · exact hcalls event hmem
    · revert event
      simp
  | _ => simp [mappedEvents]

theorem Turns.calls {ending : Ending StagingError Nat} (h : Turns d p ending q events) :
    ∀ event ∈ events, ∃ call, event = .call call := by
  cases h with
  | unflushed hflush => exact hflush.calls
  | broken hflush => exact hflush.calls
  | reused hflush _ => exact hflush.calls
  | uncreated hflush _ hcreate =>
    intro event hmem
    exact (List.mem_append.mp hmem).elim (hflush.calls event) (hcreate.calls event)
  | created hflush _ hcreate =>
    intro event hmem
    exact (List.mem_append.mp hmem).elim (hflush.calls event) (hcreate.calls event)

/-- All that a request does beside changing the pool is to call the device. -/
theorem Requests.calls {submission size alignment : Nat} {ending : Ending StagingError Allocation}
    (h : Requests d p submission size alignment ending q events) :
    ∀ event ∈ events, ∃ call, event = .call call := by
  cases h with
  | empty _ => simp
  | misaligned _ => simp
  | overflow _ => simp
  | missing _ _ => simp
  | served _ _ _ _ _ _ => simp
  | unturned _ _ _ hturn => exact hturn.calls
  | broken hturn => exact hturn.calls
  | lost hturn _ => exact hturn.calls
  | turned _ _ _ hturn _ => exact hturn.calls

/-! ## Buffers of the pages -/

/-- The buffers of the pages, in the order in which the pages were created. -/
def buffers (p : Pool) : List Handle := p.pages.map (·.buffer)

@[simp] theorem buffers_addPage (page : Page) (p : Pool) :
    (p.addPage page).buffers = p.buffers ++ [page.buffer] := by
  simp [buffers, addPage]

@[simp] theorem buffers_turnTo (index : Nat) (p : Pool) : (p.turnTo index).buffers = p.buffers :=
  rfl

@[simp] theorem buffers_reclaim (completed : Nat) (p : Pool) :
    (p.reclaim completed).buffers = p.buffers := rfl

/-- Only the last submission of a page changes when bytes of it are handed out. -/
theorem map_pages_handOut {α : Type} {f : Page → α} {submission : Nat}
    (hf : ∀ page, f { page with lastSubmission := submission } = f page) (index used : Nat)
    (p : Pool) : (p.handOut index submission used).pages.map f = p.pages.map f := by
  apply List.ext_getElem?
  intro i
  simp only [handOut, List.getElem?_map, List.getElem?_modify]
  cases p.pages[i]? with
  | none => rfl
  | some page => by_cases h : index = i <;> simp [h, hf]

@[simp] theorem buffers_handOut (index submission used : Nat) (p : Pool) :
    (p.handOut index submission used).buffers = p.buffers :=
  map_pages_handOut (fun _ => rfl) index used p

/-- The pages that a pool gains are those whose buffers the events leave live. -/
def Gains (p q : Pool) (events : List Event) : Prop :=
  ∃ gained, q.buffers = p.buffers ++ gained ∧
    ∀ live, (liveBuffers live events).Perm (gained ++ live)

/-- Events that leave the buffers alone add no page. -/
theorem gains_of_leaveBuffers (hbuffers : q.buffers = p.buffers) (hlive : LeaveBuffers events) :
    Gains p q events := by
  refine ⟨[], by simpa using hbuffers, ?_⟩
  intro live
  rw [hlive]
  exact List.Perm.refl live

theorem Gains.refl (p : Pool) : Gains p p [] := gains_of_leaveBuffers rfl leaveBuffers_nil

theorem Gains.trans {r : Pool} {first second : List Event} (hpq : Gains p q first)
    (hqr : Gains q r second) : Gains p r (first ++ second) := by
  obtain ⟨gained, hbuffers, hlive⟩ := hpq
  obtain ⟨gained', hbuffers', hlive'⟩ := hqr
  refine ⟨gained ++ gained', by rw [hbuffers', hbuffers, List.append_assoc], ?_⟩
  intro live
  rw [liveBuffers_append]
  calc (liveBuffers (liveBuffers live first) second).Perm (gained' ++ liveBuffers live first) :=
        hlive' _
    _ |>.Perm (gained' ++ (gained ++ live)) := (hlive live).append_left _
    _ |>.Perm (gained ++ gained' ++ live) := by
      rw [← List.append_assoc]
      exact List.perm_append_comm.append_right _

theorem Gains.subset (h : Gains p q events) : p.buffers ⊆ q.buffers := by
  obtain ⟨gained, hbuffers, _⟩ := h
  rw [hbuffers]
  exact List.subset_append_left _ _

/-- Where the buffers of the pages, and some others, are live buffers, they are still
so after the pool has gained pages. -/
theorem Gains.subperm {held live : List Handle} (h : Gains p q events)
    (hlive : (held ++ p.buffers).Subperm live) :
    (held ++ q.buffers).Subperm (liveBuffers live events) := by
  obtain ⟨gained, hbuffers, hperm⟩ := h
  rw [hbuffers, ← List.append_assoc]
  refine List.Subperm.trans ?_ (hperm live).symm.subperm
  exact (List.perm_append_comm.subperm).trans ((List.subperm_append_left gained).mpr hlive)

/-- Where the pages have distinct buffers, which are not a certain one, they had so
before the pool gained pages. -/
theorem Gains.nodup {buffer : Handle} (h : Gains p q events)
    (hnodup : (buffer :: q.buffers).Nodup) : (buffer :: p.buffers).Nodup := by
  obtain ⟨gained, hbuffers, _⟩ := h
  rw [hbuffers, ← List.cons_append] at hnodup
  exact (List.nodup_append.mp hnodup).1

/-- A pool that has only gained pages since it was new has a buffer of its own for
each of them. -/
theorem nodup_buffers_of_new {config : Config} (hnew : new config = .ok p)
    (h : Gains p q events) (hlive : (liveBuffers [] events).Nodup) : q.buffers.Nodup := by
  obtain ⟨_, _, rfl⟩ := new_eq_ok_iff.mp hnew
  have hfresh : ([] ++ (ofConfig config).buffers).Subperm [] := List.Subperm.refl []
  obtain ⟨l, hperm, hsub⟩ := h.subperm hfresh
  exact hperm.nodup_iff.mp (hlive.sublist hsub)

theorem Flushes.gains {ending : Ending StagingError Unit} (h : Flushes p ending q events) :
    Gains p q events := by
  cases h <;> exact gains_of_leaveBuffers rfl fun _ => rfl

theorem Unmapped.leaveBuffers {buffer memory : Handle} {code : Code}
    (h : Unmapped buffer memory code events) : LeaveBuffers events := by
  intro live
  cases h <;> rfl

/-- A page that is not completed does not leave its buffer live. -/
theorem Creates.gains {ending : Ending StagingError Nat} (h : Creates d p ending q events) :
    Gains p q events := by
  cases h with
  | full _ => exact .refl p
  | noBuffer _ => exact gains_of_leaveBuffers rfl fun _ => rfl
  | noType _ _ =>
    apply gains_of_leaveBuffers rfl
    intro live
    simp [Event.liveBuffers]
  | noMemory _ _ =>
    apply gains_of_leaveBuffers rfl
    intro live
    simp [Event.liveBuffers]
  | noMapping _ _ hmap =>
    apply gains_of_leaveBuffers rfl
    intro live
    simp [Event.liveBuffers, hmap.leaveBuffers _]
  | @created buffer memory needs memoryType _ _ _ =>
    refine ⟨[buffer], buffers_addPage _ _, fun live => ?_⟩
    simp [Event.liveBuffers, mappedEvents]

theorem Turns.gains {ending : Ending StagingError Nat} (h : Turns d p ending q events) :
    Gains p q events := by
  cases h with
  | unflushed hflush => exact hflush.gains
  | broken hflush => exact hflush.gains
  | reused hflush _ => exact hflush.gains
  | uncreated hflush _ hcreate => exact hflush.gains.trans hcreate.gains
  | created hflush _ hcreate => exact hflush.gains.trans hcreate.gains

theorem Requests.gains {submission size alignment : Nat} {ending : Ending StagingError Allocation}
    (h : Requests d p submission size alignment ending q events) : Gains p q events := by
  cases h with
  | empty _ => exact .refl p
  | misaligned _ => exact .refl p
  | overflow _ => exact .refl p
  | missing _ _ => exact .refl p
  | served _ _ _ _ _ _ =>
    exact gains_of_leaveBuffers (buffers_handOut _ _ _ _) leaveBuffers_nil
  | unturned _ _ _ hturn => exact hturn.gains
  | broken hturn => exact hturn.gains
  | lost hturn _ => exact hturn.gains
  | turned _ _ _ hturn _ =>
    obtain ⟨gained, hbuffers, hlive⟩ := hturn.gains
    exact ⟨gained, by rw [buffers_handOut, hbuffers], hlive⟩

end GuestReplica.Staging.Pool
