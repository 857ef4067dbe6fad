import GuestReplica.Proofs.Staging.Flushing
import GuestReplica.Proofs.Staging.Objects
import GuestReplica.Proofs.Staging.Places

set_option autoImplicit false

/-!
# What a failed request leaves

A request fails because the current page cannot be flushed, or because no other page can
be had.  In the first case nothing has changed, so that a later flush flushes the same
bytes.  In the second case the current page was flushed and retired, and it is not taken
back.  Either way, the pages are the same, and all that was created for another page is
given back.
-/

namespace GuestReplica.Staging.Pool

open Ledger

variable {σ : Type} {d : Device σ} {p q : Pool} {events : List Event}

/-! ## Objects that are given back -/

/-- The objects that are live after some events are those that were live before, and so
are the pages of the pool, those that are writable, and how much is handed out of the
current one. -/
structure GivesBack (p q : Pool) (events : List Event) : Prop where
  live_eq : ∀ o : Ledger, (o.noteAll events).live = o.live
  pages_eq : q.pages = p.pages
  writable_eq : q.writable = p.writable
  used_eq : q.used = p.used

theorem GivesBack.refl (p : Pool) : GivesBack p p [] := ⟨fun _ => rfl, rfl, rfl, rfl⟩

theorem GivesBack.retire (h : GivesBack p q events) : GivesBack p q.retire events :=
  ⟨h.live_eq, h.pages_eq, h.writable_eq, h.used_eq⟩

theorem GivesBack.trans {r : Pool} {more : List Event} (h : GivesBack p q events)
    (hmore : GivesBack q r more) : GivesBack p r (events ++ more) := by
  refine ⟨fun o => ?_, hmore.pages_eq.trans h.pages_eq, hmore.writable_eq.trans h.writable_eq,
    hmore.used_eq.trans h.used_eq⟩
  rw [noteAll_append, hmore.live_eq, h.live_eq]

theorem Flushes.givesBack {ending : Ending StagingError Unit} (h : Flushes p ending q events) :
    GivesBack p q events := by
  cases h <;> exact ⟨fun _ => rfl, rfl, rfl, rfl⟩

/-- An attempt to create a page that fails changes nothing. -/
theorem Creates.eq_of_failed {e : StagingError} (h : Creates d p (.failed e) q events) : q = p := by
  cases h <;> rfl

/-- Whatever it has created until then is destroyed again. -/
theorem Creates.givesBack {e : StagingError} (h : Creates d p (.failed e) q events) :
    GivesBack p q events := by
  obtain rfl := h.eq_of_failed
  refine ⟨fun o => ?_, rfl, rfl, rfl⟩
  cases h with
  | full _ => rfl
  | noBuffer _ => rfl
  | noType _ _ => simp [note]
  | noMemory _ _ => simp [note]
  | noMapping _ _ hmap => cases hmap <;> simp [note]

/-! ## The current page -/

theorem retire_of_current_eq_none (hcurrent : p.current = none) : p.retire = p := by
  obtain ⟨config, pages, submitted, writable, current, used, flushed⟩ := p
  obtain rfl : current = none := hcurrent
  simp [retire]

theorem Valid.current_eq_none (hp : p.Valid) (h : p.currentPage? = none) : p.current = none := by
  cases hcurrent : p.current with
  | none => rfl
  | some index =>
    obtain ⟨page, hpage⟩ := hp.exists_page hcurrent
    rw [currentPage?, hcurrent, Option.bind_some, hpage] at h
    cases h

/-- The current page, if any, is flushed as far as it is handed out, and waits for its
submission behind all others. -/
structure Retires (p q : Pool) : Prop where
  eq_of_current_eq_none : p.current = none → q = p
  eq_of_current_eq_some : ∀ {index}, p.current = some index →
    q = { p with current := none, submitted := p.submitted ++ [index], flushed := p.used }

theorem retires_markFlushed {index : Nat} (hcurrent : p.current = some index) :
    Retires p p.markFlushed.retire := by
  refine ⟨fun hnone => ?_, fun {other} hother => ?_⟩
  · cases hcurrent.symm.trans hnone
  · simp [retire, markFlushed, hother]

/-- This is so when a flush has succeeded and the current page is retired. -/
theorem Flushes.retires (h : Flushes p (.done ()) q events) (hp : p.Valid) :
    Retires p q.retire := by
  cases h with
  | idle hnone =>
    have hcurrent := hp.current_eq_none hnone
    refine ⟨fun _ => retire_of_current_eq_none hcurrent, fun {index} hindex => ?_⟩
    cases hcurrent.symm.trans hindex
  | clean hpage _ =>
    obtain ⟨index, hcurrent, _⟩ := Option.bind_eq_some_iff.mp hpage
    exact retires_markFlushed hcurrent
  | flushed hpage _ _ =>
    obtain ⟨index, hcurrent, _⟩ := Option.bind_eq_some_iff.mp hpage
    exact retires_markFlushed hcurrent

/-! ## Flushes that the device refuses -/

/-- The device was asked to flush some ranges, and did not. -/
def Refused (events : List Event) (ranges : List MappedRange) : Prop :=
  ∃ code, .call (.flush ranges (.failed code)) ∈ events

/-- A flush of dirty bytes makes one call, for their range, or it is stopped because the range
ends at no size. -/
theorem Flushes.asks_or_stops {ending : Ending StagingError Unit} {page : Page}
    (h : Flushes p ending q events) (hpage : p.currentPage? = some page)
    (hdirty : p.IsDirty page) :
    (∃ range answer, p.dirtyRange? page = some range ∧ ending.Returns ∧
        events = [.call (.flush [range] answer)]) ∨
      p.dirtyRange? page = none ∧ ending = .broken .sizeOverflow ∧ q = p ∧ events = [] := by
  cases h with
  | idle hnone => cases hpage.symm.trans hnone
  | clean hother hclean =>
    cases hpage.symm.trans hother
    exact absurd hdirty hclean
  | flushed hother _ hrange =>
    cases hpage.symm.trans hother
    exact .inl ⟨_, _, hrange, Ending.returns_done (), rfl⟩
  | refused hother _ hrange =>
    cases hpage.symm.trans hother
    exact .inl ⟨_, _, hrange, Ending.returns_failed _, rfl⟩
  | overflow hother _ hrange =>
    cases hpage.symm.trans hother
    exact .inr ⟨hrange, rfl, rfl, rfl⟩

/-- What a flush asks for is determined by the pool, whatever the device answers. -/
theorem Flushes.asks {ending : Ending StagingError Unit} {page : Page} {range : MappedRange}
    (h : Flushes p ending q events) (hpage : p.currentPage? = some page)
    (hdirty : p.IsDirty page) (hrange : p.dirtyRange? page = some range) :
    ∃ answer, events = [.call (.flush [range] answer)] := by
  rcases h.asks_or_stops hpage hdirty with ⟨_, answer, hasked, _, hevents⟩ | ⟨hnone, _⟩
  · cases hrange.symm.trans hasked
    exact ⟨answer, hevents⟩
  · cases hrange.symm.trans hnone

/-- Where there are no dirty bytes, nothing is flushed. -/
theorem Flushes.of_clean {ending : Ending StagingError Unit} (h : Flushes p ending q events)
    (hclean : ∀ page, p.currentPage? = some page → ¬ p.IsDirty page) :
    ending = .done () ∧ events = [] := by
  cases h with
  | idle _ => exact ⟨rfl, rfl⟩
  | clean _ _ => exact ⟨rfl, rfl⟩
  | flushed hpage hdirty _ => exact absurd hdirty (hclean _ hpage)
  | refused hpage hdirty _ => exact absurd hdirty (hclean _ hpage)
  | overflow hpage hdirty _ => exact absurd hdirty (hclean _ hpage)

/-- The bytes of the current page that were to be flushed are still to be flushed: the
next flush asks for the same ranges, and the bytes are flushed before the page is left. -/
structure StillOwes (d : Device σ) (q : Pool) (ranges : List MappedRange) : Prop where
  current : ∃ index page, q.current = some index ∧ q.pages[index]? = some page ∧
    ∀ {later : List PoolStep} {r s s'}, Runs (Use.action d) q s later r s' →
      (r.current ≠ some index ∨ ∃ step ∈ later, step.use = .flush ∧ step.answer = .done none) →
      ∀ x, q.flushed ≤ x → x < q.used →
        Flushed (eventsOf later) page.memory q.config.pageSize x
  asks : ∀ s : σ, ∃ answer, ((flush d).run q s).events = [.call (.flush ranges answer)]

/-- A flush fails because the device refuses it, and then nothing has changed. -/
theorem Flushes.stillOwes {e : StagingError} (h : Flushes p (.failed e) q events)
    (hp : p.Valid) :
    q = p ∧ ∃ ranges code, e = .device code ∧ events = [.call (.flush ranges (.failed code))] ∧
      StillOwes d q ranges := by
  cases h with
  | @refused page range code hpage hdirty hrange =>
    refine ⟨rfl, [range], code, rfl, rfl, ?_, fun s => ?_⟩
    · obtain ⟨index, hcurrent, hindex⟩ := Option.bind_eq_some_iff.mp hpage
      refine ⟨index, page, hcurrent, hindex, fun hrun hdone x hflushed hused => ?_⟩
      have howes : p.Owes index page.memory x :=
        ⟨hcurrent, ⟨page, hindex, rfl, hdirty.1⟩, hflushed, hused⟩
      exact flushed_of_runs hrun howes hp (Nat.le_refl _) hdone
    · exact (flushes_of_run (Outcome.eta _)).asks hpage hdirty hrange

/-! ## Requests -/

/-- A request that fails either could not flush the current page, or could not create
another page after the current one was retired. -/
theorem Requests.stillOwes_or_retires {submission size alignment : Nat} {e : StagingError}
    (h : Requests d p submission size alignment (.failed e) q events) (hp : p.Valid) :
    GivesBack p q events ∧
      ((q = p ∧ ∃ ranges code, e = .device code ∧
          events = [.call (.flush ranges (.failed code))] ∧ StillOwes d q ranges) ∨
        ((∀ ranges, ¬ Refused events ranges) ∧ Retires p q ∧
          ∀ {index memory x}, p.Owes index memory x →
            Flushed events memory p.config.pageSize x)) := by
  cases h with
  | unturned _ _ _ hturn =>
    cases hturn with
    | unflushed hflush => exact ⟨hflush.givesBack, .inl (hflush.stillOwes hp)⟩
    | @uncreated r _ _ flushing creating hflush _ hcreate =>
      refine ⟨hflush.givesBack.retire.trans hcreate.givesBack, .inr ⟨?_, ?_, ?_⟩⟩
      · rintro ranges ⟨code, hmem⟩
        rcases List.mem_append.mp hmem with hmem | hmem
        · cases hflush <;> simp at hmem
        · exact hcreate.flush_not_mem hmem
      · rw [hcreate.eq_of_failed]
        exact hflush.retires hp
      · intro index memory x howes
        exact (hflush.flushed_of_owes howes hp (Nat.le_refl _)).append_right _

/-- Whatever the owner of a pool has done with it, and however the device answers, a
request that fails leaves the same live objects, the same pages, and as much handed out of
them.  If the current page could not be flushed, then nothing has changed, and a later
flush covers the same bytes.  If it was another step that failed, then the current page
is flushed and retired, and nothing else has changed. -/
theorem failed_request_retires_at_most {config : Config} {p₀ : Pool} {s₀ s s' : σ}
    {steps : List (Step OwnerUse StagingError (Option Allocation))}
    {submission size alignment : Nat} {e : StagingError} (hnew : new config = .ok p₀)
    (hrun : Runs (OwnerUse.action d) p₀ s₀ steps p s)
    (hfailed : (request d submission size alignment).run p s = ⟨.failed e, q, s', events⟩) :
    GivesBack p q events ∧
      (∀ ranges, Refused events ranges →
        q = p ∧ StillOwes d q ranges ∧
          ∃ code, e = .device code ∧ events = [.call (.flush ranges (.failed code))]) ∧
      ((∀ ranges, ¬ Refused events ranges) → Retires p q ∧
        ∀ {index memory x}, p.Owes index memory x →
          Flushed events memory p.config.pageSize x) := by
  obtain ⟨_, _, rfl⟩ := new_eq_ok_iff.mp hnew
  have hp := (keeps_of_ownerRuns hrun (valid_of_new hnew) (bounded_ofConfig config)).1
  obtain ⟨hback, hcases⟩ := (requests_of_run hfailed).stillOwes_or_retires hp
  refine ⟨hback, ?_, ?_⟩
  · rintro ranges ⟨code, hmem⟩
    rcases hcases with ⟨hsame, ranges', code', herror, rfl, howes⟩ | ⟨hnone, _⟩
    · cases List.mem_singleton.mp hmem
      exact ⟨hsame, howes, code, herror, rfl⟩
    · exact absurd ⟨code, hmem⟩ (hnone ranges)
  · intro hnone
    rcases hcases with ⟨_, ranges, code, _, rfl, _⟩ | ⟨_, hretires⟩
    · exact absurd ⟨code, List.mem_singleton_self _⟩ (hnone ranges)
    · exact hretires

/-- A device that refuses one flush. -/
def refusesOnce : Simulated.State :=
  (Simulated.State.new {}).addFault .flush 1 1 Code.initializationFailed

/-- The owner of a pool with a single page does some things. -/
def afterUses (uses : List OwnerUse) :
    List (Step OwnerUse StagingError (Option Allocation)) × Pool × Simulated.State :=
  play (OwnerUse.action (Simulated.device .direct)) (ofConfig incoherentPage) refusesOnce uses

/-- The page is used up. -/
def usedUp : List OwnerUse := [.client (.request 1 16 1)]

/-- Another request, which finds no room. -/
def requestMore (uses : List OwnerUse) : Outcome Pool StagingError Simulated.State Allocation :=
  (request (Simulated.device .direct) 2 4 1).run (afterUses uses).2.1 (afterUses uses).2.2

/-- The first of two such requests fails because the page is not flushed, so the second one
flushes the same bytes, retires the page, and fails because there is no other. -/
theorem failed_request_retires_at_most_twice :
    (requestMore usedUp).subject = (afterUses usedUp).2.1 ∧
      StillOwes (Simulated.device .direct) (requestMore usedUp).subject [⟨2, 0, Size.whole⟩] ∧
      Retires (afterUses (usedUp ++ [.client (.request 2 4 1)])).2.1
        (requestMore (usedUp ++ [.client (.request 2 4 1)])).subject := by
  have hnew : new incoherentPage = .ok (ofConfig incoherentPage) := rfl
  have hruns := runs_play (OwnerUse.action (Simulated.device .direct)) (ofConfig incoherentPage)
    refusesOnce
  have hfirst : requestMore usedUp = ⟨.failed (.device Code.initializationFailed),
      (requestMore usedUp).subject, (requestMore usedUp).device,
      [.call (.flush [⟨2, 0, Size.whole⟩] (.failed Code.initializationFailed))]⟩ := by
    rw [Outcome.mk.injEq]
    exact ⟨by decide, rfl, rfl, by decide⟩
  have hsecond : requestMore (usedUp ++ [.client (.request 2 4 1)]) = ⟨.failed .outOfPages,
      (requestMore (usedUp ++ [.client (.request 2 4 1)])).subject,
      (requestMore (usedUp ++ [.client (.request 2 4 1)])).device,
      [.call (.flush [⟨2, 0, Size.whole⟩] (.ok ()))]⟩ := by
    rw [Outcome.mk.injEq]
    exact ⟨by decide, rfl, rfl, by decide⟩
  obtain ⟨_, hrefused, _⟩ := failed_request_retires_at_most hnew (hruns _) hfirst
  obtain ⟨_, _, hretires⟩ := failed_request_retires_at_most hnew (hruns _) hsecond
  obtain ⟨hsame, howes, _⟩ := hrefused _ ⟨_, List.mem_singleton_self _⟩
  exact ⟨hsame, howes, (hretires (by simp [Refused])).1⟩

end GuestReplica.Staging.Pool
