import GuestReplica.Device.Simulated
import GuestReplica.Proofs.Staging.Allocations
import GuestReplica.Proofs.Staging.Backing

set_option autoImplicit false

/-!
# What is handed out is flushed

Bytes of memory that is not coherent are *owed* to the device from their allocation on:
they lie in the current page, in the part that is handed out, and behind the part that
is known to be flushed.  A step keeps a byte owed, unless it flushes the byte.  A page
is only left, and a flush only succeeds, when all that is owed is flushed.
-/

namespace GuestReplica

/-- The end of a range of memory of some length. -/
def MappedRange.stop (range : MappedRange) (length : Nat) : Nat :=
  if range.size = Size.whole then length else range.offset + range.size

/-- Some events flush a byte of memory of some length, and succeed. -/
def Flushed (events : List Event) (memory : Handle) (length x : Nat) : Prop :=
  ∃ ranges, .call (.flush ranges (.ok ())) ∈ events ∧
    ∃ range ∈ ranges, range.memory = memory ∧ range.offset ≤ x ∧ x < range.stop length

section

variable {events more : List Event} {memory : Handle} {length x : Nat}

theorem Flushed.append_left (h : Flushed events memory length x) (more : List Event) :
    Flushed (more ++ events) memory length x := by
  obtain ⟨ranges, hmem, hrange⟩ := h
  exact ⟨ranges, List.mem_append_right more hmem, hrange⟩

theorem Flushed.append_right (h : Flushed events memory length x) (more : List Event) :
    Flushed (events ++ more) memory length x := by
  obtain ⟨ranges, hmem, hrange⟩ := h
  exact ⟨ranges, List.mem_append_left more hmem, hrange⟩

end

namespace Staging.Pool

variable {σ : Type} {d : Device σ} {p q : Pool} {events : List Event}
variable {index next length x : Nat} {memory : Handle}

/-! ## What a flush flushes -/

/-- From the first byte that is not known to be flushed to the last one that is handed
out. -/
theorem dirtyRange_covers {page : Page} {range : MappedRange} (hp : p.Valid)
    (h : p.dirtyRange? page = some range) (hlength : p.config.pageSize ≤ length) :
    range.memory = page.memory ∧ range.offset ≤ p.flushed ∧ p.used ≤ range.stop length := by
  obtain ⟨stop, hround, rfl⟩ := Option.map_eq_some_iff.mp h
  obtain ⟨_, rfl⟩ := Size.roundUp?_eq_some_iff.mp hround
  have hstart := Size.roundDown_le p.flushed p.config.flushUnit
  have hstop := Size.le_roundUp p.used hp.flushUnit_pos
  have hflushed := hp.flushed_le_used
  refine ⟨rfl, hstart, ?_⟩
  have hend : p.used ≤ length := Nat.le_trans hp.used_le_pageSize hlength
  by_cases hpage : p.config.pageSize ≤ Size.roundUp p.used p.config.flushUnit
  · rw [if_pos hpage, MappedRange.stop, if_pos rfl]
    exact hend
  · rw [if_neg hpage, MappedRange.stop]
    split
    · exact hend
    · simp only
      omega

/-! ## Which pages are flushed -/

variable {ranges : List MappedRange} {answer : Answer Unit}

/-- Some ranges are of the memory of the current page, and that is not coherent. -/
def OnDirtyPage (p : Pool) (ranges : List MappedRange) : Prop :=
  ∃ page, p.currentPage? = some page ∧ page.coherent = false ∧
    ∀ range ∈ ranges, range.memory = page.memory

/-- Some ranges are the one that has to be flushed. -/
def MustFlush (p : Pool) (ranges : List MappedRange) : Prop :=
  ∃ page range, p.currentPage? = some page ∧ p.IsDirty page ∧ p.dirtyRange? page = some range ∧
    ranges = [range]

/-- Only the current page must be flushed, and only if it is not coherent. -/
theorem MustFlush.onDirtyPage (h : p.MustFlush ranges) : p.OnDirtyPage ranges := by
  obtain ⟨page, range, hpage, hdirty, hrange, rfl⟩ := h
  obtain ⟨_, _, rfl⟩ := Option.map_eq_some_iff.mp hrange
  exact ⟨page, hpage, hdirty.1, by simp⟩

/-- Only what must be flushed is flushed. -/
theorem Flushes.mustFlush {ending : Ending StagingError Unit} (h : Flushes p ending q events)
    (hmem : .call (.flush ranges answer) ∈ events) : p.MustFlush ranges := by
  cases h with
  | idle _ => cases hmem
  | clean _ _ => cases hmem
  | flushed hpage hdirty hrange =>
    cases List.mem_singleton.mp hmem
    exact ⟨_, _, hpage, hdirty, hrange, rfl⟩
  | refused hpage hdirty hrange =>
    cases List.mem_singleton.mp hmem
    exact ⟨_, _, hpage, hdirty, hrange, rfl⟩
  | overflow _ _ _ => cases hmem

/-- The creation of a page flushes nothing. -/
theorem Creates.flush_not_mem {ending : Ending StagingError Nat} (h : Creates d p ending q events) :
    .call (.flush ranges answer) ∉ events := by
  cases h with
  | noMapping _ _ hmap => cases hmap <;> simp
  | _ => simp [mappedEvents]

theorem Turns.mustFlush {ending : Ending StagingError Nat} (h : Turns d p ending q events)
    (hmem : .call (.flush ranges answer) ∈ events) : p.MustFlush ranges := by
  cases h with
  | unflushed hflush => exact hflush.mustFlush hmem
  | broken hflush => exact hflush.mustFlush hmem
  | reused hflush _ => exact hflush.mustFlush hmem
  | uncreated hflush _ hcreate =>
    exact hflush.mustFlush ((List.mem_append.mp hmem).resolve_right hcreate.flush_not_mem)
  | created hflush _ hcreate =>
    exact hflush.mustFlush ((List.mem_append.mp hmem).resolve_right hcreate.flush_not_mem)

theorem Requests.mustFlush {submission size alignment : Nat}
    {ending : Ending StagingError Allocation}
    (h : Requests d p submission size alignment ending q events)
    (hmem : .call (.flush ranges answer) ∈ events) : p.MustFlush ranges := by
  cases h with
  | empty _ => cases hmem
  | misaligned _ => cases hmem
  | overflow _ => cases hmem
  | missing _ _ => cases hmem
  | served _ _ _ _ _ _ => cases hmem
  | unturned _ _ _ hturn => exact hturn.mustFlush hmem
  | broken hturn => exact hturn.mustFlush hmem
  | lost hturn _ => exact hturn.mustFlush hmem
  | turned _ _ _ hturn _ => exact hturn.mustFlush hmem

theorem Performs.mustFlush {use : Use} {answered : Ending StagingError (Option Allocation)}
    (h : Performs d p use answered q events) (hmem : .call (.flush ranges answer) ∈ events) :
    p.MustFlush ranges := by
  cases h with
  | allocated hrequest => exact hrequest.mustFlush hmem
  | unserved hrequest => exact hrequest.mustFlush hmem
  | stopped hrequest => exact hrequest.mustFlush hmem
  | reclaimed _ => cases hmem
  | flushed hflush => exact hflush.mustFlush hmem
  | unflushed hflush => exact hflush.mustFlush hmem
  | overflow hflush => exact hflush.mustFlush hmem

/-! ## Owed bytes -/

/-- A byte of the current page, which is not coherent, is handed out, but not known to
be flushed. -/
structure Owes (p : Pool) (index : Nat) (memory : Handle) (x : Nat) : Prop where
  current_eq : p.current = some index
  page : ∃ page, p.pages[index]? = some page ∧ page.memory = memory ∧ page.coherent = false
  flushed_le : p.flushed ≤ x
  lt_used : x < p.used

/-- A flush that succeeds flushes what is owed. -/
theorem Flushes.flushed_of_owes (h : Flushes p (.done ()) q events) (howes : p.Owes index memory x)
    (hp : p.Valid) (hlength : p.config.pageSize ≤ length) : Flushed events memory length x := by
  obtain ⟨hcurrent, ⟨page, hpage, hmemory, hcoherent⟩, hflushed, hused⟩ := howes
  have hpage' : p.currentPage? = some page := by
    rw [currentPage?, hcurrent]
    exact hpage
  cases h with
  | idle hnone =>
    rw [hpage'] at hnone
    cases hnone
  | clean hother hdirty =>
    rw [hpage'] at hother
    cases hother
    exact absurd ⟨hcoherent, Nat.lt_of_le_of_lt hflushed hused⟩ hdirty
  | @flushed _ range hother _ hrange =>
    rw [hpage'] at hother
    cases hother
    obtain ⟨hof, hstart, hstop⟩ := dirtyRange_covers hp hrange hlength
    refine ⟨[range], List.mem_singleton_self _, range, List.mem_singleton_self _, ?_, ?_, ?_⟩
    · exact hof.trans hmemory
    · exact Nat.le_trans hstart hflushed
    · exact Nat.lt_of_lt_of_le hused hstop

/-- A flush flushes what is owed, or it leaves the pool as it is. -/
theorem Flushes.owes {ending : Ending StagingError Unit} (h : Flushes p ending q events)
    (howes : p.Owes index memory x) (hp : p.Valid) (hlength : p.config.pageSize ≤ length) :
    q.Owes index memory x ∨ Flushed events memory length x := by
  cases ending with
  | done value => exact .inr (h.flushed_of_owes howes hp hlength)
  | failed e =>
    cases h
    exact .inl howes
  | broken v =>
    cases h
    exact .inl howes

/-- The current page is flushed before it is left. -/
theorem Turns.flushed_of_owes (h : Turns d p (.done next) q events)
    (howes : p.Owes index memory x) (hp : p.Valid) (hlength : p.config.pageSize ≤ length) :
    Flushed events memory length x := by
  cases h with
  | reused hflush _ => exact hflush.flushed_of_owes howes hp hlength
  | created hflush _ _ => exact (hflush.flushed_of_owes howes hp hlength).append_right _

theorem Turns.owes {ending : Ending StagingError Nat} (h : Turns d p ending q events)
    (howes : p.Owes index memory x) (hp : p.Valid) (hlength : p.config.pageSize ≤ length) :
    q.Owes index memory x ∨ Flushed events memory length x := by
  cases h with
  | unflushed hflush => exact hflush.owes howes hp hlength
  | broken hflush => exact hflush.owes howes hp hlength
  | reused hflush _ => exact .inr (hflush.flushed_of_owes howes hp hlength)
  | uncreated hflush _ _ => exact .inr ((hflush.flushed_of_owes howes hp hlength).append_right _)
  | created hflush _ _ => exact .inr ((hflush.flushed_of_owes howes hp hlength).append_right _)

theorem getElem?_pages_handOut {submission used : Nat} {page : Page}
    (hpage : p.pages[index]? = some page) :
    (p.handOut index submission used).pages[index]? =
      some { page with lastSubmission := submission } := by
  simp [handOut, hpage]

/-- A byte is owed when it is handed out of the current page, if that is not coherent. -/
theorem owes_handOut {submission used : Nat} (page : Page) (hcurrent : p.current = some index)
    (hpage : p.pages[index]? = some page) (hcoherent : page.coherent = false)
    (hflushed : p.flushed ≤ x) (hused : x < used) :
    (p.handOut index submission used).Owes index page.memory x :=
  ⟨hcurrent, ⟨_, getElem?_pages_handOut hpage, rfl, hcoherent⟩, hflushed, hused⟩

/-- A byte stays owed when more is handed out. -/
theorem Owes.handOut {submission used : Nat} (h : p.Owes index memory x) (hle : p.used ≤ used) :
    (p.handOut next submission used).Owes index memory x := by
  obtain ⟨hcurrent, ⟨page, hpage, hmemory, hcoherent⟩, hflushed, hused⟩ := h
  refine ⟨hcurrent, ?_, hflushed, Nat.lt_of_lt_of_le hused hle⟩
  by_cases hnext : next = index
  · rw [hnext]
    exact ⟨_, getElem?_pages_handOut hpage, hmemory, hcoherent⟩
  · exact ⟨page, by simp [Pool.handOut, hpage, hnext], hmemory, hcoherent⟩

theorem Requests.owes {submission size alignment : Nat} {ending : Ending StagingError Allocation}
    (h : Requests d p submission size alignment ending q events) (howes : p.Owes index memory x)
    (hp : p.Valid) (hlength : p.config.pageSize ≤ length) :
    q.Owes index memory x ∨ Flushed events memory length x := by
  cases h with
  | empty _ => exact .inl howes
  | misaligned _ => exact .inl howes
  | overflow _ => exact .inl howes
  | missing _ _ => exact .inl howes
  | served _ hpower hround _ _ _ =>
    obtain ⟨_, rfl⟩ := Size.roundUp?_eq_some_iff.mp hround
    have hle := Size.le_roundUp p.used hpower.pos
    exact .inl (howes.handOut (Nat.le_trans hle (Nat.le_add_right _ _)))
  | unturned _ _ _ hturn => exact hturn.owes howes hp hlength
  | broken hturn => exact hturn.owes howes hp hlength
  | lost hturn _ => exact .inr (hturn.flushed_of_owes howes hp hlength)
  | turned _ _ _ hturn _ => exact .inr (hturn.flushed_of_owes howes hp hlength)

/-- The bytes of an allocation are owed from then on, if its page is not coherent. -/
theorem Requests.owes_allocation {submission size alignment : Nat} {a : Allocation}
    (h : Requests d p submission size alignment (.done a) q events) (hp : p.Valid) :
    ∃ index page, q.current = some index ∧ q.pages[index]? = some page ∧
      a.buffer = page.buffer ∧ a.memory = page.memory ∧
      (page.coherent = false → ∀ x, a.offset ≤ x → x < a.offset + a.size →
        q.Owes index page.memory x) := by
  cases h with
  | @served index _ page _ hpower hround hcurrent _ hpage =>
    obtain ⟨_, rfl⟩ := Size.roundUp?_eq_some_iff.mp hround
    refine ⟨index, _, hcurrent, getElem?_pages_handOut hpage, rfl, rfl, ?_⟩
    intro hcoherent x hstart hstop
    have hused := Nat.le_trans (Size.le_roundUp p.used hpower.pos) hstart
    exact owes_handOut page hcurrent hpage hcoherent (Nat.le_trans hp.flushed_le_used hused) hstop
  | @turned q index _ page _ _ _ _ hturn hpage =>
    obtain ⟨hcurrent, _, hzero⟩ := hturn.turned
    refine ⟨index, _, hcurrent, getElem?_pages_handOut hpage, rfl, rfl, ?_⟩
    intro hcoherent x _ hstop
    have hoffset : (q.cut page size 0).offset = 0 := rfl
    rw [hoffset, Nat.zero_add] at hstop
    exact owes_handOut page hcurrent hpage hcoherent (by omega) hstop

/-! ## Runs -/

theorem Performs.owes {use : Use} {answered : Ending StagingError (Option Allocation)}
    (h : Performs d p use answered q events) (howes : p.Owes index memory x) (hp : p.Valid)
    (hlength : p.config.pageSize ≤ length) :
    q.Owes index memory x ∨ Flushed events memory length x := by
  cases h with
  | allocated hrequest => exact hrequest.owes howes hp hlength
  | unserved hrequest => exact hrequest.owes howes hp hlength
  | stopped hrequest => exact hrequest.owes howes hp hlength
  | reclaimed _ =>
    exact .inl ⟨howes.current_eq, howes.page, howes.flushed_le, howes.lt_used⟩
  | flushed hflush => exact hflush.owes howes hp hlength
  | unflushed hflush => exact hflush.owes howes hp hlength
  | overflow hflush => exact hflush.owes howes hp hlength

/-- A byte that is owed at some time is owed until it is flushed. -/
theorem owes_of_runs {s s' : σ} {steps : List PoolStep} (h : Runs (Use.action d) p s steps q s')
    (howes : p.Owes index memory x) (hp : p.Valid) (hlength : p.config.pageSize ≤ length) :
    q.Owes index memory x ∨ Flushed (eventsOf steps) memory length x := by
  induction h with
  | nil p s => exact .inl howes
  | cons hstep _ ih =>
    have hperforms := performs_of_run hstep
    rw [eventsOf_cons]
    rcases hperforms.owes howes hp hlength with hnext | hflushed
    · rw [← hperforms.config_eq] at hlength
      exact (ih hnext (hperforms.valid hp) hlength).imp_right (·.append_left _)
    · exact .inr (hflushed.append_right _)

/-- A run that leaves the page of an owed byte, or flushes with success, flushes the
byte. -/
theorem flushed_of_runs {s s' : σ} {steps : List PoolStep} (h : Runs (Use.action d) p s steps q s')
    (howes : p.Owes index memory x) (hp : p.Valid) (hlength : p.config.pageSize ≤ length)
    (hdone : q.current ≠ some index ∨
      ∃ step ∈ steps, step.use = .flush ∧ step.answer = .done none) :
    Flushed (eventsOf steps) memory length x := by
  rcases hdone with hleft | ⟨step, hmem, huse, hanswer⟩
  · exact (owes_of_runs h howes hp hlength).resolve_left fun howes => hleft howes.current_eq
  · obtain ⟨before, later, rfl⟩ := List.append_of_mem hmem
    obtain ⟨p₁, s₁, hbefore, hrest⟩ := h.split
    obtain ⟨p₂, s₂, hstep, _⟩ := hrest.uncons
    rw [huse, hanswer] at hstep
    rw [eventsOf_append, eventsOf_cons]
    rcases owes_of_runs hbefore howes hp hlength with hnext | hflushed
    · rw [← config_of_runs hbefore] at hlength
      cases performs_of_run hstep with
      | flushed hflush =>
        have hflushed := hflush.flushed_of_owes hnext (valid_of_runs hbefore hp) hlength
        exact (hflushed.append_right _).append_left _
    · exact hflushed.append_right _

theorem Performs.owes_allocation {use : Use} {a : Allocation}
    (h : Performs d p use (.done (some a)) q events) (hp : p.Valid) :
    ∃ index page, q.current = some index ∧ q.pages[index]? = some page ∧
      a.buffer = page.buffer ∧ a.memory = page.memory ∧
      (page.coherent = false → ∀ x, a.offset ≤ x → x < a.offset + a.size →
        q.Owes index page.memory x) := by
  cases h with
  | allocated hrequest => exact hrequest.owes_allocation hp

/-- After some steps, a page is the current one, and its memory is of a type. -/
def CurrentAfter (d : Device σ) (p : Pool) (s : σ) (steps : List PoolStep) (index : Nat)
    (page : Page) (memoryType : Nat) : Prop :=
  ∃ q s', Runs (Use.action d) p s steps q s' ∧ q.current = some index ∧
    q.pages[index]? = some page ∧ page.BackedBy memoryType (eventsOf steps)

/-- What a new pool knows of its pages after some steps. -/
theorem exists_memoryType {config : Config} {s s' : σ} {steps : List PoolStep} {page : Page}
    (hnew : new config = .ok p) (hrun : Runs (Use.action d) p s steps q s')
    (hcurrent : q.current = some index) (hpage : q.pages[index]? = some page) :
    ∃ memoryType, CurrentAfter d p s steps index page memoryType ∧
      page.coherent = config.hostCoherent.getLsbD memoryType := by
  obtain ⟨_, _, rfl⟩ := new_eq_ok_iff.mp hnew
  have hbacked := (accounted_of_runs hrun (accounted_ofConfig config [])).backed
  obtain ⟨memoryType, htype, hcoherent⟩ := hbacked page (List.mem_of_getElem? hpage)
  rw [config_of_runs hrun] at hcoherent
  exact ⟨memoryType, ⟨q, s', hrun, hcurrent, hpage, htype⟩, hcoherent⟩

/-- In every run of a new pool, however the device answers, the bytes of an allocation
from a page whose memory is not coherent are flushed with success after the allocation
if, at the end of the run, the page is no longer the current one or a flush has
succeeded meanwhile.  A flush is only made for the current page, and only if its memory
is not coherent. -/
theorem allocations_flushed {config : Config} {s s' : σ} {steps : List PoolStep}
    (hnew : new config = .ok p) (hrun : Runs (Use.action d) p s steps q s')
    (hlength : config.pageSize ≤ length) :
    (∀ {before first later a}, steps = before ++ first :: later → first.answer = .done (some a) →
      ∃ index page memoryType, CurrentAfter d p s (before ++ [first]) index page memoryType ∧
        a.buffer = page.buffer ∧ a.memory = page.memory ∧
        (config.hostCoherent.getLsbD memoryType = false →
          (q.current ≠ some index ∨
            ∃ step ∈ later, step.use = .flush ∧ step.answer = .done none) →
          ∀ x, a.offset ≤ x → x < a.offset + a.size →
            Flushed (eventsOf later) page.memory length x)) ∧
      ∀ {before step later ranges answer}, steps = before ++ step :: later →
        .call (.flush ranges answer) ∈ step.events →
        ∃ index page memoryType, CurrentAfter d p s before index page memoryType ∧
          config.hostCoherent.getLsbD memoryType = false ∧
          ∀ range ∈ ranges, range.memory = page.memory := by
  have hp := valid_of_new hnew
  have hconfig : p.config = config := by
    obtain ⟨_, _, rfl⟩ := new_eq_ok_iff.mp hnew
    rfl
  constructor
  · rintro before first later a rfl ha
    have hcut : Runs (Use.action d) p s ((before ++ [first]) ++ later) q s' := by simpa using hrun
    obtain ⟨p₂, s₂, hearlier, hlater⟩ := hcut.split
    obtain ⟨p₁, s₁, hbefore, hfirst⟩ := hearlier.split
    obtain ⟨_, _, hstep, hnil⟩ := hfirst.uncons
    cases hnil
    rw [ha] at hstep
    have hallocates := performs_of_run hstep
    obtain ⟨index, page, hcurrent, hpage, hbuffer, hmemory, howes⟩ :=
      hallocates.owes_allocation (valid_of_runs hbefore hp)
    obtain ⟨memoryType, hafter, hcoherent⟩ := exists_memoryType hnew hearlier hcurrent hpage
    refine ⟨index, page, memoryType, hafter, hbuffer, hmemory, ?_⟩
    intro htype hdone x hstart hstop
    rw [← hconfig, ← config_of_runs hearlier] at hlength
    have hvalid := valid_of_runs hearlier hp
    exact flushed_of_runs hlater (howes (hcoherent.trans htype) x hstart hstop) hvalid hlength
      hdone
  · rintro before step later ranges answer rfl hmem
    obtain ⟨p₁, s₁, hbefore, hrest⟩ := hrun.split
    obtain ⟨_, _, hstep, _⟩ := hrest.uncons
    obtain ⟨page, hpage, hcoherent, hranges⟩ :=
      ((performs_of_run hstep).mustFlush hmem).onDirtyPage
    obtain ⟨index, hcurrent, hpage⟩ := Option.bind_eq_some_iff.mp hpage
    obtain ⟨memoryType, hafter, htype⟩ := exists_memoryType hnew hbefore hcurrent hpage
    exact ⟨index, page, memoryType, hafter, htype.symm.trans hcoherent, hranges⟩

/-- A pool of one page, whose memory needs flushes of four bytes at a time. -/
def incoherentPage : Config where
  pageSize := 16
  hostVisible := 2
  flushUnit := 4
  maxPages := some 1

/-- The page is requested piece by piece, with a flush after the first piece, until the
pool is out of pages. -/
def fillPage : List PoolStep × Pool × Simulated.State :=
  play (Use.action (Simulated.device .direct)) (ofConfig incoherentPage) (Simulated.State.new {})
    [.request 1 5 1, .flush, .request 1 4 1, .request 1 16 1, .request 2 4 1]

/-- What happens after the second piece. -/
def fillRest : List PoolStep :=
  [⟨.request 1 16 1, .done (some ⟨1, 2, 9, 7⟩), []⟩,
    ⟨.request 2 4 1, .failed .outOfPages, [.call (.flush [⟨2, 4, Size.whole⟩] (.ok ()))]⟩]

/-- The second piece is flushed when its page is left, and that flush is of no other page. -/
theorem allocations_flushed_full_page :
    ∃ before first, fillPage.1 = before ++ first :: fillRest ∧
      first.answer = .done (some ⟨1, 2, 5, 4⟩) ∧
      (∃ index page memoryType,
        CurrentAfter (Simulated.device .direct) (ofConfig incoherentPage) (Simulated.State.new {})
          (before ++ [first]) index page memoryType ∧ page.buffer = 1 ∧ page.memory = 2 ∧
        incoherentPage.hostCoherent.getLsbD memoryType = false ∧
        fillPage.2.1.current ≠ some index ∧
        ∀ x, 5 ≤ x → x < 5 + 4 → Flushed (eventsOf fillRest) page.memory 16 x) ∧
      ∃ index page memoryType,
        CurrentAfter (Simulated.device .direct) (ofConfig incoherentPage) (Simulated.State.new {})
          fillPage.1.dropLast index page memoryType ∧
        incoherentPage.hostCoherent.getLsbD memoryType = false ∧ page.memory = 2 := by
  let before : List PoolStep :=
    [⟨.request 1 5 1, .done (some ⟨1, 2, 0, 5⟩),
      [.call (.createBuffer (bufferInfo 16) (.ok 1)), .call (.requirements 1 ⟨65536, 65536, 7⟩),
        .call (.allocate 65536 1 (.ok 2))] ++ mappedEvents 1 2⟩,
      ⟨.flush, .done none, [.call (.flush [⟨2, 0, 8⟩] (.ok ()))]⟩]
  let first : PoolStep := ⟨.request 1 4 1, .done (some ⟨1, 2, 5, 4⟩), []⟩
  let last : PoolStep :=
    ⟨.request 2 4 1, .failed .outOfPages, [.call (.flush [⟨2, 4, Size.whole⟩] (.ok ()))]⟩
  have hnew : new incoherentPage = .ok (ofConfig incoherentPage) := rfl
  have hrun : Runs (Use.action (Simulated.device .direct)) (ofConfig incoherentPage)
      (Simulated.State.new {}) fillPage.1 fillPage.2.1 fillPage.2.2 := runs_play _ _ _ _
  have hlength : incoherentPage.pageSize ≤ 16 := by decide
  have hsteps : fillPage.1 = before ++ first :: fillRest := by decide
  have hlast : fillPage.1 = fillPage.1.dropLast ++ last :: [] := by decide
  have hleft : fillPage.2.1.current = none := by decide
  obtain ⟨hallocated, hflushes⟩ := allocations_flushed hnew hrun hlength
  refine ⟨before, first, hsteps, rfl, ?_, ?_⟩
  · obtain ⟨index, page, memoryType, hafter, hbuffer, hmemory, hflushed⟩ := hallocated hsteps rfl
    have hincoherent : incoherentPage.hostCoherent.getLsbD memoryType = false :=
      BitVec.getLsbD_zero
    have hgone : fillPage.2.1.current ≠ some index := by simp [hleft]
    exact ⟨index, page, memoryType, hafter, hbuffer.symm, hmemory.symm, hincoherent, hgone,
      hflushed hincoherent (.inl hgone)⟩
  · obtain ⟨index, page, memoryType, hafter, hincoherent, hranges⟩ :=
      hflushes hlast List.mem_cons_self
    exact ⟨index, page, memoryType, hafter, hincoherent, (hranges _ List.mem_cons_self).symm⟩

end Staging.Pool

end GuestReplica
