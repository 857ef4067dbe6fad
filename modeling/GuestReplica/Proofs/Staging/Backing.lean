import GuestReplica.Proofs.Staging.Places

set_option autoImplicit false

/-!
# What the pages of a pool are made of

A page is as the events of the run tell, in which it was created: its buffer has the size
of a page, and the memory behind it is of the type that the pool has picked for what the
buffer needs.  A page is known to be coherent exactly if the pool was told that memory of
this type is.
-/

namespace GuestReplica.Staging

/-- Memory of a type was allocated for the buffer of a page, bound to it and mapped. -/
def Page.BackedBy (page : Page) (memoryType : Nat) (events : List Event) : Prop :=
  ∃ needs : Requirements,
    [.call (.requirements page.buffer needs),
      .call (.allocate needs.size memoryType (.ok page.memory))] ++
      Pool.mappedEvents page.buffer page.memory <:+: events

/-- What happens when a page is created. -/
def Page.creation (page : Page) (pageSize memoryType : Nat) (needs : Requirements) : List Event :=
  .call (.createBuffer (Pool.bufferInfo pageSize) (.ok page.buffer)) ::
    ([.call (.requirements page.buffer needs),
      .call (.allocate needs.size memoryType (.ok page.memory))] ++
      Pool.mappedEvents page.buffer page.memory)

/-- A page was created for a pool, with memory of a type that was picked for what its buffer
needs. -/
structure Page.CreatedAs (page : Page) (config : Config) (needs : Requirements)
    (memoryType : Nat) (events : List Event) : Prop where
  picked : MemoryTypes.choose? needs.types config.hostVisible config.hostCoherent =
    some memoryType
  coherent_eq : page.coherent = config.hostCoherent.getLsbD memoryType
  happened : page.creation config.pageSize memoryType needs <:+: events

/-- What has happened, has happened. -/
theorem Page.CreatedAs.append_right {page : Page} {config : Config} {needs : Requirements}
    {memoryType : Nat} {events : List Event} (h : page.CreatedAs config needs memoryType events)
    (later : List Event) : page.CreatedAs config needs memoryType (events ++ later) :=
  ⟨h.picked, h.coherent_eq, h.happened.trans (List.prefix_append events later).isInfix⟩

theorem Page.CreatedAs.backedBy {page : Page} {config : Config} {needs : Requirements}
    {memoryType : Nat} {events : List Event} (h : page.CreatedAs config needs memoryType events) :
    page.BackedBy memoryType events :=
  ⟨needs, (List.suffix_cons _ _).isInfix.trans h.happened⟩

namespace Pool

variable {σ : Type} {d : Device σ} {p q : Pool} {past events : List Event}

/-- All pages are backed by memory of known types, and are coherent if their types are. -/
def Backed (p : Pool) (past : List Event) : Prop :=
  ∀ page ∈ p.pages, ∃ memoryType, page.BackedBy memoryType past ∧
    page.coherent = p.config.hostCoherent.getLsbD memoryType

/-- All pages were created for the pool. -/
def Accounted (p : Pool) (past : List Event) : Prop :=
  ∀ page ∈ p.pages, ∃ needs memoryType, page.CreatedAs p.config needs memoryType past

/-- So it is known what backs them. -/
theorem Accounted.backed (h : p.Accounted past) : p.Backed past := by
  intro page hmem
  obtain ⟨needs, memoryType, hcreated⟩ := h page hmem
  exact ⟨memoryType, hcreated.backedBy, hcreated.coherent_eq⟩

/-- A pool without pages. -/
theorem accounted_ofConfig (config : Config) (past : List Event) :
    (ofConfig config).Accounted past :=
  fun _ hmem => nomatch hmem

/-- Pages that stay the same stay accounted for. -/
theorem Accounted.of_pages_eq (h : p.Accounted past) (hpages : q.pages = p.pages)
    (hconfig : q.config = p.config) (events : List Event) : q.Accounted (past ++ events) := by
  intro page hmem
  rw [hpages] at hmem
  obtain ⟨needs, memoryType, hcreated⟩ := h page hmem
  rw [hconfig]
  exact ⟨needs, memoryType, hcreated.append_right events⟩

/-- What happens elsewhere changes no page. -/
theorem Accounted.append_right (h : p.Accounted past) (later : List Event) :
    p.Accounted (past ++ later) :=
  h.of_pages_eq rfl rfl later

theorem Accounted.addPage {added : Page} {needs : Requirements} {memoryType : Nat}
    (h : p.Accounted past) (hcreated : added.CreatedAs p.config needs memoryType past) :
    (p.addPage added).Accounted past := by
  intro page hmem
  rcases List.mem_append.mp hmem with hold | hnew
  · exact h page hold
  · obtain rfl := List.mem_singleton.mp hnew
    exact ⟨needs, memoryType, hcreated⟩

/-- What is handed out of a page does not change what it is made of. -/
theorem Accounted.handOut {index submission used : Nat} (h : p.Accounted past) :
    (p.handOut index submission used).Accounted past := by
  intro page hmem
  obtain ⟨i, hpage⟩ := List.mem_iff_getElem?.mp hmem
  simp only [Pool.handOut, List.getElem?_modify, Option.map_eq_map, Option.map_eq_some_iff] at hpage
  obtain ⟨other, hother, rfl⟩ := hpage
  obtain ⟨needs, memoryType, hpicked, hcoherent, hhappened⟩ :=
    h other (List.mem_of_getElem? hother)
  split
  · exact ⟨needs, memoryType, hpicked, hcoherent, hhappened⟩
  · exact ⟨needs, memoryType, hpicked, hcoherent, hhappened⟩

theorem Flushes.accounted {ending : Ending StagingError Unit} (h : Flushes p ending q events)
    (hp : p.Accounted past) : q.Accounted (past ++ events) := by
  cases h <;> exact hp.of_pages_eq rfl rfl _

/-- A new page is of the type that was picked for it. -/
theorem Creates.accounted {ending : Ending StagingError Nat} (h : Creates d p ending q events)
    (hp : p.Accounted past) : q.Accounted (past ++ events) := by
  cases h with
  | created _ _ htype =>
    exact (hp.of_pages_eq rfl rfl _).addPage ⟨htype, rfl, (List.suffix_append past _).isInfix⟩
  | _ => exact hp.of_pages_eq rfl rfl _

theorem Turns.accounted {ending : Ending StagingError Nat} (h : Turns d p ending q events)
    (hp : p.Accounted past) : q.Accounted (past ++ events) := by
  cases h with
  | unflushed hflush => exact hflush.accounted hp
  | broken hflush => exact hflush.accounted hp
  | reused hflush _ => exact hflush.accounted hp
  | @uncreated q₁ _ _ _ _ hflush _ hcreate =>
    have hretired : q₁.retire.Accounted _ := hflush.accounted hp
    rw [← List.append_assoc]
    exact hcreate.accounted hretired
  | @created q₁ q₂ _ _ _ hflush _ hcreate =>
    have hretired : q₁.retire.Accounted _ := hflush.accounted hp
    have hcreated : q₂.Accounted _ := hcreate.accounted hretired
    rw [← List.append_assoc]
    exact hcreated

theorem Requests.accounted {submission size alignment : Nat}
    {ending : Ending StagingError Allocation}
    (h : Requests d p submission size alignment ending q events) (hp : p.Accounted past) :
    q.Accounted (past ++ events) := by
  cases h with
  | empty _ => exact hp.of_pages_eq rfl rfl _
  | misaligned _ => exact hp.of_pages_eq rfl rfl _
  | overflow _ => exact hp.of_pages_eq rfl rfl _
  | missing _ _ => exact hp.of_pages_eq rfl rfl _
  | served _ _ _ _ _ _ => exact (hp.of_pages_eq rfl rfl _).handOut
  | unturned _ _ _ hturn => exact hturn.accounted hp
  | broken hturn => exact hturn.accounted hp
  | lost hturn _ => exact hturn.accounted hp
  | turned _ _ _ hturn _ => exact (hturn.accounted hp).handOut

theorem Performs.accounted {use : Use} {answer : Ending StagingError (Option Allocation)}
    (h : Performs d p use answer q events) (hp : p.Accounted past) :
    q.Accounted (past ++ events) := by
  cases h with
  | allocated hrequest => exact hrequest.accounted hp
  | unserved hrequest => exact hrequest.accounted hp
  | stopped hrequest => exact hrequest.accounted hp
  | reclaimed completed => exact hp.of_pages_eq rfl rfl _
  | flushed hflush => exact hflush.accounted hp
  | unflushed hflush => exact hflush.accounted hp
  | overflow hflush => exact hflush.accounted hp

theorem OwnerPerforms.accounted {use : OwnerUse}
    {answer : Ending StagingError (Option Allocation)} (h : OwnerPerforms d p use answer q events)
    (hp : p.Accounted past) : q.Accounted (past ++ events) := by
  cases h with
  | client hperforms => exact hperforms.accounted hp
  | destroyed => exact accounted_ofConfig p.config _

/-- Whatever a client does with a pool, it is known how its pages were created. -/
theorem accounted_of_runs {s s' : σ} {steps : List PoolStep}
    (h : Runs (Use.action d) p s steps q s') (hp : p.Accounted past) :
    q.Accounted (past ++ eventsOf steps) := by
  induction h generalizing past with
  | nil p s => exact hp.of_pages_eq rfl rfl _
  | cons hstep _ ih =>
    rw [eventsOf_cons, ← List.append_assoc]
    exact ih ((performs_of_run hstep).accounted hp)

theorem accounted_of_ownerRuns {s s' : σ} {steps : List OwnerStep}
    (h : Runs (OwnerUse.action d) p s steps q s') (hp : p.Accounted past) :
    q.Accounted (past ++ eventsOf steps) := by
  induction h generalizing past with
  | nil p s => exact hp.of_pages_eq rfl rfl _
  | cons hstep _ ih =>
    rw [eventsOf_cons, ← List.append_assoc]
    exact ih ((ownerPerforms_of_run hstep).accounted hp)

end Pool

end GuestReplica.Staging
