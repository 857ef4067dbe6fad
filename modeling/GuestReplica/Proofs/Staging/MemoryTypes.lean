import GuestReplica.Proofs.MemoryTypes
import GuestReplica.Proofs.Staging.FlushRanges

set_option autoImplicit false

/-!
# The memory types of staging pages

A pool that was told the memory types of a device asks for each new page which types will do
for its buffer, and takes the best one: among those that are visible to the host, the lowest
one that is coherent, or else the lowest one.  A page counts as coherent just if its type is,
and only pages that do not are flushed.
-/

namespace GuestReplica

/-- What was handed back, if anything was. -/
def Ending.error? {ε α : Type} : Ending ε α → Option ε
  | .failed error => some error
  | .done _ | .broken _ => none

/-- The call asks for the types that will do for a buffer, or allocates memory of a type. -/
def Call.isAboutTypes : Call → Bool
  | .requirements _ _ | .allocate _ _ _ => true
  | _ => false

/-- The questions and the allocations among some events, in order. -/
def typeCalls (events : List Event) : List Call := (callsOf events).filter Call.isAboutTypes

@[simp] theorem typeCalls_append (a b : List Event) :
    typeCalls (a ++ b) = typeCalls a ++ typeCalls b := by
  rw [typeCalls, callsOf_append, List.filter_append]
  rfl

namespace Staging

/-- The memory types that a pool was told are those of a device. -/
structure Config.Knows (config : Config) (types : MemoryTypes) : Prop where
  hostVisible_eq : config.hostVisible = types.hostVisible
  hostCoherent_eq : config.hostCoherent = types.hostCoherent

/-- A type is the best one for a staging page. -/
abbrev BestType (count : Nat) (properties : Nat → Mask) (needs : Requirements)
    (memoryType : Nat) : Prop :=
  MemoryTypes.Best count properties needs.types MemoryProperty.hostVisible
    MemoryProperty.hostCoherent memoryType

/-- A page was created with memory of the best type, and counts as coherent just if that type
is. -/
def Page.HasBestType (count : Nat) (properties : Nat → Mask) (page : Page) (pageSize : Nat)
    (events : List Event) : Prop :=
  ∃ needs memoryType, page.creation pageSize memoryType needs <:+: events ∧
    BestType count properties needs memoryType ∧
    (page.coherent = true ↔ (properties memoryType).Covers MemoryProperty.hostCoherent)

variable {count : Nat} {properties : Nat → Mask}

/-- A page that was created for a pool which knows the types of a device has the best one. -/
theorem Page.CreatedAs.hasBestType {page : Page} {config : Config} {needs : Requirements}
    {memoryType : Nat} {events : List Event} (h : page.CreatedAs config needs memoryType events)
    (hknows : config.Knows (.ofProperties count properties)) :
    page.HasBestType count properties config.pageSize events := by
  obtain ⟨hpicked, hcoherent, hhappened⟩ := h
  rw [hknows.hostVisible_eq, hknows.hostCoherent_eq] at hpicked
  have hbest := MemoryTypes.choose?_having_eq_some_iff.mp hpicked
  refine ⟨needs, memoryType, hhappened, hbest, ?_⟩
  -- the chosen type is within the count, so only its flags are left to decide
  rw [hcoherent, hknows.hostCoherent_eq, MemoryTypes.ofProperties, MemoryTypes.getLsbD_having]
  exact and_iff_right hbest.offers.lt_count

namespace Pool

variable {σ : Type} {d : Device σ} {p q : Pool} {events : List Event}
variable {submission size alignment : Nat}

/-! ## The choice of a type -/

/-- What a step asks and allocates, and how that goes together with the failure that it hands
back, if it hands one back. -/
inductive ChoosesType (count : Nat) (properties : Nat → Mask) :
    Option StagingError → List Call → Prop where
  /-- nothing is asked, so nothing is missing -/
  | nothing {error : Option StagingError} (herror : error ≠ some .noHostVisibleMemoryType) :
      ChoosesType count properties error []
  /-- there is no type that will do and is visible to the host -/
  | missing {buffer : Handle} {needs : Requirements}
      (hnone : ∀ i, ¬ MemoryTypes.Offers count properties needs.types MemoryProperty.hostVisible i) :
      ChoosesType count properties (some .noHostVisibleMemoryType) [.requirements buffer needs]
  /-- there is one, and the best one is taken -/
  | taken {error : Option StagingError} {buffer : Handle} {needs : Requirements} {memoryType : Nat}
      {answer : Answer Handle} (herror : error ≠ some .noHostVisibleMemoryType)
      (hbest : BestType count properties needs memoryType) :
      ChoosesType count properties error
        [.requirements buffer needs, .allocate needs.size memoryType answer]

theorem memoryTypeFor?_eq_none_iff {needs : Requirements}
    (hknows : p.config.Knows (.ofProperties count properties)) :
    p.memoryTypeFor? needs = none ↔
      ∀ i, ¬ MemoryTypes.Offers count properties needs.types MemoryProperty.hostVisible i := by
  rw [memoryTypeFor?, hknows.hostVisible_eq]
  exact MemoryTypes.choose?_having_eq_none_iff

theorem memoryTypeFor?_eq_some_iff {needs : Requirements} {memoryType : Nat}
    (hknows : p.config.Knows (.ofProperties count properties)) :
    p.memoryTypeFor? needs = some memoryType ↔ BestType count properties needs memoryType := by
  rw [memoryTypeFor?, hknows.hostVisible_eq, hknows.hostCoherent_eq]
  exact MemoryTypes.choose?_having_eq_some_iff

/-- The creation of a page takes the best type. -/
theorem Creates.choosesType {ending : Ending StagingError Nat} (h : Creates d p ending q events)
    (hknows : p.config.Knows (.ofProperties count properties)) :
    ChoosesType count properties ending.error? (typeCalls events) := by
  cases h with
  | full _ => exact .nothing (by simp [Ending.error?])
  | noBuffer _ => exact .nothing (by simp [Ending.error?])
  | noType _ htype => exact .missing ((memoryTypeFor?_eq_none_iff hknows).mp htype)
  | noMemory _ htype =>
    exact .taken (by simp [Ending.error?]) ((memoryTypeFor?_eq_some_iff hknows).mp htype)
  | noMapping _ htype hmap =>
    have hbest := (memoryTypeFor?_eq_some_iff hknows).mp htype
    cases hmap <;> exact .taken (by simp [Ending.error?]) hbest
  | created _ _ htype =>
    exact .taken (by simp [Ending.error?]) ((memoryTypeFor?_eq_some_iff hknows).mp htype)

/-- A flush neither asks nor allocates. -/
theorem Flushes.typeCalls_eq {ending : Ending StagingError Unit} (h : Flushes p ending q events) :
    typeCalls events = [] := by
  cases h <;> rfl

theorem Flushes.choosesType {ending : Ending StagingError Unit} (h : Flushes p ending q events) :
    ChoosesType count properties ending.error? (typeCalls events) := by
  rw [h.typeCalls_eq]
  refine .nothing ?_
  cases h <;> simp [Ending.error?]

/-- So a turn to another page chooses a type as the creation of a page does. -/
theorem Turns.choosesType {ending : Ending StagingError Nat} (h : Turns d p ending q events)
    (hknows : p.config.Knows (.ofProperties count properties)) :
    ChoosesType count properties ending.error? (typeCalls events) := by
  have hafter : ∀ {q₁ q₂ : Pool} {created : Ending StagingError Nat} {flushing creating},
      Flushes p (.done ()) q₁ flushing → Creates d q₁.retire created q₂ creating →
        ChoosesType count properties created.error? (typeCalls (flushing ++ creating)) := by
    intro q₁ q₂ created flushing creating hflush hcreate
    have hretired : q₁.retire.config = p.config := hflush.config_eq
    rw [typeCalls_append, hflush.typeCalls_eq]
    exact hcreate.choosesType (hretired ▸ hknows)
  cases h with
  | unflushed hflush => exact hflush.choosesType
  | broken hflush => exact hflush.choosesType
  | reused hflush _ => exact hflush.choosesType
  | uncreated hflush _ hcreate => exact hafter hflush hcreate
  | created hflush _ hcreate => exact hafter hflush hcreate

theorem Requests.choosesType {ending : Ending StagingError Allocation}
    (h : Requests d p submission size alignment ending q events)
    (hknows : p.config.Knows (.ofProperties count properties)) :
    ChoosesType count properties ending.error? (typeCalls events) := by
  cases h with
  | empty _ => exact .nothing nofun
  | misaligned _ => exact .nothing nofun
  | overflow _ => exact .nothing nofun
  | missing _ _ => exact .nothing nofun
  | served _ _ _ _ _ _ => exact .nothing nofun
  | unturned _ _ _ hturn => exact hturn.choosesType hknows
  | broken hturn => exact hturn.choosesType hknows
  | lost hturn _ => exact hturn.choosesType hknows
  | turned _ _ _ hturn _ => exact hturn.choosesType hknows

theorem OwnerPerforms.choosesType {use : OwnerUse}
    {answer : Ending StagingError (Option Allocation)} (h : OwnerPerforms d p use answer q events)
    (hknows : p.config.Knows (.ofProperties count properties)) :
    ChoosesType count properties answer.error? (typeCalls events) := by
  cases h with
  | client hperforms =>
    cases hperforms with
    | allocated hrequest => exact hrequest.choosesType hknows
    | unserved hrequest => exact hrequest.choosesType hknows
    | stopped hrequest => exact hrequest.choosesType hknows
    | reclaimed _ => exact .nothing nofun
    | flushed hflush => exact hflush.choosesType
    | unflushed hflush => exact hflush.choosesType
    | overflow hflush => exact hflush.choosesType
  | destroyed =>
    have hcalls : typeCalls (released p.pages) = [] := by
      induction p.pages with
      | nil => rfl
      | cons page rest ih => exact ih
    rw [hcalls]
    exact .nothing nofun

/-! ## Flushes of a page -/

/-- A coherent page is not flushed. -/
theorem Flushes.of_coherent {ending : Ending StagingError Unit} {page : Page}
    (h : Flushes p ending q events) (hpage : p.currentPage? = some page)
    (hcoherent : page.coherent = true) : ending = .done () ∧ events = [] := by
  refine h.of_clean fun other hother hdirty => ?_
  cases hpage.symm.trans hother
  cases hdirty.1.symm.trans hcoherent

/-- Another page is, where bytes were handed out since the last flush and the end of the flush
is a size. -/
theorem Flushes.of_incoherent {ending : Ending StagingError Unit} {page : Page}
    (h : Flushes p ending q events) (hpage : p.currentPage? = some page)
    (hcoherent : page.coherent = false) (hused : p.flushed < p.used) :
    (∃ range answer, events = [.call (.flush [range] answer)] ∧ range.memory = page.memory) ∨
      ending = .broken .sizeOverflow ∧ Size.limit ≤ p.used + p.config.flushUnit := by
  rcases h.asks_or_stops hpage ⟨hcoherent, hused⟩ with
    ⟨range, answer, hrange, _, hevents⟩ | ⟨hrange, hbroken, _⟩
  · obtain ⟨_, _, rfl⟩ := Option.map_eq_some_iff.mp hrange
    exact .inl ⟨_, answer, hevents, rfl⟩
  · exact .inr ⟨hbroken, Size.roundUp?_eq_none_iff.mp (Option.map_eq_none_iff.mp hrange)⟩

/-! ## Pools that know the types -/

/-- What memory types mean to a pool after some events: its pages are of the best types, a new
page will be so, too, and a page is flushed just if it is not coherent. -/
structure RespectsTypes (d : Device σ) (count : Nat) (properties : Nat → Mask) (p : Pool) (s : σ)
    (past : List Event) : Prop where
  pages : ∀ page ∈ p.pages, page.HasBestType count properties p.config.pageSize past
  choosesType : ∀ (use : OwnerUse) {answer q s' events},
    (use.action d).run p s = ⟨answer, q, s', events⟩ →
      ChoosesType count properties answer.error? (typeCalls events)
  onDirtyPage : ∀ (use : OwnerUse) {answer q s' events ranges answered},
    (use.action d).run p s = ⟨answer, q, s', events⟩ →
      .call (.flush ranges answered) ∈ events → p.OnDirtyPage ranges
  of_coherent : ∀ {ending q s' events page}, (flush d).run p s = ⟨ending, q, s', events⟩ →
    p.currentPage? = some page → page.coherent = true → ending = .done () ∧ events = []
  of_incoherent : ∀ {ending q s' events page}, (flush d).run p s = ⟨ending, q, s', events⟩ →
    p.currentPage? = some page → page.coherent = false → p.flushed < p.used →
      (∃ range answer, events = [.call (.flush [range] answer)] ∧ range.memory = page.memory) ∨
        ending = .broken .sizeOverflow ∧ Size.limit ≤ p.used + p.config.flushUnit

/-- A pool whose pages are all accounted for goes by the types that it was told. -/
theorem Accounted.respectsTypes {past : List Event} (h : p.Accounted past)
    (hknows : p.config.Knows (.ofProperties count properties)) (d : Device σ) (s : σ) :
    p.RespectsTypes d count properties s past where
  pages page hmem := by
    obtain ⟨needs, memoryType, hcreated⟩ := h page hmem
    exact hcreated.hasBestType hknows
  choosesType _ {_ _ _ _} hstep := (ownerPerforms_of_run hstep).choosesType hknows
  onDirtyPage _ {_ _ _ _ _ _} hstep hmem :=
    ((ownerPerforms_of_run hstep).mustFlush hmem).onDirtyPage
  of_coherent hflush := (flushes_of_run hflush).of_coherent
  of_incoherent hflush := (flushes_of_run hflush).of_incoherent

theorem respectsTypes_of_ownerRuns {config : Config} {p₀ : Pool} {s₀ s : σ}
    {steps : List OwnerStep} (hknows : config.Knows (.ofProperties count properties))
    (hnew : new config = .ok p₀) (hrun : Runs (OwnerUse.action d) p₀ s₀ steps p s) :
    p.RespectsTypes d count properties s (eventsOf steps) := by
  obtain ⟨_, _, hconfig⟩ := keeps_of_new hnew hrun
  obtain ⟨_, _, rfl⟩ := new_eq_ok_iff.mp hnew
  rw [← hconfig] at hknows
  exact (accounted_of_ownerRuns hrun (accounted_ofConfig config [])).respectsTypes hknows d s

end Pool

end Staging

end GuestReplica
