import GuestReplica.Proofs.Staging.Allocations

set_option autoImplicit false

/-!
# How much a pool can hand out

A pool with a limit on its pages has room for what is left of its current page, and
for whole pages: those that are writable, and those that it may still create.  While
the device does what it is asked for, an allocation takes exactly its own bytes of
that room, and a request fails only when nothing is left of it.
-/

namespace GuestReplica

/-- The device did what it was asked for: what was to be created, bound, mapped or
flushed is so, and memory of one of some types can back each buffer. -/
def Call.succeeds (types : Mask) : Call → Bool
  | .createBuffer _ (.failed _) | .allocate _ _ (.failed _) | .bind _ _ _ (.failed _)
  | .bindSparse _ (.failed _) | .map _ _ _ _ (.failed _) | .map _ _ _ _ (.ok .null)
  | .flush _ (.failed _) | .createFence _ (.failed _) | .queueBindSparse _ _ _ (.failed _)
  | .waitForFences _ _ _ (.failed _) => false
  | .requirements _ needs => needs.types &&& types != 0
  | _ => true

/-- All calls of the device among some events have succeeded. -/
def CallsSucceed (types : Mask) (events : List Event) : Prop :=
  ∀ call ∈ callsOf events, call.succeeds types = true

instance (types : Mask) (events : List Event) : Decidable (CallsSucceed types events) :=
  inferInstanceAs (Decidable (∀ _ ∈ _, _))

theorem callsSucceed_append {types : Mask} {a b : List Event} :
    CallsSucceed types (a ++ b) ↔ CallsSucceed types a ∧ CallsSucceed types b := by
  rw [CallsSucceed, callsOf_append, List.forall_mem_append]
  rfl

theorem callsSucceed_cons {types : Mask} {call : Call} {events : List Event} :
    CallsSucceed types (.call call :: events) ↔
      call.succeeds types = true ∧ CallsSucceed types events :=
  List.forall_mem_cons

namespace MemoryTypes

/-- There is a type to choose if one of those that will do is among those required. -/
theorem choose?_ne_none {compatible required preferred : Mask}
    (h : (compatible &&& required != 0) = true) :
    choose? compatible required preferred ≠ none := by
  intro hnone
  have hdisjoint : compatible &&& required = 0 := by
    apply BitVec.eq_of_getLsbD_eq
    intro i _
    cases hi : compatible.getLsbD i with
    | false => simp [hi]
    | true => simp [hi, choose?_eq_none_iff.mp hnone i hi]
  rw [hdisjoint] at h
  cases h

end MemoryTypes

namespace Staging.Pool

variable {σ : Type} {d : Device σ} {p q r : Pool} {events : List Event}
variable {submission size unit index : Nat}

/-! ## Room -/

/-- What is left of the current page. -/
def left (p : Pool) : Nat := if p.current = none then 0 else p.config.pageSize - p.used

/-- The pages that the pool can turn to, if their number is limited. -/
def spare? (p : Pool) : Option Nat :=
  p.config.maxPages.map fun most => p.writable.length + (most - p.pages.length)

/-- The bytes that the pool can hand out, if the number of its pages is limited. -/
def room? (p : Pool) : Option Nat :=
  p.spare?.map fun spare => p.left + p.config.pageSize * spare

/-- A page that was just turned to has all its bytes left. -/
theorem left_of_turned (hcurrent : p.current = some index) (hused : p.used = 0) :
    p.left = p.config.pageSize := by
  simp [left, hcurrent, hused]

/-- Where nothing can be handed out of the current page, nothing is left of it. -/
theorem Aligned.left_eq_zero {offset : Nat} (hp : p.Aligned unit) (hunit : 0 < unit)
    (hround : Size.roundUp? p.used unit = some offset)
    (hfull : p.current = none ∨ p.config.pageSize ≤ offset) : p.left = 0 := by
  obtain ⟨_, rfl⟩ := Size.roundUp?_eq_some_iff.mp hround
  rw [Size.roundUp_of_dvd hunit hp.dvd_used] at hfull
  unfold left
  split
  · rfl
  · next hcurrent => exact Nat.sub_eq_zero_of_le (hfull.resolve_left hcurrent)

/-! ## Steps take room -/

theorem Flushes.spare_eq {ending : Ending StagingError Unit} (h : Flushes p ending q events) :
    q.spare? = p.spare? := by
  cases h <;> rfl

/-- A new page was spare. -/
theorem Creates.spare_eq (h : Creates d p (.done index) q events) :
    p.spare? = q.spare?.map (1 + ·) := by
  cases h with
  | created hfull _ _ =>
    simp only [spare?, addPage, List.length_append, List.length_singleton, Option.map_map]
    apply Option.map_congr
    intro most hmost
    have hless : p.pages.length < most := by
      by_contra hle
      exact hfull ⟨most, hmost, Nat.le_of_not_lt hle⟩
    simp only [Function.comp_apply]
    omega

/-- A turn to another page takes a page that was spare. -/
theorem Turns.spare_eq (h : Turns d p (.done index) q events) :
    p.spare? = q.spare?.map (1 + ·) := by
  cases h with
  | @reused q _ _ hflush hlast =>
    rw [← hflush.spare_eq]
    have hpos := List.length_pos_of_mem (List.mem_of_getLast? hlast)
    simp only [spare?, retire, dropWritable, turnTo, List.length_dropLast, Option.map_map]
    apply Option.map_congr
    intro most _
    simp only [Function.comp_apply]
    omega
  | created hflush _ hcreate =>
    rw [← hflush.spare_eq]
    exact hcreate.spare_eq

/-- A turn of a pool whose device does what it is asked for fails only for want of a
spare page. -/
theorem Turns.spare_eq_zero {e : StagingError} (h : Turns d p (.failed e) q events)
    (hcalls : CallsSucceed p.config.hostVisible events) :
    e = .outOfPages ∧ p.spare? = some 0 := by
  cases h with
  | unflushed hflush =>
    cases hflush with
    | refused _ _ _ => simp [callsSucceed_cons, Call.succeeds] at hcalls
  | @uncreated p₁ _ _ _ _ hflush hnone hcreate =>
    rw [← hflush.spare_eq]
    rw [← hflush.config_eq] at hcalls
    have hcreated := (callsSucceed_append.mp hcalls).2
    cases hcreate with
    | full hfull =>
      obtain ⟨most, hmost, hle⟩ := hfull
      have hmax : p₁.config.maxPages = some most := hmost
      have hpages : p₁.retire.pages.length = p₁.pages.length := rfl
      have hzero : 0 + (most - p₁.pages.length) = 0 := by omega
      exact ⟨rfl, by rw [spare?, hmax, hnone, Option.map_some, List.length_nil, hzero]⟩
    | noBuffer _ => simp [callsSucceed_cons, Call.succeeds] at hcreated
    | noType _ htype =>
      simp only [callsSucceed_cons, Call.succeeds] at hcreated
      exact absurd htype (MemoryTypes.choose?_ne_none hcreated.2.1)
    | noMemory _ _ => simp [callsSucceed_cons, Call.succeeds] at hcreated
    | noMapping _ _ hmap =>
      have hmapped := (callsSucceed_append.mp (callsSucceed_append.mp hcreated).1).2
      cases hmap <;> simp [callsSucceed_cons, Call.succeeds] at hmapped

/-! ## Requests take room -/

/-- How a pool can be left when so many bytes were taken of its room: with the rest of
the room, or out of pages, as these bytes were all that it had room for. -/
inductive Takes (p : Pool) (bytes : Nat) : Option StagingError → Pool → Prop where
  | some {q : Pool} (hroom : p.room? = q.room?.map (bytes + ·)) : Takes p bytes none q
  | all {q : Pool} (hroom : p.room? = some bytes) : Takes p bytes (some .outOfPages) q

theorem Takes.refl (p : Pool) : p.Takes 0 none p := .some (by simp)

theorem Takes.trans {bytes more : Nat} {failure : Option StagingError}
    (h : p.Takes bytes none q) (h' : q.Takes more failure r) :
    p.Takes (bytes + more) failure r := by
  cases h with
  | some hroom =>
    cases h' with
    | some hroom' =>
      refine .some ?_
      rw [hroom, hroom', Option.map_map]
      simp only [Function.comp_def, Nat.add_assoc]
    | all hroom' =>
      refine .all ?_
      rw [hroom, hroom', Option.map_some]

/-- What is handed out of the current page is no longer left. -/
theorem room_handOut (hcurrent : p.current = some index)
    (hfits : p.used + size ≤ p.config.pageSize) :
    p.room? = (p.handOut index submission (p.used + size)).room?.map (size + ·) := by
  have hspare : (p.handOut index submission (p.used + size)).spare? = p.spare? := by
    rw [spare?, spare?, length_pages_handOut]
    rfl
  have hleft : p.left = size + (p.handOut index submission (p.used + size)).left := by
    simp only [left, handOut, hcurrent, reduceCtorEq, if_false]
    omega
  simp only [room?, hspare, hleft, Option.map_map, Function.comp_def, Nat.add_assoc]
  rfl

/-- A turn takes nothing of the room when nothing was left of the current page. -/
theorem Turns.room_eq (h : Turns d p (.done index) q events) (hleft : p.left = 0) :
    p.room? = q.room? := by
  obtain ⟨hcurrent, hused, _⟩ := h.turned
  simp only [room?, hleft, left_of_turned hcurrent hused, h.spare_eq, h.config_eq,
    Option.map_map, Function.comp_def]
  congr 1
  funext spare
  rw [Nat.zero_add, Nat.mul_add, Nat.mul_one]

/-- An allocation takes its own bytes of the room, and no others. -/
theorem Requests.takes {a : Allocation} (h : Requests d p submission size unit (.done a) q events)
    (haligned : p.Aligned unit) (hunit : 0 < unit) : p.Takes a.size none q := by
  refine .some ?_
  cases h with
  | @served _ _ page _ _ hround hcurrent hroom _ =>
    obtain ⟨_, rfl⟩ := Size.roundUp?_eq_some_iff.mp hround
    rw [Size.roundUp_of_dvd hunit haligned.dvd_used] at hroom ⊢
    exact room_handOut hcurrent (add_size_cut_le page size (Nat.le_of_lt hroom))
  | @turned q _ _ page _ _ hround hfull hturn _ =>
    obtain ⟨hcurrent, hused, _⟩ := hturn.turned
    have hfits : q.used + (q.cut page size 0).size ≤ q.config.pageSize := by
      rw [hused]
      exact add_size_cut_le page size (Nat.zero_le _)
    rw [hturn.room_eq (haligned.left_eq_zero hunit hround hfull), room_handOut hcurrent hfits,
      hused, Nat.zero_add]

/-- A request to a pool whose device does what it is asked for fails only when there is
no room. -/
theorem Requests.takes_all {e : StagingError}
    (h : Requests d p submission size unit (.failed e) q events) (haligned : p.Aligned unit)
    (hunit : 0 < unit) (hcalls : CallsSucceed p.config.hostVisible events) :
    p.Takes 0 (some e) q := by
  cases h with
  | unturned _ hround hfull hturn =>
    obtain ⟨rfl, hspare⟩ := hturn.spare_eq_zero hcalls
    refine .all ?_
    rw [room?, hspare, haligned.left_eq_zero hunit hround hfull]
    rfl

end Staging.Pool

end GuestReplica
