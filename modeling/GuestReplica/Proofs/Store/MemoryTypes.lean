import GuestReplica.Proofs.MemoryTypes
import GuestReplica.Proofs.Store.Fallback

set_option autoImplicit false

/-!
# The memory type of a store

An attempt to create a store asks what memory for its buffer has to be like.  Whatever it
allocates then is of the lowest type that will do and is local to the device, and it fails for
want of such a type just if the device has none.
-/

namespace GuestReplica.Store

variable {σ : Type} {d : Device σ} {path : SparsePath} {store : Store} {needs : Requirements}
variable {ending : Ending CreationError Store} {events more : List Event} {memoryType : Nat}

/-! ## The types of allocations -/

/-- Whatever some events allocate is of one type. -/
def AllocatesOnly (memoryType : Nat) (events : List Event) : Prop :=
  ∀ size other answer, .call (.allocate size other answer) ∈ events → other = memoryType

theorem AllocatesOnly.append (h : AllocatesOnly memoryType events)
    (hmore : AllocatesOnly memoryType more) : AllocatesOnly memoryType (events ++ more) :=
  fun size other answer hmem =>
    (List.mem_append.mp hmem).elim (h size other answer) (hmore size other answer)

theorem allocatesOnly_destroyed (memoryType : Nat) (store : Store) :
    AllocatesOnly memoryType store.destroyed := by
  intro size other answer hmem
  simp [destroyed] at hmem

theorem allocatesOnly_binding (memoryType : Nat) {binding : BufferBinding} {answer : Answer Unit}
    (h : path.Binds binding answer events) : AllocatesOnly memoryType events := by
  intro size other answer hmem
  cases h <;> simp at hmem

theorem Allocates.allocatesOnly {chunk total offset : Nat} {binds : List SparseBind}
    {failure : Option Code} (h : Allocates memoryType chunk total offset binds failure events) :
    AllocatesOnly memoryType events := by
  induction h with
  | covered _ =>
    intro size other answer hmem
    cases hmem
  | refused _ =>
    intro size other answer hmem
    cases List.mem_singleton.mp hmem
    rfl
  | allocated _ _ ih =>
    intro size other answer hmem
    rcases List.mem_cons.mp hmem with hfirst | hrest
    · cases hfirst
      rfl
    · exact ih size other answer hrest

/-- All memory behind a store is of the type that was chosen for it. -/
theorem Backs.allocatesOnly (h : Backs path store needs ending events) :
    AllocatesOnly store.memoryType events := by
  have hfirst : ∀ (allocated : Answer Handle),
      AllocatesOnly store.memoryType
        [.call (.allocate needs.size store.memoryType allocated)] := by
    intro allocated size other answer hmem
    cases List.mem_singleton.mp hmem
    rfl
  have hbind : ∀ (memory : Handle) (answer : Answer Unit),
      AllocatesOnly store.memoryType [.call (.bind store.buffer memory 0 answer)] := by
    intro memory answer size other allocated hmem
    cases List.mem_singleton.mp hmem
  cases h with
  | unallocated _ => exact (hfirst _).append (allocatesOnly_destroyed _ _)
  | unbound _ => exact ((hfirst _).append (hbind _ _)).append (allocatesOnly_destroyed _ _)
  | bound _ => exact (hfirst _).append (hbind _ _)
  | overflow _ _ =>
    intro size other answer hmem
    cases hmem
  | chunksUnallocated _ _ hallocates =>
    exact hallocates.allocatesOnly.append (allocatesOnly_destroyed _ _)
  | chunksUnbound _ _ hallocates hbinds =>
    exact (hallocates.allocatesOnly.append (allocatesOnly_binding _ hbinds)).append
      (allocatesOnly_destroyed _ _)
  | chunksBound _ _ hallocates hbinds =>
    exact hallocates.allocatesOnly.append (allocatesOnly_binding _ hbinds)

/-- A store that gets memory keeps its type. -/
theorem Backs.memoryType_eq {created : Store} (h : Backs path store needs (.done created) events) :
    created.memoryType = store.memoryType := by
  cases h <;> rfl

/-- Once a type is chosen, it is not for want of one that an attempt fails. -/
theorem Backs.ne_noType (h : Backs path store needs ending events) :
    ending ≠ .failed .noDeviceLocalMemoryType := by
  rintro rfl
  cases h

/-! ## The choice of an attempt -/

variable {count size : Nat} {properties : Nat → Mask} {strategy : Strategy}

/-- With the lowest local type that will do, memory is allocated, and a store is created; where
there is none, this is what is reported. -/
structure UsesLowest (count : Nat) (properties : Nat → Mask) (compatible : Mask)
    (answer : Ending CreationError Store) (events : List Event) : Prop where
  allocates : ∀ size memoryType allocated, .call (.allocate size memoryType allocated) ∈ events →
    MemoryTypes.Lowest count properties compatible MemoryProperty.deviceLocal memoryType
  creates : ∀ store, answer = .done store →
    MemoryTypes.Lowest count properties compatible MemoryProperty.deviceLocal store.memoryType
  fails_iff : answer = .failed .noDeviceLocalMemoryType ↔
    ∀ i, ¬ MemoryTypes.Offers count properties compatible MemoryProperty.deviceLocal i

/-- An attempt gets no buffer, or it asks what types will do for its buffer. -/
inductive ChoosesType (count : Nat) (properties : Nat → Mask) (size : Nat) (strategy : Strategy) :
    Ending CreationError Store → List Event → Prop where
  | noBuffer {code : Code} :
      ChoosesType count properties size strategy (.failed (.bufferCreation code))
        [.call (.createBuffer (bufferInfo size strategy) (.failed code))]
  | asked {buffer : Handle} {needs : Requirements} {answer : Ending CreationError Store}
      {events : List Event} (huses : UsesLowest count properties needs.types answer events) :
      ChoosesType count properties size strategy answer
        (opening size strategy buffer needs ++ events)

/-- An attempt with the local types of a device uses the lowest one that will do. -/
theorem Attempts.choosesType
    (h : Attempts path size (MemoryTypes.ofProperties count properties).deviceLocal strategy ending
      events) : ChoosesType count properties size strategy ending events := by
  cases h with
  | noBuffer => exact .noBuffer
  | noType htype =>
    have hnone := MemoryTypes.choose?_having_eq_none_iff.mp htype
    refine .asked ⟨fun size memoryType allocated hmem => ?_, nofun, iff_of_true rfl hnone⟩
    simp [destroyed] at hmem
  | @typed _ _ memoryType _ _ htype hbacks =>
    have hlowest := MemoryTypes.choose?_having_zero_eq_some_iff.mp htype
    refine .asked ⟨fun size other allocated hmem => ?_, ?_, iff_of_false hbacks.ne_noType ?_⟩
    · rw [hbacks.allocatesOnly size other allocated hmem]
      exact hlowest
    · rintro store rfl
      rw [hbacks.memoryType_eq]
      exact hlowest
    · exact fun hnone => hnone memoryType hlowest.1

end GuestReplica.Store
