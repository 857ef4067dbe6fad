import Mathlib.Order.Bounds.Defs
import GuestReplica.Device.Simulated
import GuestReplica.Proofs.Cuts
import GuestReplica.Proofs.Store.Objects

set_option autoImplicit false

/-!
# The backing of a store

A store that is created has memory behind every byte that its buffer needs, and no more
than that.  A plain store has one allocation for all of them.  The chunks of a sparse
store tile them front to back: all chunks but the last have one size, which is the least
one that suits the alignment and is no smaller than `chunkSize`, and each chunk has an
allocation of its own.
-/

namespace GuestReplica.Store

variable {τ σ : Type} {d : Device σ}

/-! ## The chunks of a sparse store -/

/-- The offset and the size of the bytes that get memory. -/
def extent (bind : SparseBind) : Nat × Nat := (bind.offset, bind.size)

/-- The bindings cut the bytes from an offset on into chunks, and leave none of them. -/
structure Tiles (chunk offset total : Nat) (binds : List SparseBind) : Prop where
  cuts : Cuts 1 [⟨offset, total⟩] (binds.map extent) []
  size_eq : ∀ bind ∈ binds.dropLast, bind.size = chunk
  dvd_offset : ∀ bind ∈ binds, chunk ∣ bind.offset
  memoryOffset_eq : ∀ bind ∈ binds, bind.memoryOffset = 0
  length_eq : binds.length = (total - offset + chunk - 1) / chunk

/-- Chunks of this size suit an alignment: there is no smaller multiple of it that is
large enough. -/
def SuitsAlignment (alignment chunk : Nat) : Prop :=
  IsLeast {size | max alignment 1 ∣ size ∧ chunkSize ≤ size} chunk

theorem SuitsAlignment.pos {alignment chunk : Nat} (h : SuitsAlignment alignment chunk) :
    0 < chunk :=
  Nat.lt_of_lt_of_le (by decide) h.1.2

/-- Rounding up finds the size, wherever it is no overflow. -/
theorem suitsAlignment_of_roundUp? {alignment chunk : Nat}
    (h : Size.roundUp? chunkSize (max alignment 1) = some chunk) :
    SuitsAlignment alignment chunk := by
  obtain ⟨_, rfl⟩ := Size.roundUp?_eq_some_iff.mp h
  have hpos : 0 < max alignment 1 := by omega
  refine ⟨⟨Size.dvd_roundUp _ _, Size.le_roundUp _ hpos⟩, ?_⟩
  rintro size ⟨hdvd, hle⟩
  exact Size.roundUp_le hpos hdvd hle

variable {memoryType chunk total offset : Nat} {binds : List SparseBind} {failure : Option Code}
variable {events : List Event}

/-- Nothing is allocated once all is covered. -/
theorem Allocates.eq_nil (h : Allocates memoryType chunk total offset binds failure events)
    (hle : total ≤ offset) : binds = [] := by
  cases h with
  | covered _ => rfl
  | refused hmore => exact absurd hmore.1 (Nat.not_lt_of_le hle)
  | allocated hmore _ => exact absurd hmore.1 (Nat.not_lt_of_le hle)

/-- Chunks that were all allocated tile what they were allocated for. -/
theorem Allocates.tiles (h : Allocates memoryType chunk total offset binds none events)
    (hchunk : 0 < chunk) (hle : offset ≤ total) (hdvd : chunk ∣ offset) :
    Tiles chunk offset total binds := by
  generalize hfailure : (none : Option Code) = failure at h
  induction h with
  | @covered offset hdone =>
    have hempty : (⟨offset, total⟩ : Span).IsEmpty := Nat.le_of_not_lt fun hlt => hdone ⟨hlt, hchunk⟩
    have hzero : total - offset = 0 := Nat.sub_eq_zero_of_le hempty
    refine ⟨.next hempty (.stop []), by simp, by simp, by simp, ?_⟩
    rw [hzero, Nat.zero_add, List.length_nil, Nat.div_eq_of_lt (by omega)]
  | refused _ => cases hfailure
  | @allocated offset memory rest _ _ hmore hrest ih =>
    have hsize : 0 < min chunk (total - offset) := by omega
    have hstop : offset + min chunk (total - offset) ≤ total := by omega
    by_cases hlast : total - offset ≤ chunk
    · -- the last chunk ends with the bytes that are left
      have hmin : min chunk (total - offset) = total - offset := Nat.min_eq_right hlast
      obtain rfl := hrest.eq_nil (by omega)
      have hempty : (⟨offset + min chunk (total - offset), total⟩ : Span).IsEmpty := by
        simp only [Span.IsEmpty]
        omega
      refine ⟨.cut hsize (Nat.one_dvd _) hstop (.next hempty (.stop [])), by simp, by simpa, by simp, ?_⟩
      have hlt : total - offset - 1 < chunk := by omega
      have hsum : total - offset + chunk - 1 = total - offset - 1 + chunk := by omega
      rw [hsum, Nat.add_div_right _ hchunk, Nat.div_eq_of_lt hlt]
      rfl
    · have hmin : min chunk (total - offset) = chunk := Nat.min_eq_left (by omega)
      rw [hmin] at hsize hstop ih hrest ⊢
      have htiles := ih hstop (Nat.dvd_add hdvd (Nat.dvd_refl chunk)) hfailure
      have hsum : total - offset + chunk - 1 = total - (offset + chunk) + chunk - 1 + chunk := by
        omega
      refine ⟨.cut hsize (Nat.one_dvd _) hstop htiles.cuts, ?_, ?_, ?_, ?_⟩
      · intro bind hmem
        cases hbinds : rest with
        | nil => simp [hbinds] at hmem
        | cons next others =>
          rw [hbinds, List.dropLast_cons_cons] at hmem
          rcases List.mem_cons.mp hmem with rfl | hmem
          · rfl
          · exact htiles.size_eq bind (hbinds ▸ hmem)
      · simpa [hdvd] using htiles.dvd_offset
      · simpa using htiles.memoryOffset_eq
      · rw [hsum, Nat.add_div_right _ hchunk, List.length_cons, htiles.length_eq]

/-- The call that allocated the memory of a binding. -/
def allocation (memoryType : Nat) (bind : SparseBind) : Event :=
  .call (.allocate bind.size memoryType (.ok bind.memory))

/-- Each chunk has an allocation of its own. -/
theorem Allocates.events_eq (h : Allocates memoryType chunk total offset binds none events) :
    events = binds.map (allocation memoryType) := by
  generalize hfailure : (none : Option Code) = failure at h
  induction h with
  | covered _ => rfl
  | refused _ => cases hfailure
  | allocated _ _ ih => rw [ih hfailure, List.map_cons, allocation]

/-! ## What an attempt allocates -/

/-- The bytes that an event allocates. -/
def allocatedSize : Event → Nat
  | .call (.allocate size _ (.ok _)) => size
  | _ => 0

/-- The bytes that some events allocate. -/
def allocatedBytes (events : List Event) : Nat := (events.map allocatedSize).sum

@[simp] theorem allocatedBytes_nil : allocatedBytes [] = 0 := rfl

@[simp] theorem allocatedBytes_cons (event : Event) (rest : List Event) :
    allocatedBytes (event :: rest) = allocatedSize event + allocatedBytes rest := rfl

@[simp] theorem allocatedBytes_append (a b : List Event) :
    allocatedBytes (a ++ b) = allocatedBytes a + allocatedBytes b := by
  rw [allocatedBytes, List.map_append, List.sum_append]
  rfl

@[simp] theorem allocatedBytes_destroyed (store : Store) : allocatedBytes store.destroyed = 0 := by
  have hfreed : allocatedBytes (store.memory.map fun memory => .call (.free memory)) = 0 := by
    simp [allocatedBytes, Function.comp_def, allocatedSize]
  rw [destroyed, allocatedBytes_append, hfreed]
  split <;> rfl

theorem allocatedBytes_binding {path : SparsePath} {binding : BufferBinding} {answer : Answer Unit}
    (h : path.Binds binding answer events) : allocatedBytes events = 0 := by
  cases h <;> rfl

/-- However the allocation of chunks ends, it does not go beyond the bytes that it is for. -/
theorem Allocates.allocatedBytes_le
    (h : Allocates memoryType chunk total offset binds failure events) :
    allocatedBytes events ≤ total - offset := by
  induction h with
  | covered _ => exact Nat.zero_le _
  | refused _ => exact Nat.zero_le _
  | allocated _ _ ih =>
    rw [allocatedBytes_cons, allocatedSize]
    omega

variable {path : SparsePath} {store : Store} {needs : Requirements}
variable {ending : Ending CreationError Store}

theorem Backs.allocatedBytes_le (h : Backs path store needs ending events) :
    allocatedBytes events ≤ needs.size := by
  cases h with
  | unallocated _ => simp [allocatedSize]
  | unbound _ => simp [allocatedSize]
  | bound _ => simp [allocatedSize]
  | overflow _ _ => simp
  | chunksUnallocated _ _ hallocates => simpa using hallocates.allocatedBytes_le
  | chunksUnbound _ _ hallocates hbinds =>
    simpa [allocatedBytes_binding hbinds] using hallocates.allocatedBytes_le
  | chunksBound _ _ hallocates hbinds =>
    simpa [allocatedBytes_binding hbinds] using hallocates.allocatedBytes_le

/-! ## Whole backing -/

/-- What happens when a buffer gets all the memory that it needs. -/
inductive FullyBacks (path : SparsePath) (store : Store) (needs : Requirements) :
    List Event → Prop where
  /-- one allocation of all that is needed, bound from its first byte on -/
  | plain {memory : Handle} (hstrategy : store.strategy = .plain)
      (hmemory : store.memory = [memory]) :
      FullyBacks path store needs
        [.call (.allocate needs.size store.memoryType (.ok memory)),
         .call (.bind store.buffer memory 0 (.ok ()))]
  /-- an allocation for each chunk, and one call that binds them all -/
  | sparse {chunk : Nat} {binds : List SparseBind} {binding : List Event}
      (hstrategy : store.strategy = .sparse) (hmemory : store.memory = binds.map (·.memory))
      (hsuits : SuitsAlignment needs.alignment chunk) (htiles : Tiles chunk 0 needs.size binds)
      (haligned : ∀ bind ∈ binds, max needs.alignment 1 ∣ bind.offset)
      (hbinds : path.Binds ⟨store.buffer, binds⟩ (.ok ()) binding) :
      FullyBacks path store needs (binds.map (allocation store.memoryType) ++ binding)

theorem Backs.fullyBacks {created : Store} (h : Backs path store needs (.done created) events) :
    FullyBacks path created needs events := by
  cases h with
  | bound hstrategy => exact .plain hstrategy rfl
  | chunksBound hstrategy hround hallocates hbinds =>
    have hsuits := suitsAlignment_of_roundUp? hround
    have htiles := hallocates.tiles hsuits.pos (Nat.zero_le _) (Nat.dvd_zero _)
    rw [hallocates.events_eq]
    refine .sparse hstrategy rfl hsuits htiles (fun bind hmem => ?_) hbinds
    exact Nat.dvd_trans hsuits.1.1 (htiles.dvd_offset bind hmem)

/-- How an attempt starts whose buffer could be created. -/
def opening (size : Nat) (strategy : Strategy) (buffer : Handle) (needs : Requirements) :
    List Event :=
  [.call (.createBuffer (bufferInfo size strategy) (.ok buffer)),
   .call (.requirements buffer needs)]

variable {size : Nat} {deviceLocal : Mask} {strategy : Strategy} {t t' : τ} {s s' : σ}

/-- The store of an attempt that succeeds is fully backed. -/
theorem Attempts.fullyBacks (h : Attempts path size deviceLocal strategy (.done store) events) :
    store.size = size ∧ store.strategy = strategy ∧ ∃ needs backing,
      events = opening size strategy store.buffer needs ++ backing ∧
        FullyBacks path store needs backing := by
  cases h with
  | @typed buffer needs _ _ backing _ hbacks =>
    have hbuffer := hbacks.keeps_buffer.1
    have hkept : store.size = size ∧ store.strategy = strategy := by
      cases hbacks <;> exact ⟨rfl, rfl⟩
    exact ⟨hkept.1, hkept.2, needs, backing, by rw [hbuffer, opening], hbacks.fullyBacks⟩

/-- No attempt allocates more than its buffer needs. -/
theorem Attempts.allocatedBytes_le {buffer : Handle} {rest : List Event}
    (h : Attempts path size deviceLocal strategy ending
      (opening size strategy buffer needs ++ rest)) :
    allocatedBytes rest ≤ needs.size := by
  generalize hevents : opening size strategy buffer needs ++ rest = events at h
  cases h with
  | noBuffer => cases hevents
  | noType _ =>
    cases hevents
    exact Nat.le_trans (Nat.le_of_eq (allocatedBytes_destroyed _)) (Nat.zero_le _)
  | typed _ hbacks =>
    cases hevents
    exact hbacks.allocatedBytes_le

/-- An attempt is stopped by an alignment for which there is no size of a chunk, or not at
all. -/
theorem Attempts.overflow {v : Violation}
    (h : Attempts path size deviceLocal strategy (.broken v) events) :
    v = .sizeOverflow ∧ strategy = .sparse ∧ ∃ buffer needs,
      events = opening size strategy buffer needs ∧
        Size.limit ≤ chunkSize + max needs.alignment 1 := by
  cases h with
  | @typed buffer needs _ _ _ _ hbacks =>
    cases hbacks with
    | overflow hstrategy hround =>
      exact ⟨rfl, hstrategy, buffer, needs, rfl, Size.roundUp?_eq_none_iff.mp hround⟩

/-- The handles of the memory behind a store are distinct. -/
theorem Attempts.nodup_memory {o : Ledger} {others : List Object}
    (h : Attempts path size deviceLocal strategy (.done store) events) (ho : o.Holds others)
    (hfresh : o.Fresh events) : store.memory.Nodup := by
  obtain ⟨hleads, _⟩ := h.leads ho hfresh (Ending.returns_done store)
  have hnames := (hleads.perm.map Object.name).nodup_iff.mp (ho.named.noteAll hfresh)
  have hmemory : ((memoryObjects store.memory store.buffer).map Object.name).Sublist
      ((objectsOf (.done store) ++ others).map Object.name) :=
    ((List.sublist_cons_self _ _).trans (List.sublist_append_left _ _)).map _
  have hnodup := hnames.sublist hmemory
  rw [memoryObjects, List.map_map] at hnodup
  exact hnodup.of_map _

/-- The buffer is fully and exactly backed.  When an attempt succeeds, one allocation or a
tiling by chunks covers what the device says that the buffer needs; the bindings lie at
multiples of the alignment, and each has memory of its own size and, where the device
names objects afresh, of its own.  However an attempt ends, the chunks never reach beyond
what the buffer needs, and only an alignment too large for any chunk stops one, before
memory is allocated. -/
theorem createWith_backs
    (h : (createWith d size strategy deviceLocal).run t s = ⟨ending, t', s', events⟩) :
    (∀ store, ending = .done store →
      store.size = size ∧ store.strategy = strategy ∧
        (∃ needs backing, events = opening size strategy store.buffer needs ++ backing ∧
          FullyBacks d.sparsePath store needs backing) ∧
        ∀ (o : Ledger) (others : List Object), o.Holds others → o.Fresh events →
          store.memory.Nodup) ∧
      (∀ buffer needs rest, events = opening size strategy buffer needs ++ rest →
        allocatedBytes rest ≤ needs.size) ∧
      ∀ v, ending = .broken v → v = .sizeOverflow ∧ strategy = .sparse ∧ ∃ buffer needs,
        events = opening size strategy buffer needs ∧
          Size.limit ≤ chunkSize + max needs.alignment 1 := by
  obtain ⟨hattempt, -⟩ := attempts_of_run h
  refine ⟨?_, ?_, ?_⟩
  · rintro store rfl
    obtain ⟨hsize, hstrategy, hbacks⟩ := hattempt.fullyBacks
    exact ⟨hsize, hstrategy, hbacks, fun _ _ ho hfresh => hattempt.nodup_memory ho hfresh⟩
  · rintro buffer needs rest rfl
    exact hattempt.allocatedBytes_le
  · rintro v rfl
    exact hattempt.overflow

/-! ## A store with a short last chunk -/

/-- An alignment that is no power of two, and a size that is no multiple of it. -/
def unevenDevice : Simulated.State := .new { alignment := 3 <<< 20, extra := 1000 }

/-- An attempt that gets a chunk of six megabytes and one for what is left. -/
def unevenAttempt : Outcome Unit CreationError Simulated.State Store :=
  (createWith (Simulated.device (.queued (some 5))) (9 <<< 20) .sparse 1).run () unevenDevice

theorem createWith_backs_uneven :
    ∃ backing, unevenAttempt.ending = .done ⟨1, 9 <<< 20, [2, 3], 0, .sparse⟩ ∧
      FullyBacks (.queued (some 5)) ⟨1, 9 <<< 20, [2, 3], 0, .sparse⟩
        ⟨(9 <<< 20) + 1000, 3 <<< 20, 7⟩ backing ∧
      allocatedBytes backing ≤ (9 <<< 20) + 1000 ∧ [2, 3].Nodup := by
  have hending : unevenAttempt.ending = .done ⟨1, 9 <<< 20, [2, 3], 0, .sparse⟩ := by
    decide +kernel
  have hasked : unevenAttempt.events[1]? =
      some (.call (.requirements 1 ⟨(9 <<< 20) + 1000, 3 <<< 20, 7⟩)) := by
    decide +kernel
  obtain ⟨hdone, hallocated, _⟩ := createWith_backs (Outcome.eta unevenAttempt)
  obtain ⟨_, _, ⟨needs, backing, hevents, hbacks⟩, hnodup⟩ := hdone _ hending
  rw [hevents] at hasked
  obtain rfl : needs = ⟨(9 <<< 20) + 1000, 3 <<< 20, 7⟩ := by simpa [opening] using hasked
  exact ⟨backing, hending, hbacks, hallocated _ _ _ hevents,
    hnodup _ _ Ledger.holds_empty (by decide +kernel)⟩

end GuestReplica.Store
