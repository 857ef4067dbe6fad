set_option autoImplicit false

/-!
# Sizes, rounding and byte spans

Sizes and offsets on the device are natural numbers below `2 ^ 64`.  A sum that
could leave this range is computed by `Size.roundUp?`, which answers `none`
there, so no size ever wraps around.  A `Span` is a half-open range of bytes;
`Span.all` stands for "from the first byte to the end", whatever the length.
-/

namespace GuestReplica

namespace Size

/-- Every size and offset is below this bound. -/
def limit : Nat := 1 <<< 64

/-- The size that means "up to the end". -/
def whole : Nat := limit - 1

/-- The greatest multiple of `unit` that is at most `value`. -/
def roundDown (value unit : Nat) : Nat := value / unit * unit

/-- The least multiple of `unit` that is at least `value`. -/
def roundUp (value unit : Nat) : Nat := (value + unit - 1) / unit * unit

/-- Rounds up, unless the sum of both numbers is no size. -/
def roundUp? (value unit : Nat) : Option Nat :=
  if value + unit < limit then some (roundUp value unit) else none

/-- The number has a single bit set. -/
def IsPowerOfTwo (n : Nat) : Prop := n ≠ 0 ∧ 1 <<< n.log2 = n

instance (n : Nat) : Decidable (IsPowerOfTwo n) :=
  inferInstanceAs (Decidable (_ ∧ _))

theorem roundDown_le (value unit : Nat) : roundDown value unit ≤ value :=
  Nat.div_mul_le_self value unit

theorem dvd_roundDown (value unit : Nat) : unit ∣ roundDown value unit :=
  Nat.dvd_mul_left unit (value / unit)

theorem dvd_roundUp (value unit : Nat) : unit ∣ roundUp value unit :=
  Nat.dvd_mul_left unit _

theorem le_roundUp {unit : Nat} (value : Nat) (h : 0 < unit) :
    value ≤ roundUp value unit := by
  have hq := Nat.div_add_mod (value + unit - 1) unit
  have hr := Nat.mod_lt (value + unit - 1) h
  rw [Nat.mul_comm] at hq
  unfold roundUp
  omega

theorem roundUp_lt_add {unit : Nat} (value : Nat) (h : 0 < unit) :
    roundUp value unit < value + unit := by
  have := Nat.div_mul_le_self (value + unit - 1) unit
  unfold roundUp
  omega

/-- No multiple of `unit` lies between `value` and the rounded value. -/
theorem roundUp_le {value unit bound : Nat} (h : 0 < unit) (hd : unit ∣ bound)
    (hb : value ≤ bound) : roundUp value unit ≤ bound := by
  obtain ⟨k, rfl⟩ := hd
  have hlt : (value + unit - 1) / unit < k + 1 := by
    rw [Nat.div_lt_iff_lt_mul h, Nat.add_mul, Nat.mul_comm k]
    omega
  unfold roundUp
  rw [Nat.mul_comm unit]
  exact Nat.mul_le_mul_right unit (by omega)

theorem roundUp_of_dvd {value unit : Nat} (h : 0 < unit) (hd : unit ∣ value) :
    roundUp value unit = value :=
  Nat.le_antisymm (roundUp_le h hd (Nat.le_refl value)) (le_roundUp value h)

theorem roundUp?_eq_some_iff {value unit size : Nat} :
    roundUp? value unit = some size ↔ value + unit < limit ∧ roundUp value unit = size := by
  unfold roundUp?
  split
  · simp_all
  · simp only [reduceCtorEq, false_iff, not_and]
    omega

theorem roundUp?_eq_none_iff {value unit : Nat} :
    roundUp? value unit = none ↔ limit ≤ value + unit := by
  unfold roundUp?
  split <;> simp_all

theorem isPowerOfTwo_one_shiftLeft (k : Nat) : IsPowerOfTwo (1 <<< k) := by
  rw [Nat.one_shiftLeft]
  refine ⟨Nat.pos_iff_ne_zero.1 (Nat.two_pow_pos k), ?_⟩
  rw [Nat.log2_two_pow, Nat.one_shiftLeft]

theorem IsPowerOfTwo.pos {n : Nat} (h : IsPowerOfTwo n) : 0 < n :=
  Nat.pos_of_ne_zero h.1

end Size

/-- The bytes from `start` up to, but not including, `stop`. -/
structure Span where
  start : Nat
  stop : Nat
  deriving DecidableEq, Repr, Inhabited

namespace Span

/-- From the first byte to the end, whatever the length. -/
def all : Span := ⟨0, Size.whole⟩

/-- The span that holds no byte and starts at none. -/
def empty : Span := ⟨0, 0⟩

/-- The number of bytes from start to stop. -/
def size (s : Span) : Nat := s.stop - s.start

/-- No byte lies in the span; a reversed span is empty, too. -/
def IsEmpty (s : Span) : Prop := s.stop ≤ s.start

instance (s : Span) : Decidable s.IsEmpty :=
  inferInstanceAs (Decidable (_ ≤ _))

instance : Membership Nat Span where
  mem s x := s.start ≤ x ∧ x < s.stop

instance (x : Nat) (s : Span) : Decidable (x ∈ s) :=
  inferInstanceAs (Decidable (_ ∧ _))

/-- The part of the span that lies in the first `limit` bytes. -/
def clamp (s : Span) (limit : Nat) : Span :=
  let start := min s.start limit
  ⟨start, max start (min s.stop limit)⟩

theorem mem_iff {x : Nat} {s : Span} : x ∈ s ↔ s.start ≤ x ∧ x < s.stop :=
  Iff.rfl

theorem isEmpty_iff {s : Span} : s.IsEmpty ↔ ∀ x, ¬ x ∈ s := by
  simp only [IsEmpty, mem_iff]
  constructor
  · intro h x hx
    omega
  · intro h
    have := h s.start
    omega

@[simp] theorem isEmpty_empty : empty.IsEmpty := Nat.le_refl 0

theorem mem_clamp {x limit : Nat} {s : Span} :
    x ∈ s.clamp limit ↔ x ∈ s ∧ x < limit := by
  simp only [mem_iff, clamp]
  omega

theorem start_le_stop_clamp (s : Span) (limit : Nat) :
    (s.clamp limit).start ≤ (s.clamp limit).stop :=
  Nat.le_max_left _ _

theorem stop_clamp_le (s : Span) (limit : Nat) : (s.clamp limit).stop ≤ limit := by
  simp only [clamp]
  omega

end Span

end GuestReplica
