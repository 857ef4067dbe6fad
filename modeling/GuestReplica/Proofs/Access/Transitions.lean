import Mathlib.Data.List.Chain
import GuestReplica.Access.Tracker

set_option autoImplicit false

/-!
# Transitions along declared uses

Uses of a buffer are declared one after the other.  A tracker knows the last use and
nothing before it, so what becomes visible before a use is a matter of that use and the
one that it follows.  The transitions that do happen form a chain of modes from the
first use to the last.
-/

namespace GuestReplica.Access

/-- A use of a buffer: its mode, and the bytes that it claims to write. -/
structure Declaration where
  mode : Mode
  written : Span
  deriving DecidableEq, Repr, Inhabited

/-- The use that the first declared one follows: nothing is written yet, and the buffer
is about to be filled. -/
def Declaration.initial : Declaration := ⟨.transferDestination, Span.empty⟩

namespace Tracker

/-- Declares uses in order, until one is refused.  Answers with what has to become
visible before each of them. -/
def declareAll (t : Tracker) : List Declaration →
    Except Violation (List (Option Transition) × Tracker)
  | [] => .ok ([], t)
  | use :: rest => do
    let (answer, next) ← t.declare use.mode use.written
    let (answers, last) ← declareAll next rest
    return (answer :: answers, last)

theorem declareAll_cons_eq_ok {t t' : Tracker} {use : Declaration} {rest : List Declaration}
    {answers : List (Option Transition)} (h : t.declareAll (use :: rest) = .ok (answers, t')) :
    ∃ others, answers = t.transition? use.mode :: others ∧ t.Allows use.mode use.written ∧
      (t.advance use.mode use.written).declareAll rest = .ok (others, t') := by
  rw [declareAll] at h
  cases hdeclare : t.declare use.mode use.written with
  | error v =>
    rw [hdeclare] at h
    cases h
  | ok declared =>
    obtain ⟨answer, next⟩ := declared
    obtain ⟨hallows, rfl, rfl⟩ := declare_eq_ok_iff.mp hdeclare
    rw [hdeclare] at h
    cases hrest : (t.advance use.mode use.written).declareAll rest with
    | error v => simp [bind, Except.bind, hrest] at h
    | ok rested =>
      obtain ⟨others, last⟩ := rested
      simp only [bind, Except.bind, hrest, pure, Except.pure] at h
      cases h
      exact ⟨others, rfl, hallows, rfl⟩

/-- The tracker of a buffer of `size` bytes that was used last as declared. -/
def after (size : Nat) (use : Declaration) : Tracker := ⟨size, use.mode, use.written.clamp size⟩

theorem new_eq_after (size : Nat) : new size = after size .initial := by
  simp [new, after, Declaration.initial, Span.clamp, Span.empty]

theorem advance_after (size : Nat) (last use : Declaration) :
    (after size last).advance use.mode use.written = after size use := rfl

/-- A transition leads from the mode of the tracker to the mode that is declared. -/
theorem ends_of_transition? {t : Tracker} {mode : Mode} {transition : Transition}
    (h : t.transition? mode = some transition) :
    transition.source = t.mode ∧ transition.target = mode := by
  unfold transition? at h
  split at h
  · cases h
    exact ⟨rfl, rfl⟩
  · split at h
    · cases h
    · cases h
      exact ⟨rfl, rfl⟩

end Tracker

/-! ## One use after another -/

/-- The answer to a use of a buffer of `size` bytes that follows another one.  It is a
transition if the mode changes or the use before has written something.  The transition
covers the whole buffer if the mode changes, and otherwise what the use before has
written; so it covers that in any case. -/
structure Follows (size : Nat) (last use : Declaration) (answer : Option Transition) : Prop where
  isSome_iff : answer.isSome ↔ use.mode ≠ last.mode ∨ ¬ (last.written.clamp size).IsEmpty
  source_eq : ∀ transition ∈ answer, transition.source = last.mode
  target_eq : ∀ transition ∈ answer, transition.target = use.mode
  coversAll_iff : ∀ transition ∈ answer, transition.coversAll ↔ use.mode ≠ last.mode
  span_eq : ∀ transition ∈ answer, use.mode = last.mode →
    transition.span = last.written.clamp size
  mem_span : ∀ transition ∈ answer, ∀ x ∈ last.written, x < size → x ∈ transition.span

/-- No buffer is so large that what was written of it could be taken for "all". -/
theorem clamp_ne_all {size : Nat} (hsize : size < Size.whole) (s : Span) :
    s.clamp size ≠ Span.all := by
  intro hall
  have hstop := s.stop_clamp_le size
  rw [hall] at hstop
  exact Nat.not_le_of_lt hsize hstop

theorem follows_transition? {size : Nat} (hsize : size < Size.whole) (last use : Declaration) :
    Follows size last use ((Tracker.after size last).transition? use.mode) := by
  by_cases hmode : use.mode = last.mode
  · have hpart := clamp_ne_all hsize last.written
    by_cases hempty : (last.written.clamp size).IsEmpty
    · have hnone : (Tracker.after size last).transition? use.mode = none :=
        Tracker.transition?_eq_none_iff.mpr ⟨hmode, hempty⟩
      rw [hnone]
      exact ⟨by simp [hmode, hempty], nofun, nofun, nofun, nofun, nofun⟩
    · -- the mode stays, and what was written is committed
      have hsome : (Tracker.after size last).transition? use.mode =
          some ⟨last.mode, use.mode, last.written.clamp size⟩ := by
        simp [Tracker.transition?, Tracker.after, hmode, hempty]
      rw [hsome]
      refine ⟨by simp [hempty], ?_, ?_, ?_, ?_, ?_⟩ <;> rintro transition ⟨⟩
      · rfl
      · rfl
      · simp [Transition.coversAll, hmode, hpart]
      · exact fun _ => rfl
      · exact fun x hx hlt => Span.mem_clamp.mpr ⟨hx, hlt⟩
  · -- the mode changes, so everything has to become visible
    have hsome : (Tracker.after size last).transition? use.mode =
        some ⟨last.mode, use.mode, Span.all⟩ := by
      simp [Tracker.transition?, Tracker.after, hmode]
    rw [hsome]
    refine ⟨by simp [hmode], ?_, ?_, ?_, ?_, ?_⟩ <;> rintro transition ⟨⟩
    · rfl
    · rfl
    · simp [Transition.coversAll, hmode]
    · exact fun hsame => absurd hsame hmode
    · exact fun x _ hx => Span.mem_iff.mpr ⟨Nat.zero_le x, Nat.lt_trans hx hsize⟩

/-! ## Chains of transitions -/

/-- Transitions that lead from a mode to a mode, each of them from where the one before
has led to. -/
structure Chained (start : Mode) (transitions : List Transition) (stop : Mode) : Prop where
  first_source : ∀ first ∈ transitions.head?, first.source = start
  linked : transitions.IsChain fun earlier later => later.source = earlier.target
  last_target : stop = (transitions.getLast?.map (·.target)).getD start

theorem Chained.nil (mode : Mode) : Chained mode [] mode :=
  ⟨by simp, List.isChain_nil, rfl⟩

theorem Chained.cons {transition : Transition} {transitions : List Transition} {stop : Mode}
    (h : Chained transition.target transitions stop) :
    Chained transition.source (transition :: transitions) stop := by
  refine ⟨by simp, List.isChain_cons.mpr ⟨h.first_source, h.linked⟩, ?_⟩
  rw [h.last_target]
  cases transitions with
  | nil => rfl
  | cons next rest => simp [List.getLast?_eq_some_getLast]

/-! ## Sequences of uses -/

namespace Tracker

variable {size : Nat} {last : Declaration} {uses : List Declaration} {t t' : Tracker}
variable {answers : List (Option Transition)}

/-- A sequence that is declared can be cut between any two of its uses. -/
theorem declareAll_append_eq_ok {earlier later : List Declaration}
    (h : t.declareAll (earlier ++ later) = .ok (answers, t')) :
    ∃ first t₁ second, t.declareAll earlier = .ok (first, t₁) ∧
      t₁.declareAll later = .ok (second, t') ∧ answers = first ++ second := by
  induction earlier generalizing t answers with
  | nil => exact ⟨[], t, answers, rfl, h, rfl⟩
  | cons use rest ih =>
    obtain ⟨others, rfl, hallows, hrest⟩ := declareAll_cons_eq_ok h
    obtain ⟨first, t₁, second, hfirst, hsecond, rfl⟩ := ih hrest
    have hdeclare := declare_eq_ok_iff.mpr ⟨hallows, rfl, rfl⟩
    refine ⟨t.transition? use.mode :: first, t₁, second, ?_, hsecond, rfl⟩
    simp [declareAll, hdeclare, hfirst, bind, Except.bind, pure, Except.pure]

theorem follows_declareAll (hsize : size < Size.whole)
    (h : (after size last).declareAll uses = .ok (answers, t)) :
    answers.length = uses.length ∧
      ∀ {i : Nat} {earlier use answer}, (last :: uses)[i]? = some earlier → uses[i]? = some use →
        answers[i]? = some answer → Follows size earlier use answer := by
  induction uses generalizing last answers with
  | nil =>
    cases h
    exact ⟨rfl, fun _ huse => by cases huse⟩
  | cons next rest ih =>
    obtain ⟨others, rfl, _, hrest⟩ := declareAll_cons_eq_ok h
    rw [advance_after] at hrest
    obtain ⟨hlength, hothers⟩ := ih hrest
    refine ⟨by simp [hlength], ?_⟩
    intro i earlier use answer hearlier huse hanswer
    cases i with
    | zero =>
      cases hearlier
      cases huse
      cases hanswer
      exact follows_transition? hsize last next
    | succ i => exact hothers hearlier huse hanswer

/-- The transitions lead from the mode of the use before to the mode of the last one. -/
theorem chained_declareAll (h : (after size last).declareAll uses = .ok (answers, t)) :
    Chained last.mode (answers.filterMap id) t.mode := by
  induction uses generalizing last answers with
  | nil =>
    cases h
    exact .nil _
  | cons use rest ih =>
    obtain ⟨others, rfl, _, hrest⟩ := declareAll_cons_eq_ok h
    rw [advance_after] at hrest
    have hothers := ih hrest
    cases htransition : (after size last).transition? use.mode with
    | none =>
      have hmode : use.mode = last.mode := (transition?_eq_none_iff.mp htransition).1
      rw [hmode] at hothers
      exact hothers
    | some transition =>
      obtain ⟨hsource, htarget⟩ := ends_of_transition? htransition
      rw [← htarget] at hothers
      have hchained := hothers.cons
      rw [hsource] at hchained
      exact hchained

/-- What a tracker knows of the last use: its mode, and the bytes of the buffer that it
has written, which are some only if it was a writing one. -/
structure Remembers (t : Tracker) (size : Nat) (use : Declaration) : Prop where
  mode_eq : t.mode = use.mode
  start_le_stop : t.pending.start ≤ t.pending.stop
  stop_le_size : t.pending.stop ≤ size
  mem_pending_iff : ∀ x, x ∈ t.pending ↔ x ∈ use.written ∧ x < size
  isWrite_of_pending : ¬ t.pending.IsEmpty → t.mode.isWrite

theorem remembers_after {use : Declaration}
    (h : use.mode.isWrite ∨ (use.written.clamp size).IsEmpty) :
    (after size use).Remembers size use :=
  ⟨rfl, use.written.start_le_stop_clamp size, use.written.stop_clamp_le size,
    fun _ => Span.mem_clamp, fun hpending => h.resolve_right hpending⟩

theorem remembers_declareAll (hlast : last.mode.isWrite ∨ (last.written.clamp size).IsEmpty)
    (h : (after size last).declareAll uses = .ok (answers, t)) :
    t.Remembers size (uses.getLast?.getD last) := by
  induction uses generalizing last answers with
  | nil =>
    cases h
    exact remembers_after hlast
  | cons use rest ih =>
    obtain ⟨others, rfl, hallows, hrest⟩ := declareAll_cons_eq_ok h
    rw [advance_after] at hrest
    have hremembers := ih hallows hrest
    rw [List.getLast?_cons, Option.getD_some]
    exact hremembers

/-- Let uses of a buffer be declared one after the other, none of which is refused.
Then what becomes visible before a use is as the use before it demands, and the
transitions form a chain from the initial mode to that of the last use.  At any time
between, the tracker remembers the last use. -/
theorem transitions_of_declareAll (hsize : size < Size.whole)
    (h : (new size).declareAll uses = .ok (answers, t)) :
    (answers.length = uses.length ∧
      ∀ {i : Nat} {last use answer}, (Declaration.initial :: uses)[i]? = some last →
        uses[i]? = some use → answers[i]? = some answer → Follows size last use answer) ∧
    Chained .transferDestination (answers.filterMap id) t.mode ∧
    ∀ {earlier later}, uses = earlier ++ later →
      ∃ first t₁, (new size).declareAll earlier = .ok (first, t₁) ∧ first <+: answers ∧
        t₁.Remembers size (earlier.getLast?.getD .initial) := by
  rw [new_eq_after] at h ⊢
  refine ⟨follows_declareAll hsize h, chained_declareAll h, ?_⟩
  rintro earlier later rfl
  obtain ⟨first, t₁, second, hfirst, _, rfl⟩ := declareAll_append_eq_ok h
  exact ⟨first, t₁, hfirst, List.prefix_append _ _, remembers_declareAll (.inl rfl) hfirst⟩

/-- A draw writes some bytes that the buffer has and some that it has not.  Then it draws
again, with a reversed span, which holds no byte, and the buffer is read. -/
def drawnTwice : List Declaration :=
  [⟨.guestDraw, ⟨16, 64⟩⟩, ⟨.guestDraw, ⟨48, 8⟩⟩, ⟨.read, Span.empty⟩]

/-- What becomes visible before each of these uses. -/
def drawnTwiceAnswers : List (Option Transition) :=
  [some ⟨.transferDestination, .guestDraw, Span.all⟩, some ⟨.guestDraw, .guestDraw, ⟨16, 32⟩⟩,
    some ⟨.guestDraw, .read, Span.all⟩]

/-- What was drawn first is committed before the second draw, and until then it is what the
tracker remembers. -/
theorem transitions_of_declareAll_drawnTwice :
    (new 32).declareAll drawnTwice = .ok (drawnTwiceAnswers, ⟨32, .read, Span.empty⟩) ∧
      Follows 32 ⟨.guestDraw, ⟨16, 64⟩⟩ ⟨.guestDraw, ⟨48, 8⟩⟩
        (some ⟨.guestDraw, .guestDraw, ⟨16, 32⟩⟩) ∧
      Chained .transferDestination (drawnTwiceAnswers.filterMap id) .read ∧
      ∃ first t, (new 32).declareAll [⟨.guestDraw, ⟨16, 64⟩⟩] = .ok (first, t) ∧
        first <+: drawnTwiceAnswers ∧ t.Remembers 32 ⟨.guestDraw, ⟨16, 64⟩⟩ := by
  have hsize : 32 < Size.whole := by decide
  have hdeclared : (new 32).declareAll drawnTwice =
      .ok (drawnTwiceAnswers, ⟨32, .read, Span.empty⟩) := by rfl
  obtain ⟨⟨_, hfollows⟩, hchained, hremembers⟩ := transitions_of_declareAll hsize hdeclared
  have hcut : drawnTwice =
      [⟨.guestDraw, ⟨16, 64⟩⟩] ++ [⟨.guestDraw, ⟨48, 8⟩⟩, ⟨.read, Span.empty⟩] := rfl
  exact ⟨hdeclared, hfollows (i := 1) rfl rfl rfl, hchained, hremembers hcut⟩

end Tracker

end GuestReplica.Access
