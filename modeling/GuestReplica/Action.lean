import GuestReplica.Event
import GuestReplica.Violation

set_option autoImplicit false

/-!
# Actions: operations with a subject, a device and events

An action works on a subject of type `τ` while a device of state `σ` answers its
calls.  It ends in one of three ways: with a value, with an error of type `ε`
that it hands back, or with a violation.  Whichever way it ends, the subject and
the device are left as they were at that point, and the events that led there
are all in the outcome: nothing is rolled back.
-/

namespace GuestReplica

/-- How an action ends. -/
inductive Ending (ε α : Type) where
  | done (value : α)
  | failed (error : ε)
  | broken (violation : Violation)
  deriving DecidableEq, Repr

/-- What an action leaves. -/
structure Outcome (τ ε σ α : Type) where
  ending : Ending ε α
  subject : τ
  device : σ
  events : List Event

namespace Outcome

variable {τ υ ε δ σ α β : Type}

/-- The outcome when other events have come before. -/
def after (events : List Event) (o : Outcome τ ε σ α) : Outcome τ ε σ α :=
  { o with events := events ++ o.events }

/-- The outcome when the work goes on with the value, if there is one. -/
def andThen (o : Outcome τ ε σ α) (next : α → τ → σ → Outcome τ ε σ β) :
    Outcome τ ε σ β :=
  match o.ending with
  | .done a => (next a o.subject o.device).after o.events
  | .failed e => ⟨.failed e, o.subject, o.device, o.events⟩
  | .broken v => ⟨.broken v, o.subject, o.device, o.events⟩

/-- The outcome with another value, if there is one. -/
def map (f : α → β) (o : Outcome τ ε σ α) : Outcome τ ε σ β :=
  o.andThen fun a t s => ⟨.done (f a), t, s, []⟩

/-- The outcome when an error counts as a value. -/
def caught (o : Outcome τ ε σ α) : Outcome τ δ σ (Except ε α) :=
  match o.ending with
  | .done a => ⟨.done (.ok a), o.subject, o.device, o.events⟩
  | .failed e => ⟨.done (.error e), o.subject, o.device, o.events⟩
  | .broken v => ⟨.broken v, o.subject, o.device, o.events⟩

/-- The outcome for a subject of which the part was worked on. -/
def within (put : υ → τ → τ) (t : τ) (o : Outcome υ ε σ α) : Outcome τ ε σ α :=
  ⟨o.ending, put o.subject t, o.device, o.events⟩

section

variable (t : τ) (s : σ) (events : List Event)

@[simp] theorem after_mk (ending : Ending ε α) (earlier : List Event) :
    (⟨ending, t, s, events⟩ : Outcome τ ε σ α).after earlier =
      ⟨ending, t, s, earlier ++ events⟩ := rfl

@[simp] theorem andThen_done (a : α) (next : α → τ → σ → Outcome τ ε σ β) :
    (⟨.done a, t, s, events⟩ : Outcome τ ε σ α).andThen next =
      (next a t s).after events := rfl

@[simp] theorem andThen_failed (e : ε) (next : α → τ → σ → Outcome τ ε σ β) :
    (⟨.failed e, t, s, events⟩ : Outcome τ ε σ α).andThen next =
      ⟨.failed e, t, s, events⟩ := rfl

@[simp] theorem andThen_broken (v : Violation) (next : α → τ → σ → Outcome τ ε σ β) :
    (⟨.broken v, t, s, events⟩ : Outcome τ ε σ α).andThen next =
      ⟨.broken v, t, s, events⟩ := rfl

@[simp] theorem map_done (f : α → β) (a : α) :
    (⟨.done a, t, s, events⟩ : Outcome τ ε σ α).map f = ⟨.done (f a), t, s, events⟩ := by
  simp [map]

@[simp] theorem map_failed (f : α → β) (e : ε) :
    (⟨.failed e, t, s, events⟩ : Outcome τ ε σ α).map f = ⟨.failed e, t, s, events⟩ := rfl

@[simp] theorem map_broken (f : α → β) (v : Violation) :
    (⟨.broken v, t, s, events⟩ : Outcome τ ε σ α).map f = ⟨.broken v, t, s, events⟩ := rfl

@[simp] theorem caught_done (a : α) :
    (⟨.done a, t, s, events⟩ : Outcome τ ε σ α).caught =
      (⟨.done (.ok a), t, s, events⟩ : Outcome τ δ σ (Except ε α)) := rfl

@[simp] theorem caught_failed (e : ε) :
    (⟨.failed e, t, s, events⟩ : Outcome τ ε σ α).caught =
      (⟨.done (.error e), t, s, events⟩ : Outcome τ δ σ (Except ε α)) := rfl

@[simp] theorem caught_broken (v : Violation) :
    (⟨.broken v, t, s, events⟩ : Outcome τ ε σ α).caught =
      (⟨.broken v, t, s, events⟩ : Outcome τ δ σ (Except ε α)) := rfl

@[simp] theorem within_mk (put : υ → τ → τ) (part : υ) (ending : Ending ε α) :
    (⟨ending, part, s, events⟩ : Outcome υ ε σ α).within put t =
      ⟨ending, put part t, s, events⟩ := rfl

end

@[simp] theorem after_nil (o : Outcome τ ε σ α) : o.after [] = o := rfl

@[simp] theorem after_after (o : Outcome τ ε σ α) (earlier earliest : List Event) :
    (o.after earlier).after earliest = o.after (earliest ++ earlier) := by
  simp [after, List.append_assoc]

@[simp] theorem ending_after (o : Outcome τ ε σ α) (earlier : List Event) :
    (o.after earlier).ending = o.ending := rfl

@[simp] theorem subject_after (o : Outcome τ ε σ α) (earlier : List Event) :
    (o.after earlier).subject = o.subject := rfl

@[simp] theorem device_after (o : Outcome τ ε σ α) (earlier : List Event) :
    (o.after earlier).device = o.device := rfl

@[simp] theorem events_after (o : Outcome τ ε σ α) (earlier : List Event) :
    (o.after earlier).events = earlier ++ o.events := rfl

theorem andThen_andThen {γ : Type} (o : Outcome τ ε σ α) (f : α → τ → σ → Outcome τ ε σ β)
    (g : β → τ → σ → Outcome τ ε σ γ) :
    (o.andThen f).andThen g = o.andThen fun a t s => (f a t s).andThen g := by
  obtain ⟨ending, t, s, events⟩ := o
  cases ending with
  | done a =>
    simp only [andThen_done]
    obtain ⟨ending, t', s', events'⟩ := f a t s
    cases ending <;> simp
  | failed e => simp
  | broken v => simp

end Outcome

/-- An operation on a subject, beside a device. -/
def Action (τ ε σ α : Type) : Type := τ → σ → Outcome τ ε σ α

namespace Action

variable {τ υ ε δ σ α β : Type}

/-- The outcome of an action on a given subject and device state. -/
def run (x : Action τ ε σ α) (t : τ) (s : σ) : Outcome τ ε σ α := x t s

instance : Monad (Action τ ε σ) where
  pure a := fun t s => ⟨.done a, t, s, []⟩
  bind x f := fun t s => (x.run t s).andThen fun a t s => (f a).run t s

/-- Hands an error back. -/
def fail (e : ε) : Action τ ε σ α := fun t s => ⟨.failed e, t, s, []⟩

/-- Stops with a violation. -/
def violate (v : Violation) : Action τ ε σ α := fun t s => ⟨.broken v, t, s, []⟩

/-- The subject as it is now. -/
def subject : Action τ ε σ τ := fun t s => ⟨.done t, t, s, []⟩

/-- Replaces the subject by its image. -/
def update (f : τ → τ) : Action τ ε σ Unit := fun t s => ⟨.done (), f t, s, []⟩

/-- Lets events happen. -/
def emit (events : List Event) : Action τ ε σ Unit := fun t s => ⟨.done (), t, s, events⟩

/-- Lets the device answer, and notes the event that this was. -/
def ask (answer : σ → α × σ) (event : α → Event) : Action τ ε σ α := fun t s =>
  let answered := answer s
  ⟨.done answered.1, t, answered.2, [event answered.1]⟩

/-- Lets the device change, and notes the event that this was. -/
def tell (change : σ → σ) (event : Event) : Action τ ε σ Unit := fun t s =>
  ⟨.done (), t, change s, [event]⟩

/-- Goes on with the value of a checked computation, or stops with its violation. -/
def check : Except Violation α → Action τ ε σ α
  | .ok a => pure a
  | .error v => violate v

/-- Goes on with the value that the device answered, or hands its code back. -/
def accept (error : Code → ε) : Answer α → Action τ ε σ α
  | .ok a => pure a
  | .failed code => fail (error code)

/-- Turns an error into a value, so that the caller can go on.  Violations still stop. -/
def attempt (x : Action τ ε σ α) : Action τ δ σ (Except ε α) := fun t s =>
  (x.run t s).caught

/-- Works on a part of the subject.  The part is put back whichever way the work ends. -/
def focus (part : υ) (put : υ → τ → τ) (x : Action υ ε σ α) : Action τ ε σ α := fun t s =>
  (x.run part s).within put t

/-! ## Outcomes of the building blocks -/

section

variable (t : τ) (s : σ)

@[simp] theorem run_pure (a : α) :
    (pure a : Action τ ε σ α).run t s = ⟨.done a, t, s, []⟩ := rfl

@[simp] theorem run_bind (x : Action τ ε σ α) (f : α → Action τ ε σ β) :
    (x >>= f).run t s = (x.run t s).andThen fun a t s => (f a).run t s := rfl

@[simp] theorem run_map (f : α → β) (x : Action τ ε σ α) :
    (f <$> x).run t s = (x.run t s).map f := rfl

@[simp] theorem run_fail (e : ε) :
    (fail e : Action τ ε σ α).run t s = ⟨.failed e, t, s, []⟩ := rfl

@[simp] theorem run_violate (v : Violation) :
    (violate v : Action τ ε σ α).run t s = ⟨.broken v, t, s, []⟩ := rfl

@[simp] theorem run_subject :
    (subject : Action τ ε σ τ).run t s = ⟨.done t, t, s, []⟩ := rfl

@[simp] theorem run_update (f : τ → τ) :
    (update f : Action τ ε σ Unit).run t s = ⟨.done (), f t, s, []⟩ := rfl

@[simp] theorem run_emit (events : List Event) :
    (emit events : Action τ ε σ Unit).run t s = ⟨.done (), t, s, events⟩ := rfl

@[simp] theorem run_ask (answer : σ → α × σ) (event : α → Event) :
    (ask answer event : Action τ ε σ α).run t s =
      ⟨.done (answer s).1, t, (answer s).2, [event (answer s).1]⟩ := rfl

@[simp] theorem run_tell (change : σ → σ) (event : Event) :
    (tell change event : Action τ ε σ Unit).run t s = ⟨.done (), t, change s, [event]⟩ := rfl

@[simp] theorem run_attempt (x : Action τ ε σ α) :
    (x.attempt : Action τ δ σ (Except ε α)).run t s = (x.run t s).caught := rfl

@[simp] theorem run_focus (part : υ) (put : υ → τ → τ) (x : Action υ ε σ α) :
    (focus part put x).run t s = (x.run part s).within put t := rfl

end

@[simp] theorem check_ok (a : α) :
    (check (.ok a) : Action τ ε σ α) = pure a := rfl

@[simp] theorem check_error (v : Violation) :
    (check (.error v) : Action τ ε σ α) = violate v := rfl

@[simp] theorem accept_ok (error : Code → ε) (a : α) :
    (accept error (.ok a) : Action τ ε σ α) = pure a := rfl

@[simp] theorem accept_failed (error : Code → ε) (code : Code) :
    (accept error (.failed code) : Action τ ε σ α) = fail (error code) := rfl

/-- Actions are equal when they have the same outcome everywhere. -/
theorem ext {x y : Action τ ε σ α} (h : ∀ t s, x.run t s = y.run t s) : x = y :=
  funext fun t => funext fun s => h t s

instance : LawfulMonad (Action τ ε σ) := LawfulMonad.mk' (Action τ ε σ)
  (by
    intro α x
    refine ext fun t s => ?_
    rw [run_map]
    obtain ⟨ending, t', s', events⟩ := x.run t s
    cases ending <;> simp)
  (by
    intro α β a f
    exact ext fun t s => by simp)
  (by
    intro α β γ x f g
    refine ext fun t s => ?_
    simp only [run_bind, Outcome.andThen_andThen])

end Action

end GuestReplica
