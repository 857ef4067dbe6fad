import GuestReplica.Action

set_option autoImplicit false

/-!
# Runs

A client uses a subject in any order and with any arguments: the uses are the
elements of a type, and each of them has an action.  A run is what comes of that,
step by step.  A step that fails or stops does not end a run: the next one works on
the subject and the device as they were left.
-/

namespace GuestReplica

variable {τ ε σ α υ : Type}

theorem Outcome.eta (o : Outcome τ ε σ α) : o = ⟨o.ending, o.subject, o.device, o.events⟩ := rfl

/-- The action was not stopped: it has answered, or handed an error back. -/
def Ending.Returns (ending : Ending ε α) : Prop := ∀ v, ending ≠ .broken v

theorem Ending.returns_done (value : α) : (done value : Ending ε α).Returns := by
  intro v h
  cases h

theorem Ending.returns_failed (error : ε) : (failed error : Ending ε α).Returns := by
  intro v h
  cases h

/-- A step of a run, with its answer and what happened meanwhile. -/
structure Step (υ ε α : Type) where
  use : υ
  answer : Ending ε α
  events : List Event
  deriving DecidableEq

/-- The runs of actions from a subject and a device to a subject and a device. -/
inductive Runs (action : υ → Action τ ε σ α) : τ → σ → List (Step υ ε α) → τ → σ → Prop where
  | nil (t : τ) (s : σ) : Runs action t s [] t s
  | cons {t t₁ t₂ : τ} {s s₁ s₂ : σ} {use : υ} {answer : Ending ε α} {events : List Event}
      {steps : List (Step υ ε α)} (hstep : (action use).run t s = ⟨answer, t₁, s₁, events⟩)
      (hrest : Runs action t₁ s₁ steps t₂ s₂) :
      Runs action t s (⟨use, answer, events⟩ :: steps) t₂ s₂

/-- What happened in some steps, in order. -/
def eventsOf (steps : List (Step υ ε α)) : List Event := steps.flatMap (·.events)

@[simp] theorem eventsOf_nil : eventsOf ([] : List (Step υ ε α)) = [] := rfl

@[simp] theorem eventsOf_cons (step : Step υ ε α) (steps : List (Step υ ε α)) :
    eventsOf (step :: steps) = step.events ++ eventsOf steps := rfl

@[simp] theorem eventsOf_append (first second : List (Step υ ε α)) :
    eventsOf (first ++ second) = eventsOf first ++ eventsOf second :=
  List.flatMap_append

/-- The run in which a client does some things in order: its steps, and what they
leave. -/
def play (action : υ → Action τ ε σ α) (t : τ) (s : σ) : List υ → List (Step υ ε α) × τ × σ
  | [] => ([], t, s)
  | use :: rest =>
    let o := (action use).run t s
    let played := play action o.subject o.device rest
    (⟨use, o.ending, o.events⟩ :: played.1, played.2)

variable {action : υ → Action τ ε σ α} {t t' : τ} {s s' : σ}

/-- Whatever a client does is a run. -/
theorem runs_play (action : υ → Action τ ε σ α) (t : τ) (s : σ) (uses : List υ) :
    Runs action t s (play action t s uses).1 (play action t s uses).2.1
      (play action t s uses).2.2 := by
  induction uses generalizing t s with
  | nil => exact .nil t s
  | cons use rest ih => exact .cons rfl (ih _ _)

namespace Runs

/-- A run starts with the action of its first step. -/
theorem uncons {step : Step υ ε α} {rest : List (Step υ ε α)}
    (h : Runs action t s (step :: rest) t' s') :
    ∃ t₁ s₁, (action step.use).run t s = ⟨step.answer, t₁, s₁, step.events⟩ ∧
      Runs action t₁ s₁ rest t' s' := by
  cases h with
  | cons hstep hrest => exact ⟨_, _, hstep, hrest⟩

/-- A run can be cut between any two of its steps. -/
theorem split {first second : List (Step υ ε α)} (h : Runs action t s (first ++ second) t' s') :
    ∃ t₁ s₁, Runs action t s first t₁ s₁ ∧ Runs action t₁ s₁ second t' s' := by
  induction first generalizing t s with
  | nil => exact ⟨t, s, .nil t s, h⟩
  | cons step rest ih =>
    cases h with
    | cons hstep hrest =>
      obtain ⟨t₁, s₁, hfirst, hsecond⟩ := ih hrest
      exact ⟨t₁, s₁, .cons hstep hfirst, hsecond⟩

/-- A run can go on with one more step. -/
theorem concat {t₁ : τ} {s₁ : σ} {use : υ} {answer : Ending ε α} {events : List Event}
    {steps : List (Step υ ε α)} (h : Runs action t s steps t₁ s₁)
    (hstep : (action use).run t₁ s₁ = ⟨answer, t', s', events⟩) :
    Runs action t s (steps ++ [⟨use, answer, events⟩]) t' s' := by
  induction h with
  | nil t s => exact .cons hstep (.nil _ _)
  | cons hfirst _ ih => exact .cons hfirst (ih hstep)

/-- What every step keeps, a run keeps. -/
theorem keeps {Inv : τ → Prop}
    (hkeeps : ∀ {use t s answer t₁ s₁ events},
      (action use).run t s = ⟨answer, t₁, s₁, events⟩ → Inv t → Inv t₁)
    {steps : List (Step υ ε α)} (h : Runs action t s steps t' s') (ht : Inv t) : Inv t' := by
  induction h with
  | nil t s => exact ht
  | cons hstep _ ih => exact ih (hkeeps hstep ht)

end Runs

end GuestReplica
