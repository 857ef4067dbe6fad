import Mathlib.Data.List.DropRight
import Mathlib.Data.List.Forall2
import GuestReplica.Device.Simulated
import GuestReplica.Proofs.Runs
import GuestReplica.Recording

set_option autoImplicit false

/-!
# Replays of a recording

A client records barriers and copies, empties the recording and replays it, in any
order and as often as it likes.  What a replay does is what the client would have done
without a recording: it makes one call for each command that came since the recording
was emptied last, in the order in which they came, and each call says what its command
says.  A replay changes nothing in the recording.
-/

namespace GuestReplica.Recording

variable {τ ε σ : Type} {d : Device σ}

/-! ## What a call says -/

/-- The call puts on a command buffer what the command says, and nothing else: a barrier
is a single dependency on one buffer that stays with its queue family, and a copy has
the same regions in the same order. -/
def Conveys (commandBuffer : Handle) : Command → Call → Prop
  | .barrier b, .pipelineBarrier target p =>
    target = commandBuffer ∧ p.sourceStages = b.source.stages ∧
      p.targetStages = b.target.stages ∧ p.flags = 0 ∧ p.memoryBarriers = 0 ∧
      p.imageBarriers = 0 ∧
      p.buffers = [⟨b.source.access, b.target.access, 0xFFFFFFFF, 0xFFFFFFFF, b.buffer, b.offset,
        b.size⟩]
  | .copy source target regions, .copyBuffer buffer source' target' regions' =>
    buffer = commandBuffer ∧ source' = source ∧ target' = target ∧ regions' = regions
  | _, _ => False

/-- A command leaves a call no choice. -/
theorem Conveys.unique {commandBuffer : Handle} {command : Command} {call other : Call}
    (h : Conveys commandBuffer command call) (h' : Conveys commandBuffer command other) :
    call = other := by
  cases command with
  | barrier b =>
    cases call with
    | pipelineBarrier _ p =>
      cases other with
      | pipelineBarrier _ q =>
        obtain ⟨rfl, h₁, h₂, h₃, h₄, h₅, h₆⟩ := h
        obtain ⟨rfl, h₁', h₂', h₃', h₄', h₅', h₆'⟩ := h'
        cases p
        cases q
        simp_all
      | _ => exact h'.elim
    | _ => exact h.elim
  | copy source target regions =>
    cases call with
    | copyBuffer _ _ _ _ =>
      cases other with
      | copyBuffer _ _ _ _ =>
        obtain ⟨rfl, rfl, rfl, rfl⟩ := h
        obtain ⟨rfl, rfl, rfl, rfl⟩ := h'
        rfl
      | _ => exact h'.elim
    | _ => exact h.elim

/-- Nor do some commands leave the calls of a replay one. -/
theorem calls_unique {commandBuffer : Handle} {commands : List Command} {calls others : List Call}
    (h : List.Forall₂ (Conveys commandBuffer) commands calls)
    (h' : List.Forall₂ (Conveys commandBuffer) commands others) : calls = others := by
  induction h generalizing others with
  | nil =>
    cases h'
    rfl
  | cons hfirst _ ih =>
    cases h' with
    | cons hfirst' hrest' => rw [hfirst.unique hfirst', ih hrest']

/-! ## One replay -/

theorem issue_run (d : Device σ) (commandBuffer : Handle) (command : Command) (t : τ) (s : σ) :
    ∃ s' call, (issue d commandBuffer command : Action τ ε σ Unit).run t s =
      ⟨.done (), t, s', [.call call]⟩ ∧ Conveys commandBuffer command call := by
  cases command with
  | barrier b => exact ⟨_, _, rfl, rfl, rfl, rfl, rfl, rfl, rfl, rfl⟩
  | copy source target regions => exact ⟨_, _, rfl, rfl, rfl, rfl, rfl⟩

/-- Commands are issued one by one, each by a call of its own. -/
theorem issueAll_run (d : Device σ) (commandBuffer : Handle) (commands : List Command) (t : τ)
    (s : σ) :
    ∃ s' calls, (issueAll d commandBuffer commands : Action τ ε σ Unit).run t s =
      ⟨.done (), t, s', calls.map .call⟩ ∧
        List.Forall₂ (Conveys commandBuffer) commands calls := by
  induction commands generalizing s with
  | nil => exact ⟨s, [], rfl, .nil⟩
  | cons command rest ih =>
    obtain ⟨s₁, call, hissue, hconveys⟩ := issue_run (ε := ε) d commandBuffer command t s
    obtain ⟨s₂, calls, hrest, hall⟩ := ih s₁
    exact ⟨s₂, call :: calls, by simp [issueAll, hissue, hrest], .cons hconveys hall⟩

/-! ## Runs -/

/-- What a client does with a recording. -/
inductive Use where
  /-- hands a barrier or a copy over -/
  | record (command : Command)
  | reset
  | replay (commandBuffer : Handle)
  deriving DecidableEq, Repr

namespace Use

/-- Does it. -/
def action (d : Device σ) : Use → Action Recording ε σ Unit
  | .record command => Action.update fun r => r.record command
  | .reset => Action.update fun _ => empty
  | .replay commandBuffer => do
    let r ← Action.subject
    r.replay d commandBuffer

/-- The command that is handed over. -/
def command? : Use → Option Command
  | .record command => some command
  | .reset | .replay _ => none

end Use

/-- What was handed over since the last reset, in order, less the copies that have no
region. -/
def pending (uses : List Use) : List Command :=
  ((uses.rtakeWhile fun use => use ≠ .reset).filterMap Use.command?).filter fun command =>
    !command.isEmptyCopy

theorem pending_concat_reset (uses : List Use) : pending (uses ++ [.reset]) = [] := by
  simp [pending]

/-- Whatever else the client does adds what it hands over. -/
theorem pending_concat (uses : List Use) {use : Use} (huse : use ≠ .reset) :
    pending (uses ++ [use]) =
      pending uses ++ use.command?.toList.filter fun command => !command.isEmptyCopy := by
  have htaken : (uses ++ [use]).rtakeWhile (fun use => use ≠ .reset) =
      uses.rtakeWhile (fun use => use ≠ .reset) ++ [use] :=
    List.rtakeWhile_concat_pos _ _ _ (by simpa using huse)
  rw [pending, htaken, List.filterMap_append, List.filter_append]
  cases hcommand : use.command? <;> simp [pending, hcommand]

theorem pending_concat_replay (uses : List Use) (commandBuffer : Handle) :
    pending (uses ++ [.replay commandBuffer]) = pending uses := by
  rw [pending_concat uses (Use.noConfusion : Use.replay commandBuffer ≠ .reset)]
  exact List.append_nil _

/-- Replays hand nothing over. -/
theorem pending_append_replays {uses later : List Use}
    (h : ∀ use ∈ later, ∃ commandBuffer, use = .replay commandBuffer) :
    pending (uses ++ later) = pending uses := by
  induction later generalizing uses with
  | nil => rw [List.append_nil]
  | cons use rest ih =>
    obtain ⟨commandBuffer, rfl⟩ := h use List.mem_cons_self
    rw [List.append_cons, ih fun other hmem => h other (List.mem_cons_of_mem _ hmem),
      pending_concat_replay]

variable {r r' : Recording} {s s' : σ} {answer : Ending ε Unit} {events : List Event}

/-- A replay makes a call for each command that the recording holds. -/
theorem conveys_of_replay {commandBuffer : Handle}
    (h : ((Use.replay commandBuffer).action d).run r s = ⟨answer, r', s', events⟩) :
    answer = .done () ∧ r' = r ∧
      ∃ calls, events = calls.map .call ∧
        List.Forall₂ (Conveys commandBuffer) r.commands calls := by
  obtain ⟨s₁, calls, hissue, hconveys⟩ := issueAll_run (ε := ε) d commandBuffer r.commands r s
  simp only [Use.action, Action.run_bind, Action.run_subject, Outcome.andThen_done, replay,
    hissue] at h
  cases h
  exact ⟨rfl, rfl, calls, rfl, hconveys⟩

/-- What one step makes of the recorded commands. -/
theorem commands_of_step {use : Use} {uses : List Use} (hr : r.commands = pending uses)
    (h : (use.action d).run r s = ⟨answer, r', s', events⟩) :
    r'.commands = pending (uses ++ [use]) := by
  cases use with
  | record command =>
    cases h
    rw [pending_concat uses (Use.noConfusion : Use.record command ≠ .reset), ← hr]
    exact commands_foldl_record [command] r
  | reset =>
    cases h
    rw [pending_concat_reset]
    rfl
  | replay commandBuffer =>
    obtain ⟨_, rfl, _⟩ := conveys_of_replay h
    rw [pending_concat_replay, hr]

/-- A step of a run of a recording. -/
abbrev RecordingStep (ε : Type) : Type := Step Use ε Unit

/-- After a run, the recording holds what was handed over since the last reset. -/
theorem commands_of_runs {steps : List (RecordingStep ε)}
    (h : Runs (Use.action d) empty s steps r s') : r.commands = pending (steps.map (·.use)) := by
  -- the last step comes last in `pending`, too
  induction steps using List.reverseRecOn generalizing r s' with
  | nil =>
    cases h
    rfl
  | append_singleton steps step ih =>
    obtain ⟨r₁, s₁, hbefore, hlast⟩ := h.split
    obtain ⟨r₂, s₂, hstep, hnil⟩ := hlast.uncons
    cases hnil
    rw [List.map_append]
    exact commands_of_step (ih hbefore) hstep

/-- A step of a run that replays, by what came before it. -/
theorem conveys_of_runs {before after : List (RecordingStep ε)} {commandBuffer : Handle}
    (h : Runs (Use.action d) empty s (before ++ ⟨.replay commandBuffer, answer, events⟩ :: after)
      r s') :
    answer = .done () ∧ ∃ calls, events = calls.map .call ∧
      List.Forall₂ (Conveys commandBuffer) (pending (before.map (·.use))) calls := by
  obtain ⟨r₁, s₁, hbefore, hfrom⟩ := h.split
  obtain ⟨r₂, s₂, hstep, _⟩ := hfrom.uncons
  obtain ⟨hanswer, _, hcalls⟩ := conveys_of_replay hstep
  rw [commands_of_runs hbefore] at hcalls
  exact ⟨hanswer, hcalls⟩

/-- Deferral is transparent.  In every run of a new recording, each replay makes exactly
one call for each command that was handed over since the last reset, copies without
regions apart, in the order in which they were handed over, and each call conveys its
command.  The recording is what was handed over, however often it was replayed, so a
second replay into the same command buffer makes the same calls again. -/
theorem replays_convey {steps : List (RecordingStep ε)}
    (h : Runs (Use.action d) empty s steps r s') :
    r.commands = pending (steps.map (·.use)) ∧
      (∀ before after commandBuffer answer events,
        steps = before ++ ⟨.replay commandBuffer, answer, events⟩ :: after →
        answer = .done () ∧ ∃ calls, events = calls.map .call ∧
          List.Forall₂ (Conveys commandBuffer) (pending (before.map (·.use))) calls) ∧
      ∀ before between after commandBuffer first second events again,
        steps = before ++ ⟨.replay commandBuffer, first, events⟩ :: between ++
          ⟨.replay commandBuffer, second, again⟩ :: after →
        (∀ step ∈ between, ∃ other, step.use = .replay other) → again = events := by
  refine ⟨commands_of_runs h, ?_, ?_⟩
  · rintro before after commandBuffer answer events rfl
    exact conveys_of_runs h
  · rintro before between after commandBuffer first second events again rfl hbetween
    obtain ⟨_, later, rfl, hlater⟩ := conveys_of_runs h
    rw [List.append_assoc, List.cons_append] at h
    obtain ⟨_, calls, rfl, hcalls⟩ := conveys_of_runs h
    have hsame : pending ((before ++ ⟨.replay commandBuffer, first, calls.map .call⟩ ::
        between).map (·.use)) = pending (before.map (·.use)) := by
      rw [List.map_append]
      refine pending_append_replays fun use hmem => ?_
      rw [List.map_cons] at hmem
      rcases List.mem_cons.mp hmem with rfl | hmem
      · exact ⟨commandBuffer, rfl⟩
      · obtain ⟨step, hstep, rfl⟩ := List.mem_map.mp hmem
        exact hbetween step hstep
    rw [hsame] at hlater
    rw [calls_unique hcalls hlater]

/-! ## A recording that is replayed twice -/

/-- A barrier on a whole buffer. -/
def wholeBarrier : Barrier := ⟨⟨0x1000, 0x1000⟩, ⟨0x800, 0x20⟩, 2, 0, Size.whole⟩

/-- What comes before a reset is forgotten, and a copy of nothing is dropped. -/
def replayTwice : List Use :=
  [.record (.copy 1 2 [⟨0, 0, 4096⟩]), .reset, .record (.copy 1 2 [⟨0, 4096, 4096⟩, ⟨8192, 0, 512⟩]),
    .record (.copy 1 2 []), .record (.barrier wholeBarrier), .replay 7, .replay 7]

/-- The steps of that. -/
def replayTwiceSteps : List (RecordingStep Unit) :=
  (play (Use.action (Simulated.device .direct)) empty (Simulated.State.new {}) replayTwice).1

theorem replays_convey_twice :
    ∃ calls, List.Forall₂ (Conveys 7)
        [.copy 1 2 [⟨0, 4096, 4096⟩, ⟨8192, 0, 512⟩], .barrier wholeBarrier] calls ∧
      (replayTwiceSteps.drop 5).map (·.events) = [calls.map .call, calls.map .call] := by
  have hruns := runs_play (ε := Unit) (Use.action (Simulated.device .direct)) empty
    (Simulated.State.new {}) replayTwice
  obtain ⟨_, hfirst, hagain⟩ := replays_convey hruns
  obtain ⟨_, calls, hevents, hcalls⟩ := hfirst (replayTwiceSteps.take 5) (replayTwiceSteps.drop 6)
    7 (.done ()) _ rfl
  have hsame := hagain (replayTwiceSteps.take 5) [] [] 7 (.done ()) (.done ()) _ _ rfl (by simp)
  refine ⟨calls, hcalls, ?_⟩
  rw [← hevents]
  rfl

end GuestReplica.Recording
