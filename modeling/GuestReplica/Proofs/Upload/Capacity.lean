import GuestReplica.Proofs.Staging.Capacity
import GuestReplica.Proofs.Upload.Pieces
import GuestReplica.Proofs.Upload.Ranges

set_option autoImplicit false

/-!
# How much of an upload finds room

While the device does what it is asked for, an upload takes the bytes that it looks up
of the room of its pool, and fails only when it has taken all of it.  The bytes of its
ranges are those of its pieces and those that are left.
-/

namespace GuestReplica

open Staging (Pool)

namespace Upload

variable {ε σ : Type} {d : Device σ} {u : Upload} {p q : Pool} {batch batch' : Batch}
variable {events : List Event} {failure : Option StagingError}

theorem StagesPages.takes {start remaining : Nat}
    (h : StagesPages (ε := ε) d u p batch start remaining (.done (batch', failure)) q events)
    (haligned : p.Aligned (1 <<< u.pageBits))
    (hcalls : CallsSucceed p.config.hostVisible events) : p.Takes (lookedUp events) failure q := by
  have hunit : 0 < 1 <<< u.pageBits := (Size.isPowerOfTwo_one_shiftLeft u.pageBits).pos
  generalize hending : Ending.done (batch', failure) = ending at h
  induction h with
  | finished p batch start =>
    cases hending
    exact .refl p
  | failed _ hrequest =>
    cases hending
    rw [lookedUp_of_calls hrequest.calls]
    exact hrequest.takes_all haligned hunit hcalls
  | stopped _ _ => cases hending
  | broken _ _ _ => cases hending
  | uneven _ _ _ _ => cases hending
  | piece _ hrequest hpiece _ _ ih =>
    have hrest := (callsSucceed_append.mp hcalls).2
    rw [← hrequest.config_eq] at hrest
    have htakes := ih (hrequest.aligned haligned (one_shiftLeft_dvd _ _)) hrest hending
    rw [lookedUp_append, lookedUp_append, lookedUp_of_calls hrequest.calls,
      hpiece.staged.1.lookedUp_eq, Nat.zero_add]
    exact (hrequest.takes haligned hunit).trans htakes

theorem StagesRanges.takes {ranges : List PageRange}
    (h : StagesRanges (ε := ε) d u p batch ranges (.done (batch', failure)) q events)
    (haligned : p.Aligned (1 <<< u.pageBits))
    (hcalls : CallsSucceed p.config.hostVisible events) : p.Takes (lookedUp events) failure q := by
  generalize hending : Ending.done (batch', failure) = ending at h
  induction h with
  | finished p batch =>
    cases hending
    exact .refl p
  | failed hpages =>
    cases hending
    rw [lookedUp_append, lookedUp_announce, Nat.zero_add]
    exact hpages.takes haligned (callsSucceed_append.mp hcalls).2
  | broken _ => cases hending
  | @range p q _ _ _ _ _ _ _ _ hpages _ ih =>
    obtain ⟨hfirst, hrest⟩ := callsSucceed_append.mp hcalls
    have hconfig : q.config = p.config :=
      hpages.keeps (fun hrequest _ hp => hrequest.config_eq.trans hp) rfl
    have hq : q.Aligned (1 <<< u.pageBits) :=
      hpages.keeps (fun hrequest hsize hp => hrequest.aligned hp hsize) haligned
    rw [← hconfig] at hrest
    rw [lookedUp_append, lookedUp_append, lookedUp_announce, Nat.zero_add]
    exact (hpages.takes haligned (callsSucceed_append.mp hfirst).2).trans (ih hq hrest hending)

/-- An upload takes what it looks up of the room of its pool, and fails only when that
was all. -/
theorem Stages.takes {ranges : List PageRange}
    (h : Stages (ε := ε) d u p ranges (.done failure) q events)
    (haligned : p.Aligned (1 <<< u.pageBits))
    (hcalls : CallsSucceed p.config.hostVisible events) : p.Takes (lookedUp events) failure q := by
  cases h with
  | @staged _ batch _ _ hranges _ =>
    have hcommands : lookedUp (batch.commands u.target) = 0 :=
      (staged_commands u batch u.target).lookedUp_eq
    rw [lookedUp_append, hcommands, Nat.add_zero]
    exact hranges.takes haligned (callsSucceed_append.mp hcalls).1

end Upload

end GuestReplica
