import GuestReplica.Proofs.Upload.Loads
import GuestReplica.Proofs.Upload.Progress

set_option autoImplicit false

/-!
# What an upload delivers

An upload refreshes the bytes that it claims: they become those of the guest.  The
target is due to hold the refreshed bytes as soon as they are staged, piece by piece,
and whatever copies are executed meanwhile.
-/

namespace GuestReplica

open Staging (Allocation Pool)

/-! ## Refreshed bytes -/

/-- An address lies in a claim. -/
def Claimed (marks : List (Nat × Nat × Bool)) (address : Nat) : Prop :=
  ∃ mark ∈ marks, mark.1 ≤ address ∧ address < mark.1 + mark.2.1

instance (marks : List (Nat × Nat × Bool)) (address : Nat) : Decidable (Claimed marks address) :=
  inferInstanceAs (Decidable (∃ mark ∈ marks, _))

theorem claimed_append {a b : List (Nat × Nat × Bool)} {address : Nat} :
    Claimed (a ++ b) address ↔ Claimed a address ∨ Claimed b address := by
  simp only [Claimed, List.mem_append, or_and_right, exists_or]

namespace GuestMemory

/-- The guest's byte at an address. -/
def byte (guest : GuestMemory) (address : Nat) : UInt8 :=
  guest.bytes.get! (address - guest.base)

/-- A window holds the bytes of the guest. -/
theorem get!_of_window? {guest : GuestMemory} {address length k : Nat} {bytes : ByteArray}
    (h : guest.window? address length = some bytes) (hk : k < length) :
    bytes.get! k = guest.byte (address + k) := by
  unfold window? at h
  split at h
  · next hcovers =>
    cases h
    obtain ⟨hbase, hlength⟩ := hcovers
    have hindex : address + k - guest.base = address - guest.base + k := by omega
    have hstop : address - guest.base + length ≤ guest.bytes.data.size := hlength
    rw [byte, hindex, ByteArray.get!, ByteArray.get!, ByteArray.data_extract,
      Array.getElem!_eq_getD, Array.getElem!_eq_getD, Array.getD_eq_getD_getElem?,
      Array.getD_eq_getD_getElem?, Array.getElem?_extract, if_pos (by omega)]
  · cases h

/-- The bytes after those that are claimed were replaced by the guest's. -/
def refresh (guest : GuestMemory) (marks : List (Nat × Nat × Bool)) (x : Nat → UInt8) :
    Nat → UInt8 := fun i => if Claimed marks i then guest.byte i else x i

variable (guest : GuestMemory)

@[simp] theorem refresh_nil (x : Nat → UInt8) : guest.refresh [] x = x := by
  funext i
  simp [refresh, Claimed]

theorem refresh_append (a b : List (Nat × Nat × Bool)) (x : Nat → UInt8) :
    guest.refresh (a ++ b) x = guest.refresh b (guest.refresh a x) := by
  funext i
  by_cases hb : Claimed b i
  · simp [refresh, claimed_append, hb]
  · simp [refresh, claimed_append, hb]

/-- A load of guest bytes refreshes them. -/
theorem refresh_singleton (submission : Nat) (source : Handle) (offset address length : Nat)
    (postCopy : Bool) (x : Nat → UInt8) :
    guest.refresh [(address, length, postCopy)] x =
      Load.deliver x ⟨submission, source, ⟨offset, address, length⟩, guest.byte⟩ := by
  funext i
  simp [refresh, Claimed, Load.deliver]

end GuestMemory

/-! ## Batches -/

/-- The copy that a batch is recorded as. -/
def Batch.copy (batch : Batch) (submission : Nat) (target : Handle) : Copy :=
  ⟨submission, batch.source, target, batch.regions⟩

section

variable {ε : Type} {p : Pool} {target : Handle} {latest : Nat} {batch batch' : Batch}
variable {batched : List Move} {x : Nat → UInt8} {c c' : Contents} {waiting waiting' : List Copy}

/-- A batch that is recorded waits as a copy. -/
theorem Due.commands
    (h : Due target latest p ((batch.copy latest target).moves ++ batched) x c waiting)
    (hexecutes : Executes (momentsOf latest (batch.commands target)) c waiting c' waiting') :
    Due target latest p batched x c' waiting' := by
  by_cases hregions : batch.regions = []
  · have hnothing : (batch.copy latest target).moves = [] := by
      rw [Copy.moves, Batch.copy, hregions, List.map_nil]
    rw [hnothing, List.nil_append] at h
    rw [Batch.commands, if_pos hregions] at hexecutes
    exact h.idle hexecutes
  · rw [Batch.commands, if_neg hregions] at hexecutes
    have hmoment : Executes [.recorded (batch.copy latest target)] c waiting c' waiting' := hexecutes
    refine hmoment.singleton Due.execute Due.execute (fun hhappens hdue => ?_) h
    cases hhappens with
    | recorded _ _ _ => exact hdue.recorded

/-- A region that is added to a batch is the last one of the new batch. -/
theorem Due.push {source : Handle} {region : CopyRegion} {events : List Event}
    (h : Due target latest p
      ((batch.copy latest target).moves ++ [⟨latest, source, target, region⟩]) x c waiting)
    (hpush : batch.Pushes (ε := ε) target source region (.done batch') events)
    (hexecutes : Executes (momentsOf latest events) c waiting c' waiting') :
    Due target latest p (batch'.copy latest target).moves x c' waiting' := by
  cases hpush with
  | joined hsource =>
    have hmoves : (Batch.copy { batch with regions := batch.regions ++ [region] } latest target).moves =
        (batch.copy latest target).moves ++ [⟨latest, source, target, region⟩] := by
      simp [Copy.moves, Batch.copy, hsource]
    rw [hmoves]
    exact h.idle hexecutes
  | started _ _ => exact h.commands hexecutes

end

namespace Upload

variable {ε σ : Type} {d : Device σ} {u : Upload} {p q : Pool} {batch batch' : Batch}
variable {events : List Event}

/-! ## Buffers -/

theorem leaveBuffers_commands (batch : Batch) (target : Handle) :
    LeaveBuffers (batch.commands target) := by
  intro live
  unfold Batch.commands
  split <;> rfl

theorem leaveBuffers_announce (u : Upload) (range : PageRange) :
    LeaveBuffers (u.announce range) := by
  intro live
  unfold announce ReadTrace.events
  cases u.trace <;> rfl

/-- A piece leaves the buffers alone. -/
theorem StagesPiece.leaveBuffers {address : Nat} {a : Allocation} {ending : Ending ε Batch}
    (h : StagesPiece u batch address a ending events) : LeaveBuffers events := by
  cases h with
  | outside _ => exact fun _ => rfl
  | filled _ hpush =>
    intro live
    cases hpush with
    | joined _ => rfl
    | sourceless _ _ => rfl
    | started _ _ => exact leaveBuffers_commands batch u.target live

theorem StagesPages.gains {start remaining : Nat}
    {ending : Ending ε (Batch × Option StagingError)}
    (h : StagesPages d u p batch start remaining ending q events) : p.Gains q events := by
  induction h with
  | finished p batch start => exact .refl p
  | failed _ hrequest => exact hrequest.gains
  | stopped _ hrequest => exact hrequest.gains
  | broken _ hrequest hpiece =>
    exact hrequest.gains.trans (Pool.gains_of_leaveBuffers rfl hpiece.leaveBuffers)
  | uneven _ hrequest hpiece _ =>
    exact hrequest.gains.trans (Pool.gains_of_leaveBuffers rfl hpiece.leaveBuffers)
  | piece _ hrequest hpiece _ _ ih =>
    exact (hrequest.gains.trans (Pool.gains_of_leaveBuffers rfl hpiece.leaveBuffers)).trans ih

theorem StagesRanges.gains {ranges : List PageRange}
    {ending : Ending ε (Batch × Option StagingError)}
    (h : StagesRanges d u p batch ranges ending q events) : p.Gains q events := by
  have hannounce := fun (p : Pool) range =>
    Pool.gains_of_leaveBuffers (p := p) rfl (leaveBuffers_announce u range)
  induction h with
  | finished p batch => exact .refl p
  | failed hpages => exact (hannounce _ _).trans hpages.gains
  | broken hpages => exact (hannounce _ _).trans hpages.gains
  | range hpages _ ih => exact ((hannounce _ _).trans hpages.gains).trans ih

theorem Stages.gains {ranges : List PageRange} {ending : Ending ε (Option StagingError)}
    (h : Stages d u p ranges ending q events) : p.Gains q events := by
  cases h with
  | broken hranges => exact hranges.gains
  | sourceless hranges _ => exact hranges.gains
  | @staged _ batch _ _ hranges _ =>
    exact hranges.gains.trans
      (Pool.gains_of_leaveBuffers rfl (leaveBuffers_commands batch u.target))

/-! ## Deliveries -/

variable {x : Nat → UInt8} {c c' : Contents} {waiting waiting' : List Copy}

theorem momentsOf_of_calls (submission : Nat) (h : ∀ event ∈ events, ∃ call, event = .call call) :
    momentsOf submission events = [] :=
  filterMap_of_calls (fun _ => rfl) h

/-- A request that hands nothing out changes nothing about what is due. -/
theorem due_of_request {size alignment : Nat} {ending : Ending StagingError Allocation}
    {batched : List Move} (h : Due u.target u.submission p batched x c waiting)
    (hrequest : Pool.Requests d p u.submission size alignment ending q events)
    (hexecutes : Executes (momentsOf u.submission events) c waiting c' waiting') :
    Due u.target u.submission q batched x c' waiting' := by
  rw [momentsOf_of_calls _ hrequest.calls] at hexecutes
  exact (h.idle hexecutes).mono (Nat.le_refl _) fun hlater hguards =>
    hrequest.guards hlater hguards

/-- A piece that was requested is due to be delivered with the bytes that it claims. -/
theorem StagesPiece.due {a : Allocation} {size alignment start : Nat} {requested : List Event}
    (h : StagesPiece (ε := ε) u batch (toAddress start) a (.done batch') events)
    (hrequest : Pool.Requests d p u.submission size alignment (.done a) q requested)
    (hp : p.Valid) (hnodup : (u.target :: q.buffers).Nodup) (hsize : a.size < addressLimit)
    (hdue : Due u.target u.submission p (batch.copy u.submission u.target).moves x c waiting)
    (hexecutes : Executes (momentsOf u.submission events) c waiting c' waiting') :
    Due u.target u.submission q (batch'.copy u.submission u.target).moves
      (u.guest.refresh (marksOf events) x) c' waiting' := by
  have hmarks : marksOf events = [(toAddress start, a.size, false)] := by
    rw [h.staged.1.marks]
    simp [Piece.mark, Piece.address, Nat.mod_eq_of_lt hsize]
  rw [hmarks, GuestMemory.refresh_singleton u.guest u.submission a.buffer a.offset]
  cases h with
  | @filled bytes _ pushed hwindow hpush =>
    have hmoments : momentsOf u.submission
        (claims (toAddress start) a.size ++ .hostWrite a.buffer a.memory a.offset bytes :: pushed) =
        [.stored a.buffer a.offset bytes] ++ momentsOf u.submission pushed := rfl
    rw [hmoments] at hexecutes
    obtain ⟨c₁, waiting₁, hstores, hpushes⟩ := hexecutes.split
    have hstored : Due u.target u.submission q
        ((batch.copy u.submission u.target).moves ++
          [⟨u.submission, a.buffer, u.target, ⟨a.offset, toAddress start, a.size⟩⟩])
        (Load.deliver x ⟨u.submission, a.buffer, ⟨a.offset, toAddress start, a.size⟩, u.guest.byte⟩)
        c₁ waiting₁ := by
      refine hstores.singleton Due.execute Due.execute (fun hhappens hnow => ?_) hdue
      cases hhappens with
      | stored _ _ _ _ _ =>
        exact hnow.stored hrequest hp hnodup (GuestMemory.size_of_window? hwindow)
          fun k hk => GuestMemory.get!_of_window? hwindow hk
    exact hstored.push hpush hpushes

/-- So are the pieces of a range. -/
theorem StagesPages.due {start remaining : Nat} {failure : Option StagingError}
    (h : StagesPages (ε := ε) d u p batch start remaining (.done (batch', failure)) q events)
    (hp : p.Valid) (hnodup : (u.target :: q.buffers).Nodup)
    (hsize : remaining <<< u.pageBits < addressLimit)
    (hdue : Due u.target u.submission p (batch.copy u.submission u.target).moves x c waiting)
    (hexecutes : Executes (momentsOf u.submission events) c waiting c' waiting') :
    Due u.target u.submission q (batch'.copy u.submission u.target).moves
      (u.guest.refresh (marksOf events) x) c' waiting' := by
  generalize hending : Ending.done (batch', failure) = ending at h
  induction h generalizing x c waiting with
  | finished p batch start =>
    cases hending
    rw [show marksOf [] = [] from rfl, GuestMemory.refresh_nil]
    exact hdue.idle hexecutes
  | failed _ hrequest =>
    cases hending
    have hmarks : marksOf _ = [] := filterMap_of_calls (fun _ => rfl) hrequest.calls
    rw [hmarks, GuestMemory.refresh_nil]
    exact due_of_request hdue hrequest hexecutes
  | stopped _ _ => cases hending
  | broken _ _ _ => cases hending
  | uneven _ _ _ _ => cases hending
  | @piece p q r batch batch₁ start remaining a _ requested staged rest _ hrequest hpiece _ hrest ih =>
    have hmarks : marksOf requested = [] := filterMap_of_calls (fun _ => rfl) hrequest.calls
    rw [marksOf_append, marksOf_append, hmarks, List.nil_append, GuestMemory.refresh_append]
    rw [momentsOf_append, momentsOf_append, momentsOf_of_calls _ hrequest.calls,
      List.nil_append] at hexecutes
    obtain ⟨c₁, waiting₁, hstages, hgoes⟩ := hexecutes.split
    have hfits : a.size < addressLimit := Nat.lt_of_le_of_lt hrequest.size_le hsize
    have hnext := hpiece.due hrequest hp (hrest.gains.nodup hnodup) hfits hdue hstages
    have hless : (remaining - u.pages a) <<< u.pageBits < addressLimit :=
      Nat.lt_of_le_of_lt (shiftLeft_le_shiftLeft _ (Nat.sub_le _ _)) hsize
    exact ih (hrequest.valid hp) hnodup hless hnext hgoes hending

theorem marksOf_announce (u : Upload) (range : PageRange) : marksOf (u.announce range) = [] :=
  (staged_announce u range).marks

theorem momentsOf_announce (u : Upload) (range : PageRange) (submission : Nat) :
    momentsOf submission (u.announce range) = [] :=
  filterMap_announce (fun _ _ => rfl) (fun _ => rfl) u range

theorem StagesRanges.due {ranges : List PageRange} {failure : Option StagingError}
    (h : StagesRanges (ε := ε) d u p batch ranges (.done (batch', failure)) q events)
    (hp : p.Valid) (hnodup : (u.target :: q.buffers).Nodup)
    (hsizes : ∀ range ∈ ranges, range.count <<< u.pageBits < addressLimit)
    (hdue : Due u.target u.submission p (batch.copy u.submission u.target).moves x c waiting)
    (hexecutes : Executes (momentsOf u.submission events) c waiting c' waiting') :
    Due u.target u.submission q (batch'.copy u.submission u.target).moves
      (u.guest.refresh (marksOf events) x) c' waiting' := by
  generalize hending : Ending.done (batch', failure) = ending at h
  induction h generalizing x c waiting with
  | finished p batch =>
    cases hending
    rw [show marksOf [] = [] from rfl, GuestMemory.refresh_nil]
    exact hdue.idle hexecutes
  | failed hpages =>
    cases hending
    rw [marksOf_append, marksOf_announce, List.nil_append]
    rw [momentsOf_append, momentsOf_announce, List.nil_append] at hexecutes
    exact hpages.due hp hnodup (hsizes _ List.mem_cons_self) hdue hexecutes
  | broken _ => cases hending
  | range hpages hrest ih =>
    rw [marksOf_append, marksOf_append, marksOf_announce, List.nil_append,
      GuestMemory.refresh_append]
    rw [momentsOf_append, momentsOf_append, momentsOf_announce, List.nil_append] at hexecutes
    obtain ⟨c₁, waiting₁, hstages, hgoes⟩ := hexecutes.split
    have hvalid := hpages.keeps (fun hrequest _ => hrequest.valid) hp
    have hnext := hpages.due hp (hrest.gains.nodup hnodup) (hsizes _ List.mem_cons_self) hdue hstages
    exact ih hvalid hnodup (fun other hmem => hsizes other (List.mem_cons_of_mem _ hmem)) hnext
      hgoes hending

/-- When all is recorded, whether or not a request failed, the target is due to hold
the guest's bytes wherever they were claimed. -/
theorem Stages.due {ranges : List PageRange} {failure : Option StagingError}
    (h : Stages (ε := ε) d u p ranges (.done failure) q events)
    (hp : p.Valid) (hnodup : (u.target :: q.buffers).Nodup)
    (hsizes : ∀ range ∈ ranges, range.count <<< u.pageBits < addressLimit)
    (hdue : Due u.target u.submission p [] x c waiting)
    (hexecutes : Executes (momentsOf u.submission events) c waiting c' waiting') :
    Due u.target u.submission q [] (u.guest.refresh (marksOf events) x) c' waiting' := by
  cases h with
  | @staged _ batch _ _ hranges _ =>
    have hmarks : marksOf (batch.commands u.target) = [] := (staged_commands u batch u.target).marks
    rw [marksOf_append, hmarks, List.append_nil]
    rw [momentsOf_append] at hexecutes
    obtain ⟨c₁, waiting₁, hstages, hrecords⟩ := hexecutes.split
    have hstaged := hranges.due hp hnodup hsizes hdue hstages
    rw [← List.append_nil (batch.copy u.submission u.target).moves] at hstaged
    exact hstaged.commands hrecords

end Upload

end GuestReplica
