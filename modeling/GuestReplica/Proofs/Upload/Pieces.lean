import GuestReplica.Proofs.Cuts
import GuestReplica.Proofs.Staging.Allocations
import GuestReplica.Proofs.Upload.Records
import GuestReplica.Proofs.Upload.Steps

set_option autoImplicit false

/-!
# The pieces of an upload

An upload that returns has staged pieces: its claims, look-ups and host writes are
those of the pieces, one after the other, and so are the regions that it records,
together with what the batch still holds.  The pieces cut the bytes of the pages
front to back, and all of them unless staging memory ran out.
-/

namespace GuestReplica

open Staging (Allocation Pool)

/-- A piece: the offset of its first byte, before that is cut down to an address, and
the staging memory that it was put in. -/
structure Piece where
  start : Nat
  allocation : Allocation
  deriving DecidableEq

namespace Piece

/-- The address of the first byte. -/
def address (piece : Piece) : Nat := toAddress piece.start

/-- The region that copies the piece. -/
def region (piece : Piece) : CopyRegion :=
  ⟨piece.allocation.offset, piece.address, piece.allocation.size⟩

/-- The region with the buffer that it is read from. -/
def sourced (piece : Piece) : Handle × CopyRegion := (piece.allocation.buffer, piece.region)

/-- The offset and the size. -/
def extent (piece : Piece) : Nat × Nat := (piece.start, piece.allocation.size)

/-- What is claimed. -/
def mark (piece : Piece) : Nat × Nat × Bool :=
  (piece.address, piece.allocation.size % addressLimit, false)

/-- What is looked up. -/
def lookup (piece : Piece) : Nat × Nat := (piece.address, piece.allocation.size)

end Piece

theorem shiftLeft_le_shiftLeft {m n : Nat} (bits : Nat) (h : m ≤ n) : m <<< bits ≤ n <<< bits := by
  rw [Nat.shiftLeft_eq, Nat.shiftLeft_eq]
  exact Nat.mul_le_mul_right _ h

/-- The regions of a batch, each with the buffer that it is read from. -/
def Batch.sourced (batch : Batch) : List (Handle × CopyRegion) :=
  batch.regions.map fun region => (batch.source, region)

@[simp] theorem Batch.sourced_empty : Batch.empty.sourced = [] := rfl

/-- Recording a batch records its regions. -/
theorem Batch.sourcedOf_commands (batch : Batch) (target : Handle) :
    sourcedOf (batch.commands target) = batch.sourced := by
  by_cases hregions : batch.regions = []
  · simp [commands, sourced, hregions, sourcedOf]
  · simp [commands, sourced, hregions, sourcedOf, commandsOf, Event.command?, Command.sourced]

/-- A region that is added to a batch comes after those that were added before. -/
theorem Batch.Pushes.sourced {ε : Type} {batch batch' : Batch} {target source : Handle}
    {region : CopyRegion} {events : List Event}
    (h : batch.Pushes (ε := ε) target source region (.done batch') events) :
    sourcedOf events ++ batch'.sourced = batch.sourced ++ [(source, region)] := by
  cases h with
  | joined hsource => simp [Batch.sourced, sourcedOf, commandsOf, hsource]
  | started _ _ =>
    rw [batch.sourcedOf_commands]
    rfl

/-- How far some ranges are staged: all of them, or up to some byte of one of them.  The ranges
that are reached are those that are begun, and what is left are the bytes that are missing. -/
inductive PageRange.Reaches (pageBits : Nat) :
    (ranges reached : List PageRange) → (left : List Span) → Prop where
  | whole (ranges : List PageRange) : Reaches pageBits ranges ranges []
  | upTo (before : List PageRange) {range : PageRange} (after : List PageRange) {x : Nat}
      (hx : x ∈ range.bytes pageBits) :
      Reaches pageBits (before ++ range :: after) (before ++ [range])
        (⟨x, (range.bytes pageBits).stop⟩ :: after.map (·.bytes pageBits))

namespace PageRange.Reaches

variable {pageBits : Nat} {ranges reached : List PageRange} {left : List Span}

/-- A range in front that is staged is reached, and nothing is left of it. -/
theorem cons (h : Reaches pageBits ranges reached left) (range : PageRange) :
    Reaches pageBits (range :: ranges) (range :: reached) left := by
  cases h with
  | whole _ => exact .whole _
  | upTo before after hx => exact .upTo (range :: before) after hx

/-- No span is left unless some byte is. -/
theorem left_eq_nil_iff (h : Reaches pageBits ranges reached left) :
    left = [] ↔ ∀ span ∈ left, span.IsEmpty := by
  cases h with
  | whole _ => simp
  | upTo _ _ hx =>
    refine iff_of_false (List.cons_ne_nil _ _) fun hempty => ?_
    exact Nat.not_lt_of_le (hempty _ List.mem_cons_self) hx.2

end PageRange.Reaches

namespace Upload

variable {ε σ : Type} {d : Device σ} {u : Upload} {p q : Pool} {batch batch' : Batch}
variable {events : List Event}

/-- The claims, the look-ups and the host writes among some events are those of some
pieces. -/
structure Staged (u : Upload) (events : List Event) (pieces : List Piece) : Prop where
  marks : marksOf events = pieces.map Piece.mark
  lookups : lookupsOf events = pieces.map Piece.lookup
  writes : (writesOf events).map (fun w => (w.1, w.2.1, some w.2.2)) =
    pieces.map fun piece => (piece.allocation.buffer, piece.allocation.offset,
      u.guest.window? piece.address piece.allocation.size)

theorem Staged.append {first second : List Event} {pieces others : List Piece}
    (h : u.Staged first pieces) (h' : u.Staged second others) :
    u.Staged (first ++ second) (pieces ++ others) := by
  refine ⟨?_, ?_, ?_⟩
  · rw [marksOf_append, h.marks, h'.marks, List.map_append]
  · rw [lookupsOf_append, h.lookups, h'.lookups, List.map_append]
  · rw [writesOf_append, List.map_append, h.writes, h'.writes, List.map_append]

theorem Staged.lookedUp_eq {pieces : List Piece} (h : u.Staged events pieces) :
    lookedUp events = (pieces.map (·.allocation.size)).sum := by
  rw [lookedUp, h.lookups, List.map_map]
  rfl

/-- Calls of the device stage nothing. -/
theorem staged_of_calls (h : ∀ event ∈ events, ∃ call, event = .call call) :
    u.Staged events [] := by
  refine ⟨filterMap_of_calls (fun _ => rfl) h, filterMap_of_calls (fun _ => rfl) h, ?_⟩
  rw [writesOf, filterMap_of_calls (fun _ => rfl) h]
  rfl

theorem sourcedOf_of_calls (h : ∀ event ∈ events, ∃ call, event = .call call) :
    sourcedOf events = [] := by
  rw [sourcedOf, commandsOf, filterMap_of_calls (fun _ => rfl) h]
  rfl

theorem staged_commands (u : Upload) (batch : Batch) (target : Handle) :
    u.Staged (batch.commands target) [] := by
  unfold Batch.commands
  split <;> exact ⟨rfl, rfl, rfl⟩

/-- A piece claims, looks up and writes what it says, and its region comes last. -/
theorem StagesPiece.staged {start : Nat} {a : Allocation}
    (h : StagesPiece (ε := ε) u batch (toAddress start) a (.done batch') events) :
    u.Staged events [⟨start, a⟩] ∧
      sourcedOf events ++ batch'.sourced = batch.sourced ++ [Piece.sourced ⟨start, a⟩] := by
  cases h with
  | @filled bytes _ pushed hwindow hpush =>
    have hpushed : u.Staged pushed [] := by
      cases hpush with
      | joined _ => exact ⟨rfl, rfl, rfl⟩
      | started _ _ => exact staged_commands u batch u.target
    have hfilled : u.Staged (claims (toAddress start) a.size ++
        [.hostWrite a.buffer a.memory a.offset bytes]) [⟨start, a⟩] := by
      have hwrites : writesOf (claims (toAddress start) a.size ++
          [.hostWrite a.buffer a.memory a.offset bytes]) = [(a.buffer, a.offset, bytes)] := rfl
      refine ⟨rfl, rfl, ?_⟩
      simp [hwrites, Piece.address, hwindow]
    have hboth := hfilled.append hpushed
    rw [List.append_assoc] at hboth
    exact ⟨hboth, hpush.sourced⟩

theorem untraced_commands (batch : Batch) (target : Handle) :
    tracesOf (batch.commands target) = [] := by
  unfold Batch.commands
  split <;> rfl

/-- A piece is not traced. -/
theorem StagesPiece.untraced {address : Nat} {a : Allocation} {ending : Ending ε Batch}
    (h : StagesPiece u batch address a ending events) : tracesOf events = [] := by
  cases h with
  | outside _ => rfl
  | filled _ hpush =>
    cases hpush with
    | joined _ => rfl
    | sourceless _ _ => rfl
    | started _ _ => exact untraced_commands batch u.target

/-! ## From a batch and some spans on -/

/-- Some events get from a batch to another by staging pieces, which are cut from
some spans and leave others. -/
structure Advances (u : Upload) (batch : Batch) (spans : List Span) (events : List Event)
    (pieces : List Piece) (batch' : Batch) (left : List Span) : Prop where
  staged : u.Staged events pieces
  sourced : sourcedOf events ++ batch'.sourced = batch.sourced ++ pieces.map Piece.sourced
  cuts : Cuts (1 <<< u.pageBits) spans (pieces.map Piece.extent) left

variable {spans middle left : List Span} {pieces others : List Piece}

theorem Advances.trans {first second : List Event} {batch'' : Batch}
    (h : u.Advances batch spans first pieces batch' middle)
    (h' : u.Advances batch' middle second others batch'' left) :
    u.Advances batch spans (first ++ second) (pieces ++ others) batch'' left := by
  refine ⟨h.staged.append h'.staged, ?_, ?_⟩
  · rw [sourcedOf_append, List.append_assoc, h'.sourced, ← List.append_assoc, h.sourced,
      List.append_assoc, List.map_append]
  · rw [List.map_append]
    exact h.cuts.trans h'.cuts

/-- Spans behind those that are cut stay as they are. -/
theorem Advances.extend (h : u.Advances batch spans events pieces batch' left)
    (rest : List Span) : u.Advances batch (spans ++ rest) events pieces batch' (left ++ rest) :=
  ⟨h.staged, h.sourced, h.cuts.extend rest⟩

theorem advances_of_calls (h : ∀ event ∈ events, ∃ call, event = .call call) (batch : Batch)
    (spans : List Span) : u.Advances batch spans events [] batch spans :=
  ⟨staged_of_calls h, by simp [sourcedOf_of_calls h], .stop spans⟩

/-- A span of which nothing is left can be left out. -/
theorem Advances.next {span : Span}
    (h : u.Advances batch spans events pieces batch' (span :: left)) (hempty : span.IsEmpty) :
    u.Advances batch spans events pieces batch' left := by
  have hcuts := h.cuts.trans (.next hempty (.stop left))
  rw [List.append_nil] at hcuts
  exact ⟨h.staged, h.sourced, hcuts⟩

/-! ## The pages of a range -/

/-- A number of pages is a number of bytes that is made of whole pages. -/
theorem one_shiftLeft_dvd (bits n : Nat) : 1 <<< bits ∣ n <<< bits := by
  rw [Nat.one_shiftLeft, Nat.shiftLeft_eq]
  exact Nat.dvd_mul_left _ n

/-- A piece of whole pages, no more than are asked for, holds as many pages as its
size says: nothing is lost when they are counted. -/
theorem pages_shiftLeft {a : Allocation} {remaining : Nat} (hunit : 1 <<< u.pageBits ∣ a.size)
    (hle : a.size ≤ remaining <<< u.pageBits) (hremaining : remaining < addressLimit) :
    u.pages a <<< u.pageBits = a.size ∧ u.pages a ≤ remaining := by
  obtain ⟨k, hk⟩ := hunit
  rw [Nat.one_shiftLeft] at hk
  rw [Nat.shiftLeft_eq, Nat.mul_comm] at hle
  have hpos : 0 < 2 ^ u.pageBits := Nat.two_pow_pos u.pageBits
  have hle' : k ≤ remaining := Nat.le_of_mul_le_mul_left (hk ▸ hle) hpos
  have hpages : u.pages a = k := by
    rw [pages, hk, Nat.shiftRight_eq_div_pow, Nat.mul_div_cancel_left k hpos]
    exact Nat.mod_eq_of_lt (Nat.lt_of_le_of_lt hle' hremaining)
  rw [hpages, Nat.shiftLeft_eq, Nat.mul_comm, ← hk]
  exact ⟨rfl, hle'⟩

/-- What every request for whole units keeps, the staging of pages keeps. -/
theorem StagesPages.keeps {Inv : Pool → Prop}
    (hkeeps : ∀ {p q size ending events}, Pool.Requests d p u.submission size (1 <<< u.pageBits)
      ending q events → 1 <<< u.pageBits ∣ size → Inv p → Inv q)
    {start remaining : Nat} {ending : Ending ε (Batch × Option StagingError)}
    (h : StagesPages d u p batch start remaining ending q events) (hp : Inv p) : Inv q := by
  induction h with
  | finished p batch start => exact hp
  | failed _ hrequest => exact hkeeps hrequest (one_shiftLeft_dvd _ _) hp
  | stopped _ hrequest => exact hkeeps hrequest (one_shiftLeft_dvd _ _) hp
  | broken _ hrequest _ => exact hkeeps hrequest (one_shiftLeft_dvd _ _) hp
  | uneven _ hrequest _ _ => exact hkeeps hrequest (one_shiftLeft_dvd _ _) hp
  | piece _ hrequest _ _ _ ih => exact ih (hkeeps hrequest (one_shiftLeft_dvd _ _) hp)

/-- The pages are cut into pieces front to back, and nothing is left of them unless a
request failed. -/
theorem StagesPages.advances {start remaining : Nat} {failure : Option StagingError}
    (h : StagesPages (ε := ε) d u p batch start remaining (.done (batch', failure)) q events)
    (hp : p.Valid) (haligned : p.Aligned (1 <<< u.pageBits))
    (hremaining : remaining < addressLimit) :
    ∃ pieces left,
      u.Advances batch [⟨start <<< u.pageBits, (start + remaining) <<< u.pageBits⟩] events pieces
        batch' [left] ∧ (failure = none ↔ left.IsEmpty) := by
  generalize hending : Ending.done (batch', failure) = ending at h
  have hpos : 0 < 2 ^ u.pageBits := Nat.two_pow_pos u.pageBits
  induction h with
  | finished p batch start =>
    cases hending
    refine ⟨[], _, advances_of_calls (by simp) batch' _, ?_⟩
    simp [Span.IsEmpty]
  | @failed p q _ start remaining e _ hzero hrequest =>
    cases hending
    refine ⟨[], _, advances_of_calls hrequest.calls batch' _, ?_⟩
    have hlt : start * 2 ^ u.pageBits < (start + remaining) * 2 ^ u.pageBits :=
      Nat.mul_lt_mul_of_pos_right (by omega) hpos
    simp only [reduceCtorEq, false_iff, Span.IsEmpty, Nat.shiftLeft_eq]
    omega
  | stopped _ _ => cases hending
  | broken _ _ _ => cases hending
  | uneven _ _ _ _ => cases hending
  | @piece p q _ batch batch₁ start remaining a _ requested staged rest _ hrequest hpiece hpages _ ih =>
    have hdvd := hrequest.dvd_size haligned (one_shiftLeft_dvd _ _)
    obtain ⟨hsize, _⟩ := pages_shiftLeft hdvd hrequest.size_le hremaining
    obtain ⟨hstaged, hsourced⟩ := hpiece.staged
    obtain ⟨pieces, left, hrest, hleft⟩ := ih (hrequest.valid hp)
      (hrequest.aligned haligned (one_shiftLeft_dvd _ _)) (by omega) hending
    have hstop : start + u.pages a + (remaining - u.pages a) = start + remaining := by omega
    have hnext : (start + u.pages a) <<< u.pageBits = start <<< u.pageBits + a.size := by
      rw [← hsize, Nat.shiftLeft_eq, Nat.shiftLeft_eq, Nat.shiftLeft_eq, Nat.add_mul]
    rw [hstop, hnext] at hrest
    have hle : start <<< u.pageBits + a.size ≤ (start + remaining) <<< u.pageBits := by
      rw [← hnext]
      exact shiftLeft_le_shiftLeft _ (by omega)
    have hcut : u.Advances batch [⟨start <<< u.pageBits, (start + remaining) <<< u.pageBits⟩] staged
        [⟨start <<< u.pageBits, a⟩] batch₁
        [⟨start <<< u.pageBits + a.size, (start + remaining) <<< u.pageBits⟩] :=
      ⟨hstaged, hsourced, .cut (hrequest.size_pos hp) hdvd hle (.stop _)⟩
    have hrequested := advances_of_calls (u := u) hrequest.calls batch
      [⟨start <<< u.pageBits, (start + remaining) <<< u.pageBits⟩]
    exact ⟨_, left, (hrequested.trans hcut).trans hrest, hleft⟩

/-- What is traced is not the pages but the range that they are in. -/
theorem StagesPages.untraced {start remaining : Nat}
    {ending : Ending ε (Batch × Option StagingError)}
    (h : StagesPages d u p batch start remaining ending q events) : tracesOf events = [] := by
  induction h with
  | finished p batch start => rfl
  | failed _ hrequest => exact tracesOf_of_calls hrequest.calls
  | stopped _ hrequest => exact tracesOf_of_calls hrequest.calls
  | broken _ hrequest hpiece =>
    rw [tracesOf_append, tracesOf_of_calls hrequest.calls, hpiece.untraced, List.append_nil]
  | uneven _ hrequest hpiece _ =>
    rw [tracesOf_append, tracesOf_of_calls hrequest.calls, hpiece.untraced, List.append_nil]
  | piece _ hrequest hpiece _ _ ih =>
    rw [tracesOf_append, tracesOf_append, tracesOf_of_calls hrequest.calls, hpiece.untraced, ih,
      List.append_nil, List.append_nil]

/-! ## Ranges -/

theorem StagesRanges.keeps {Inv : Pool → Prop}
    (hkeeps : ∀ {p q size ending events}, Pool.Requests d p u.submission size (1 <<< u.pageBits)
      ending q events → 1 <<< u.pageBits ∣ size → Inv p → Inv q)
    {ranges : List PageRange} {ending : Ending ε (Batch × Option StagingError)}
    (h : StagesRanges d u p batch ranges ending q events) (hp : Inv p) : Inv q := by
  induction h with
  | finished p batch => exact hp
  | failed hpages => exact hpages.keeps hkeeps hp
  | broken hpages => exact hpages.keeps hkeeps hp
  | range hpages _ ih => exact ih (hpages.keeps hkeeps hp)

/-- An announcement is a read or a notice, and nothing else. -/
theorem filterMap_announce {α : Type} {f : Event → Option α}
    (hread : ∀ address length, f (.guestRead address length) = none)
    (hnotice : ∀ notice, f (.notice notice) = none) (u : Upload) (range : PageRange) :
    (u.announce range).filterMap f = [] := by
  unfold announce ReadTrace.events
  cases u.trace <;> simp [hread, hnotice]

/-- An announcement stages nothing. -/
theorem staged_announce (u : Upload) (range : PageRange) : u.Staged (u.announce range) [] := by
  refine ⟨filterMap_announce (fun _ _ => rfl) (fun _ => rfl) u range,
    filterMap_announce (fun _ _ => rfl) (fun _ => rfl) u range, ?_⟩
  rw [writesOf, filterMap_announce (fun _ _ => rfl) (fun _ => rfl)]
  rfl

theorem lookedUp_announce (u : Upload) (range : PageRange) : lookedUp (u.announce range) = 0 :=
  (staged_announce u range).lookedUp_eq

theorem advances_announce (u : Upload) (range : PageRange) (batch : Batch) (spans : List Span) :
    u.Advances batch spans (u.announce range) [] batch spans := by
  refine ⟨staged_announce u range, ?_, .stop spans⟩
  rw [sourcedOf, commandsOf, filterMap_announce (fun _ _ => rfl) (fun _ => rfl)]
  simp

theorem tracesOf_announce (u : Upload) (range : PageRange) :
    tracesOf (u.announce range) = u.announce range := by
  unfold announce ReadTrace.events
  cases u.trace <;> rfl

/-- The ranges are cut into pieces in order, and all of them unless a request failed.  Exactly
the ranges that were reached are announced. -/
theorem StagesRanges.advances {ranges : List PageRange} {failure : Option StagingError}
    (h : StagesRanges (ε := ε) d u p batch ranges (.done (batch', failure)) q events)
    (hp : p.Valid) (haligned : p.Aligned (1 <<< u.pageBits))
    (hcounts : ∀ range ∈ ranges, range.count < addressLimit) :
    ∃ pieces reached left,
      u.Advances batch (ranges.map (·.bytes u.pageBits)) events pieces batch' left ∧
        PageRange.Reaches u.pageBits ranges reached left ∧ (failure = none ↔ left = []) ∧
        tracesOf events = reached.flatMap u.announce := by
  generalize hending : Ending.done (batch', failure) = ending at h
  induction h with
  | finished p batch =>
    cases hending
    exact ⟨[], [], [], advances_of_calls (by simp) batch' _, .whole [], by simp, rfl⟩
  | @failed p q batch _ range ranges e events hpages =>
    cases hending
    obtain ⟨pieces, left, hcut, hleft⟩ := hpages.advances hp haligned (hcounts _ List.mem_cons_self)
    have hannounced := advances_announce u range batch
      ((range :: ranges).map (·.bytes u.pageBits))
    have hall := hcut.extend (ranges.map fun range => range.bytes u.pageBits)
    obtain ⟨hstart, hstop⟩ := hcut.cuts.within
    have hsome : ¬ left.IsEmpty := fun hempty => nomatch hleft.mpr hempty
    have hbyte : left.start ∈ range.bytes u.pageBits :=
      ⟨hstart, hstop ▸ Nat.lt_of_not_le hsome⟩
    have hrest : left = ⟨left.start, (range.bytes u.pageBits).stop⟩ :=
      congrArg (Span.mk left.start) hstop
    refine ⟨pieces, [range], _, hannounced.trans hall, ?_, by simp, ?_⟩
    · rw [hrest]
      exact .upTo [] ranges hbyte
    · rw [tracesOf_append, tracesOf_announce, hpages.untraced]
      simp
  | broken _ => cases hending
  | @range p q r batch batch₁ range ranges _ events rest hpages _ ih =>
    obtain ⟨pieces, gone, hcut, hgone⟩ := hpages.advances hp haligned
      (hcounts _ List.mem_cons_self)
    have hq : q.Valid := hpages.keeps (fun hrequest _ => hrequest.valid) hp
    have hqaligned : q.Aligned (1 <<< u.pageBits) :=
      hpages.keeps (fun hrequest hsize hp => hrequest.aligned hp hsize) haligned
    obtain ⟨others, reached, left, hrest, hreaches, hleft, htraces⟩ := ih hq hqaligned
      (fun other hmem => hcounts other (List.mem_cons_of_mem _ hmem)) hending
    have hannounced := advances_announce u range batch
      ((range :: ranges).map (·.bytes u.pageBits))
    have hall := (hcut.extend (ranges.map fun range => range.bytes u.pageBits)).next (hgone.mp rfl)
    refine ⟨_, range :: reached, left, (hannounced.trans hall).trans hrest, hreaches.cons range,
      hleft, ?_⟩
    rw [tracesOf_append, tracesOf_append, tracesOf_announce, hpages.untraced, htraces]
    simp

/-! ## The whole -/

theorem Stages.keeps {Inv : Pool → Prop}
    (hkeeps : ∀ {p q size ending events}, Pool.Requests d p u.submission size (1 <<< u.pageBits)
      ending q events → 1 <<< u.pageBits ∣ size → Inv p → Inv q)
    {ranges : List PageRange} {ending : Ending ε (Option StagingError)}
    (h : Stages d u p ranges ending q events) (hp : Inv p) : Inv q := by
  cases h with
  | broken hranges => exact hranges.keeps hkeeps hp
  | sourceless hranges _ => exact hranges.keeps hkeeps hp
  | staged hranges _ => exact hranges.keeps hkeeps hp

/-- What is staged is recorded in the end, whether or not a request failed. -/
theorem Stages.advances {ranges : List PageRange} {failure : Option StagingError}
    (h : Stages (ε := ε) d u p ranges (.done failure) q events) (hp : p.Valid)
    (haligned : p.Aligned (1 <<< u.pageBits))
    (hcounts : ∀ range ∈ ranges, range.count < addressLimit) :
    ∃ pieces reached left, u.Staged events pieces ∧ sourcedOf events = pieces.map Piece.sourced ∧
      Cuts (1 <<< u.pageBits) (ranges.map (·.bytes u.pageBits)) (pieces.map Piece.extent) left ∧
      PageRange.Reaches u.pageBits ranges reached left ∧ (failure = none ↔ left = []) ∧
      tracesOf events = reached.flatMap u.announce := by
  cases h with
  | @staged _ batch _ events hranges _ =>
    obtain ⟨pieces, reached, left, hcut, hreaches, hleft, htraces⟩ :=
      hranges.advances hp haligned hcounts
    have hstaged := hcut.staged.append (staged_commands u batch u.target)
    rw [List.append_nil] at hstaged
    have hsourced := hcut.sourced
    rw [Batch.sourced_empty, List.nil_append] at hsourced
    refine ⟨pieces, reached, left, hstaged, ?_, hcut.cuts, hreaches, hleft, ?_⟩
    · rw [sourcedOf_append, batch.sourcedOf_commands, hsourced]
    · rw [tracesOf_append, untraced_commands, List.append_nil, htraces]

end Upload

end GuestReplica
