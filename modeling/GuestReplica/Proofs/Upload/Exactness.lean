import GuestReplica.Proofs.Upload.Progress

set_option autoImplicit false

/-!
# Look-ups of whole pages

Sizes and page numbers are cut down to 32 bits on the way from an allocation to a claim and
to the next page.  However an upload ends, nothing is lost by that: all that it has looked
up are whole pages of its ranges, at least one at a time, and it has claimed just these.
-/

namespace GuestReplica

/-- Some pages of a range, at least one. -/
structure PageRange.Within (part range : PageRange) : Prop where
  count_pos : 0 < part.count
  start_le : range.start ≤ part.start
  stop_le : part.stop ≤ range.stop

/-- What was looked up are whole pages of some ranges, and what was claimed is the same. -/
structure Exact (pageBits : Nat) (ranges : List PageRange) (events : List Event) : Prop where
  marks_eq : marksOf events = (lookupsOf events).map fun lookup => (lookup.1, lookup.2, false)
  whole : ∀ lookup ∈ lookupsOf events, ∃ range ∈ ranges, ∃ part : PageRange,
    part.Within range ∧ lookup = (part.start <<< pageBits, part.count <<< pageBits)

namespace Exact

variable {pageBits : Nat} {ranges others : List PageRange} {a b events : List Event}

/-- Where nothing is claimed, nothing has to be looked up. -/
theorem of_eq_nil (hmarks : marksOf events = []) (hlookups : lookupsOf events = []) :
    Exact pageBits ranges events :=
  ⟨by rw [hmarks, hlookups, List.map_nil], by simp [hlookups]⟩

theorem of_calls (h : ∀ event ∈ events, ∃ call, event = .call call) :
    Exact pageBits ranges events :=
  of_eq_nil (filterMap_of_calls (fun _ => rfl) h) (filterMap_of_calls (fun _ => rfl) h)

theorem append (ha : Exact pageBits ranges a) (hb : Exact pageBits ranges b) :
    Exact pageBits ranges (a ++ b) := by
  refine ⟨?_, ?_⟩
  · rw [marksOf_append, lookupsOf_append, List.map_append, ha.marks_eq, hb.marks_eq]
  · intro lookup hmem
    rw [lookupsOf_append] at hmem
    exact (List.mem_append.mp hmem).elim (ha.whole lookup) (hb.whole lookup)

/-- Pages of a part are pages of the whole. -/
theorem mono (h : Exact pageBits ranges events)
    (hle : ∀ range ∈ ranges, ∃ other ∈ others, other.start ≤ range.start ∧
      range.stop ≤ other.stop) : Exact pageBits others events := by
  refine ⟨h.marks_eq, fun lookup hmem => ?_⟩
  obtain ⟨range, hrange, part, hpart, rfl⟩ := h.whole lookup hmem
  obtain ⟨other, hother, hstart, hstop⟩ := hle range hrange
  exact ⟨other, hother, part, ⟨hpart.count_pos, Nat.le_trans hstart hpart.start_le,
    Nat.le_trans hpart.stop_le hstop⟩, rfl⟩

theorem subset (h : Exact pageBits ranges events) (hsubset : ranges ⊆ others) :
    Exact pageBits others events :=
  h.mono fun range hmem => ⟨range, hsubset hmem, Nat.le_refl _, Nat.le_refl _⟩

end Exact

namespace Upload

open Staging (Allocation Pool)

variable {ε σ : Type} {d : Device σ} {u : Upload} {p q : Pool} {batch : Batch}
variable {events : List Event}

/-- However the staging of a piece ends, the piece is claimed and looked up once. -/
theorem StagesPiece.claimed {address : Nat} {piece : Allocation} {ending : Ending ε Batch}
    (h : StagesPiece u batch address piece ending events) :
    marksOf events = [(address, piece.size % addressLimit, false)] ∧
      lookupsOf events = [(address, piece.size)] := by
  cases h with
  | outside _ => exact ⟨rfl, rfl⟩
  | filled _ hpush =>
    cases hpush with
    | joined _ => exact ⟨rfl, rfl⟩
    | sourceless _ _ => exact ⟨rfl, rfl⟩
    | started _ _ =>
      have hrecorded := staged_commands u batch u.target
      constructor
      · rw [marksOf_append, marksOf, marksOf, List.filterMap_cons_none rfl]
        exact congrArg _ hrecorded.marks
      · rw [lookupsOf_append, lookupsOf, lookupsOf, List.filterMap_cons_none rfl]
        exact congrArg _ hrecorded.lookups

/-- A piece for which whole pages were requested is some of them. -/
theorem StagesPiece.exact {start remaining : Nat} {piece : Allocation} {ending : Ending ε Batch}
    {requested : List Event}
    (h : StagesPiece u batch (toAddress (start <<< u.pageBits)) piece ending events)
    (hrequest : Pool.Requests d p u.submission (remaining <<< u.pageBits) (1 <<< u.pageBits)
      (.done piece) q requested)
    (hp : p.Valid) (haligned : p.Aligned (1 <<< u.pageBits))
    (hlimit : (start + remaining) <<< u.pageBits < addressLimit) :
    Exact u.pageBits [⟨start, remaining⟩] events := by
  obtain ⟨hmarks, hlookups⟩ := h.claimed
  obtain ⟨hremaining, haddress⟩ := lt_of_stop_lt hlimit
  have hdvd := hrequest.dvd_size haligned (one_shiftLeft_dvd _ _)
  obtain ⟨hpages, hle⟩ := pages_shiftLeft hdvd hrequest.size_le hremaining
  have hpos := hrequest.size_pos hp
  have hsize : piece.size < addressLimit := by
    have hstop := shiftLeft_le_shiftLeft u.pageBits (Nat.le_add_left remaining start)
    exact Nat.lt_of_le_of_lt (Nat.le_trans hrequest.size_le hstop) hlimit
  rw [haddress] at hmarks hlookups
  refine ⟨?_, ?_⟩
  · rw [hmarks, hlookups, Nat.mod_eq_of_lt hsize]
    rfl
  · rw [hlookups]
    intro lookup hmem
    rw [List.mem_singleton.mp hmem]
    refine ⟨_, List.mem_singleton_self _, ⟨start, u.pages piece⟩, ⟨?_, Nat.le_refl _, ?_⟩, ?_⟩
    · rw [← hpages, Nat.shiftLeft_eq] at hpos
      exact Nat.pos_of_mul_pos_right hpos
    · exact Nat.add_le_add_left hle start
    · rw [hpages]

theorem StagesPages.exact {start remaining : Nat}
    {ending : Ending ε (Batch × Option StagingError)}
    (h : StagesPages d u p batch start remaining ending q events) (hp : p.Valid)
    (haligned : p.Aligned (1 <<< u.pageBits))
    (hlimit : (start + remaining) <<< u.pageBits < addressLimit) :
    Exact u.pageBits [⟨start, remaining⟩] events := by
  induction h with
  | finished _ _ _ => exact .of_eq_nil rfl rfl
  | failed _ hrequest => exact .of_calls hrequest.calls
  | stopped _ hrequest => exact .of_calls hrequest.calls
  | broken _ hrequest hpiece =>
    exact (Exact.of_calls hrequest.calls).append (hpiece.exact hrequest hp haligned hlimit)
  | uneven _ hrequest hpiece _ =>
    exact (Exact.of_calls hrequest.calls).append (hpiece.exact hrequest hp haligned hlimit)
  | @piece _ _ _ _ _ start remaining a _ _ _ _ _ hrequest hpiece hpages _ ih =>
    have hsum : start + u.pages a + (remaining - u.pages a) = start + remaining := by omega
    have hrest := ih (hrequest.valid hp) (hrequest.aligned haligned (one_shiftLeft_dvd _ _))
      (by rwa [hsum])
    refine ((Exact.of_calls hrequest.calls).append
      (hpiece.exact hrequest hp haligned hlimit)).append (hrest.mono fun range hmem => ?_)
    rw [List.mem_singleton.mp hmem]
    exact ⟨_, List.mem_singleton_self _, Nat.le_add_right _ _, Nat.le_of_eq hsum⟩

theorem exact_announce {ranges : List PageRange} (u : Upload) (range : PageRange) :
    Exact u.pageBits ranges (u.announce range) :=
  .of_eq_nil (staged_announce u range).marks (staged_announce u range).lookups

theorem StagesRanges.exact {ranges : List PageRange}
    {ending : Ending ε (Batch × Option StagingError)}
    (h : StagesRanges d u p batch ranges ending q events) (hp : p.Valid)
    (haligned : p.Aligned (1 <<< u.pageBits))
    (hlimit : ∀ range ∈ ranges, range.stop <<< u.pageBits < addressLimit) :
    Exact u.pageBits ranges events := by
  induction h with
  | finished _ _ => exact .of_eq_nil rfl rfl
  | failed hpages =>
    have hfirst := hpages.exact hp haligned (hlimit _ List.mem_cons_self)
    exact (exact_announce u _).append (hfirst.subset (by simp))
  | broken hpages =>
    have hfirst := hpages.exact hp haligned (hlimit _ List.mem_cons_self)
    exact (exact_announce u _).append (hfirst.subset (by simp))
  | range hpages _ ih =>
    have hfirst := hpages.exact hp haligned (hlimit _ List.mem_cons_self)
    have hrest := ih (hpages.keeps (fun hrequest _ => hrequest.valid) hp)
      (hpages.keeps (fun hrequest hsize hp => hrequest.aligned hp hsize) haligned)
      (fun range hmem => hlimit range (List.mem_cons_of_mem _ hmem))
    exact ((exact_announce u _).append (hfirst.subset (by simp))).append
      (hrest.subset (List.subset_cons_self _ _))

/-- However an upload ends, it has looked up whole pages of its ranges. -/
theorem Stages.exact {ranges : List PageRange} {ending : Ending ε (Option StagingError)}
    (h : Stages d u p ranges ending q events) (hp : p.Valid)
    (haligned : p.Aligned (1 <<< u.pageBits))
    (hlimit : ∀ range ∈ ranges, range.stop <<< u.pageBits < addressLimit) :
    Exact u.pageBits ranges events := by
  cases h with
  | broken hranges => exact hranges.exact hp haligned hlimit
  | sourceless hranges _ => exact hranges.exact hp haligned hlimit
  | @staged _ batch _ _ hranges _ =>
    have hrecorded := staged_commands u batch u.target
    exact (hranges.exact hp haligned hlimit).append (.of_eq_nil hrecorded.marks hrecorded.lookups)

end Upload

end GuestReplica
