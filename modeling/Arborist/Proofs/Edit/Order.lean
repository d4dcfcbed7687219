import Arborist.Edit.Render
import Mathlib.Data.List.Sort

/-!
# The order of edits along a source

Edits take effect by start, then by end, then by their place in the queue. This module provides
what the rendering theorems need to know about that order:

* `Listing` — the edits of a queue listed in that order, with their places; there is exactly one
  (`listing_mergeSort`, `Listing.unique`), and it lists what `sorted` returns;
* `filter_sorted` — sorting keeps the order of the edits of one range, and
  `eq_of_filter_range_eq` — a sorted list is determined by those orders; and
* `firstOverlap_eq_none_iff`, `conflicting_of_notAfter` — comparing neighbours of a sorted list
  finds two edits in conflict if there are any.

Two edits that only touch do not overlap: `Apart` allows `e.stop = f.start`. This is what makes
insertions at the border of a range, and several of them at one offset, legal.
-/

namespace Arborist.Edit

/-! ## The order itself -/

theorem notAfter_iff {e f : Edit} :
    e.notAfter f = true ↔ e.start < f.start ∨ (e.start = f.start ∧ e.stop ≤ f.stop) := by
  simp [notAfter]

theorem notAfter_trans (e f g : Edit) (hef : e.notAfter f = true) (hfg : f.notAfter g = true) :
    e.notAfter g = true := by
  rw [notAfter_iff] at *
  omega

theorem notAfter_total (e f : Edit) : (e.notAfter f || f.notAfter e) = true := by
  rw [Bool.or_eq_true, notAfter_iff, notAfter_iff]
  omega

/-- Two edits that are not after each other have the same range. -/
theorem range_eq_of_notAfter {e f : Edit} (hef : e.notAfter f = true)
    (hfe : f.notAfter e = true) : e.start = f.start ∧ e.stop = f.stop := by
  rw [notAfter_iff] at *
  omega

theorem sorted_perm (edits : List Edit) : (sorted edits).Perm edits :=
  List.mergeSort_perm edits notAfter

theorem mem_sorted {edits : List Edit} {e : Edit} : e ∈ sorted edits ↔ e ∈ edits :=
  (sorted_perm edits).mem_iff

theorem sorted_pairwise (edits : List Edit) :
    (sorted edits).Pairwise fun e f => e.notAfter f = true :=
  List.pairwise_mergeSort notAfter_trans notAfter_total edits

/-! ## Edits of one range

Sorting is stable, so the only edits whose order in the queue can matter are those of one range. -/

/-- Whether an edit has a given range. -/
def hasRange (start stop : Int) (e : Edit) : Bool := e.start == start && e.stop == stop

theorem hasRange_iff {start stop : Int} {e : Edit} :
    e.hasRange start stop = true ↔ e.start = start ∧ e.stop = stop := by
  simp [hasRange]

/-- Sorting keeps the edits of one range in the order of the queue. -/
theorem filter_sorted (edits : List Edit) (start stop : Int) :
    (sorted edits).filter (hasRange start stop) = edits.filter (hasRange start stop) := by
  have hties : (edits.filter (hasRange start stop)).Pairwise fun e f => e.notAfter f = true := by
    refine List.pairwise_of_forall_mem_list fun e he f hf => ?_
    have hrangeE := hasRange_iff.mp (List.mem_filter.mp he).2
    have hrangeF := hasRange_iff.mp (List.mem_filter.mp hf).2
    rw [notAfter_iff]
    omega
  have hsub : (edits.filter (hasRange start stop)).Sublist (sorted edits) :=
    List.sublist_mergeSort notAfter_trans notAfter_total hties List.filter_sublist
  have hsub' := hsub.filter (hasRange start stop)
  simp only [List.filter_filter, Bool.and_self] at hsub'
  exact (hsub'.eq_of_length ((sorted_perm edits).filter _).length_eq.symm).symm

/-- Lists that agree on every range have the same members. -/
theorem mem_iff_of_filter_range_eq {first second : List Edit}
    (hfilter : ∀ start stop,
      first.filter (hasRange start stop) = second.filter (hasRange start stop)) (e : Edit) :
    e ∈ first ↔ e ∈ second := by
  have h := congrArg (e ∈ ·) (hfilter e.start e.stop)
  simpa [List.mem_filter, hasRange] using h

/-- A sorted list is determined by the order of its edits within each range. -/
theorem eq_of_filter_range_eq {first second : List Edit}
    (hfirst : first.Pairwise fun e f => e.notAfter f = true)
    (hsecond : second.Pairwise fun e f => e.notAfter f = true)
    (hfilter : ∀ start stop,
      first.filter (hasRange start stop) = second.filter (hasRange start stop)) :
    first = second := by
  induction first generalizing second with
  | nil =>
      have mem_iff := mem_iff_of_filter_range_eq hfilter
      cases second with
      | nil => rfl
      | cons f second => exact absurd ((mem_iff f).mpr List.mem_cons_self) List.not_mem_nil
  | cons e first ih =>
      have mem_iff := mem_iff_of_filter_range_eq hfilter
      cases second with
      | nil => exact absurd ((mem_iff e).mp List.mem_cons_self) List.not_mem_nil
      | cons f second =>
          obtain ⟨hhead, hfirst'⟩ := List.pairwise_cons.mp hfirst
          obtain ⟨hhead', hsecond'⟩ := List.pairwise_cons.mp hsecond
          -- Neither head is after the other, so they lead the same range and are equal.
          have hrange : e.start = f.start ∧ e.stop = f.stop := by
            rcases List.mem_cons.mp ((mem_iff e).mp List.mem_cons_self) with rfl | he
            · exact ⟨rfl, rfl⟩
            rcases List.mem_cons.mp ((mem_iff f).mpr List.mem_cons_self) with rfl | hf
            · exact ⟨rfl, rfl⟩
            exact range_eq_of_notAfter (hhead f hf) (hhead' e he)
          have hef : e = f := by
            have h := hfilter e.start e.stop
            rw [List.filter_cons_of_pos (hasRange_iff.mpr ⟨rfl, rfl⟩),
              List.filter_cons_of_pos (hasRange_iff.mpr ⟨hrange.1.symm, hrange.2.symm⟩)] at h
            exact (List.cons.inj h).1
          subst hef
          have htails : ∀ start stop,
              first.filter (hasRange start stop) = second.filter (hasRange start stop) := by
            intro start stop
            have h := hfilter start stop
            rw [List.filter_cons, List.filter_cons] at h
            split at h
            · exact (List.cons.inj h).2
            · exact h
          rw [ih hfirst' hsecond' htails]

/-- Two arrangements of the same edits are equal if there is at most one edit. -/
theorem eq_of_perm_of_pairwise_false {first second : List Edit} (hperm : first.Perm second)
    (h : first.Pairwise fun _ _ => False) : first = second :=
  hperm.eq_of_pairwise (fun _ _ _ _ himpossible => himpossible.elim) h
    ((hperm.pairwise_iff fun himpossible => himpossible).mp h)

/-! ## Listings -/

/-- One queued edit before another: by start, then by end, then by their places in the queue. -/
def Before (e f : Edit × Nat) : Prop :=
  e.1.start < f.1.start ∨
    (e.1.start = f.1.start ∧ (e.1.stop < f.1.stop ∨ (e.1.stop = f.1.stop ∧ e.2 < f.2)))

/-- The edits of a queue, each with its place, in increasing order. -/
structure Listing (queue : List Edit) (listed : List (Edit × Nat)) : Prop where
  /-- Every edit of the queue is listed once. -/
  perm : listed.Perm queue.zipIdx
  /-- Start, end and place increase along the list. -/
  increasing : listed.Pairwise Before

/-- A queue sorted together with the places of its edits is a listing. -/
theorem listing_mergeSort (queue : List Edit) :
    Listing queue (queue.zipIdx.mergeSort (List.zipIdxLE notAfter)) := by
  have hperm := List.mergeSort_perm queue.zipIdx (List.zipIdxLE notAfter)
  refine ⟨hperm, ?_⟩
  have hle := List.pairwise_mergeSort (List.zipIdxLE_trans notAfter_trans)
    (List.zipIdxLE_total notAfter_total) queue.zipIdx
  -- No two edits have the same place, so the order is strict.
  have hplaces : (queue.zipIdx.mergeSort (List.zipIdxLE notAfter)).Pairwise
      fun e f => e.2 ≠ f.2 := by
    rw [hperm.pairwise_iff fun h => h.symm, ← List.pairwise_map]
    rw [List.zipIdx_map_snd]
    exact List.nodup_range'
  refine hle.imp₂ (fun e f hef hne => ?_) hplaces
  unfold List.zipIdxLE at hef
  simp only [notAfter, Bool.or_eq_true, Bool.and_eq_true, decide_eq_true_eq, beq_iff_eq] at hef
  unfold Before
  split at hef
  · split at hef
    · rw [decide_eq_true_eq] at hef
      omega
    · omega
  · cases hef

/-- A queue has no second listing. -/
theorem Listing.unique {queue : List Edit} {listed other : List (Edit × Nat)}
    (h : Listing queue listed) (hother : Listing queue other) : other = listed := by
  refine List.Perm.eq_of_pairwise (fun e f _ _ hef hfe => ?_) hother.increasing h.increasing
    (hother.perm.trans h.perm.symm)
  unfold Before at hef hfe
  omega

/-- What a listing lists is the sorted queue. -/
theorem Listing.map_fst {queue : List Edit} {listed : List (Edit × Nat)}
    (h : Listing queue listed) : listed.map Prod.fst = sorted queue := by
  rw [(listing_mergeSort queue).unique h]
  exact List.mergeSort_zipIdx

/-! ## Edits apart from each other -/

/-- No edit of a list starts before an earlier one has ended. -/
def Apart (edits : List Edit) : Prop := edits.Pairwise fun e f => e.stop ≤ f.start

/-- Two edits that cannot both be made: neither ends where the other starts or before. -/
def Conflicting (e f : Edit) : Prop := ¬e.stop ≤ f.start ∧ ¬f.stop ≤ e.start

theorem Conflicting.symm {e f : Edit} (h : Conflicting e f) : Conflicting f e := ⟨h.2, h.1⟩

/-- Comparing neighbours is enough as long as no edit is inverted: ends and starts then alternate
in increasing order. -/
theorem firstOverlap_eq_none_iff {edits : List Edit} (hle : ∀ e ∈ edits, e.start ≤ e.stop) :
    firstOverlap edits = none ↔ Apart edits := by
  fun_induction firstOverlap edits with
  | case1 first second rest hover =>
      constructor
      · intro h
        cases h
      · intro h
        have := (List.pairwise_cons.mp h).1 second List.mem_cons_self
        omega
  | case2 first second rest hover ih =>
      rw [ih fun e he => hle e (List.mem_cons_of_mem _ he)]
      constructor
      · intro h
        refine List.pairwise_cons.mpr ⟨fun e he => ?_, h⟩
        rcases List.mem_cons.mp he with rfl | he
        · omega
        · have := (List.pairwise_cons.mp h).1 e he
          have := hle second (List.mem_cons_of_mem _ List.mem_cons_self)
          omega
      · exact fun h => (List.pairwise_cons.mp h).2
  | case3 edits hshort =>
      -- At most one edit is left.
      match edits, hshort with
      | [], _ => exact iff_of_true rfl List.Pairwise.nil
      | [e], _ => exact iff_of_true rfl (List.pairwise_singleton _ e)
      | first :: second :: rest, hshort => exact absurd rfl (hshort first second rest)

/-- The overlap that is found is one of neighbours. -/
theorem firstOverlap_eq_some {edits : List Edit} {e f : Edit}
    (h : firstOverlap edits = some (e, f)) :
    ∃ before after, edits = before ++ e :: f :: after ∧ f.start < e.stop := by
  fun_induction firstOverlap edits with
  | case1 first second rest hover =>
      obtain ⟨rfl, rfl⟩ := Prod.mk.inj (Option.some.inj h)
      exact ⟨[], rest, rfl, hover⟩
  | case2 first second rest hover ih =>
      obtain ⟨before, after, hsplit, hlt⟩ := ih h
      exact ⟨first :: before, after, by rw [hsplit, List.cons_append], hlt⟩
  | case3 edits hshort => cases h

/-- Neighbours of a sorted list that overlap are in conflict. Without the second sort key an
insertion could come after a range that starts where it stands. -/
theorem conflicting_of_notAfter {e f : Edit} (hf : f.start ≤ f.stop) (hef : e.notAfter f = true)
    (hover : f.start < e.stop) : Conflicting e f := by
  rw [notAfter_iff] at hef
  unfold Conflicting
  omega

/-- Edits that follow one another are in order already. -/
theorem Apart.sorted_eq {edits : List Edit} (h : Apart edits)
    (hle : ∀ e ∈ edits, e.start ≤ e.stop) : sorted edits = edits := by
  refine List.mergeSort_of_pairwise (h.imp_of_mem fun {e f} he hf hapart => ?_)
  have hself := hle e he
  have hself' := hle f hf
  rw [notAfter_iff]
  omega

/-- Edits apart from each other are not in conflict. -/
theorem Apart.not_conflicting {edits : List Edit} (h : Apart edits) :
    edits.Pairwise fun e f => ¬Conflicting e f :=
  h.imp fun hle hconf => hconf.1 hle

end Arborist.Edit
