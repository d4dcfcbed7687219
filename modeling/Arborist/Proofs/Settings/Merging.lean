import Arborist.Proofs.Settings.Keys
import Mathlib.Data.List.Induction

/-!
# What a merge holds under a key

Mappings are merged entry by entry, and each entry is laid on what is there under its key
(`Value.laidOn`): a mapping laid on a mapping is merged into it, anything else covers what is below.
From one entry to one mapping to a row of them:

* `Entries.mergeEntry_eq_putSame` — an entry is set to its value laid on what is there;
* `Entries.get?_mergeInto` — under each key a mapping lays at most one value on the earlier ones;
* `Entries.get?_merge` — under a key a merge holds the values of the mappings, stacked.

What a stack of values comes to depends on how it ends: its last value alone counts
(`Value.stacked_alone`), or the mappings at its end are merged (`Value.stacked_maps`).
-/

namespace Arborist

/-! ## Values on top of each other -/

namespace Value

variable {value : Value} {below : Option Value} {front : List Value}

@[simp] theorem isUnset_iff : value.isUnset = true ↔ value = .unset := by
  cases value <;> simp [isUnset]

/-- Whether a value is a mapping. -/
def IsMap (value : Value) : Prop := ∃ entries, value = .map entries

/-- A value laid on what is below it, if anything is. -/
def laidOn (below : Option Value) (value : Value) : Value :=
  match below, value with
  | some (.map old), .map new => .map (Entries.mergeInto (Entries.withoutUnset old) new)
  | _, value => value

/-- What is no mapping covers what is below. -/
theorem laidOn_of_not_map (h : ¬value.IsMap) (below : Option Value) :
    value.laidOn below = value := by
  unfold laidOn
  split
  · exact absurd ⟨_, rfl⟩ h
  · rfl

/-- A value is as it was where there is no mapping below. -/
theorem laidOn_of_below (h : ∀ old, below ≠ some (.map old)) (value : Value) :
    value.laidOn below = value := by
  unfold laidOn
  split
  · exact absurd rfl (h _)
  · rfl

theorem laidOn_map (old new : Entries) :
    laidOn (some (.map old)) (.map new) = .map (Entries.mergeInto (Entries.withoutUnset old) new) :=
  rfl

theorem laidOn_ne_unset (h : value ≠ .unset) (below : Option Value) :
    value.laidOn below ≠ .unset := by
  unfold laidOn
  split
  · simp
  · exact h

/-- Values laid one on the other, the first at the bottom. -/
def stacked (values : List Value) : Option Value :=
  values.foldl (fun below value => some (value.laidOn below)) none

theorem stacked_concat (values : List Value) (value : Value) :
    stacked (values ++ [value]) = some (value.laidOn (stacked values)) := by
  simp [stacked]

theorem stacked_eq_none_iff {values : List Value} : stacked values = none ↔ values = [] := by
  rcases List.eq_nil_or_concat values with rfl | ⟨front, last, rfl⟩
  · simp [stacked]
  · simp [stacked_concat]

/-- If the last value is no mapping, it alone counts. -/
theorem stacked_of_not_map (h : ¬value.IsMap) (front : List Value) :
    stacked (front ++ [value]) = some value := by
  rw [stacked_concat, laidOn_of_not_map h]

theorem stacked_ne_map (h : ∀ value ∈ front.getLast?, ¬value.IsMap) (old : Entries) :
    stacked front ≠ some (.map old) := by
  rcases List.eq_nil_or_concat front with rfl | ⟨front, last, rfl⟩
  · simp [stacked]
  · have hlast : ¬last.IsMap := h last (by simp)
    rw [List.concat_eq_append, stacked_of_not_map hlast]
    intro heq
    exact hlast ⟨old, Option.some.inj heq⟩

/-- Also a mapping alone counts, if there is no mapping directly below it. -/
theorem stacked_alone (h : value.IsMap → ∀ below ∈ front.getLast?, ¬below.IsMap) :
    stacked (front ++ [value]) = some value := by
  by_cases hmap : value.IsMap
  · rw [stacked_concat, laidOn_of_below (stacked_ne_map (h hmap))]
  · exact stacked_of_not_map hmap front

end Value

namespace Entries

variable {entries earlier later : Entries} {key other : Scalar} {value : Value}

/-! ## Merging one entry -/

theorem mergeEntry_unset (earlier : Entries) (key : Scalar) :
    mergeEntry earlier key .unset = earlier := by
  rw [mergeEntry]

/-- An entry is set to its value laid on what is there under its key. -/
theorem mergeEntry_eq_putSame (hset : value ≠ .unset) (earlier : Entries) (key : Scalar) :
    mergeEntry earlier key value = earlier.putSame key (value.laidOn (earlier.get? key)) := by
  cases value with
  | unset => exact absurd rfl hset
  | scalar | list | set =>
      rw [mergeEntry, Value.laidOn_of_not_map]
      simp [Value.IsMap]
  | map new =>
      rw [mergeEntry]
      split
      · rename_i old hold
        rw [hold, Value.laidOn_map]
      · rename_i hnone
        rw [Value.laidOn_of_below hnone]

theorem get?_mergeEntry (earlier : Entries) (key other : Scalar) (value : Value) :
    (mergeEntry earlier key value).get? other =
      if key.sameKey other && !value.isUnset then some (value.laidOn (earlier.get? other))
      else earlier.get? other := by
  by_cases hset : value = .unset
  · simp [hset, mergeEntry_unset, Value.isUnset]
  · rw [mergeEntry_eq_putSame hset, get?_putSame]
    by_cases hkey : key.sameKey other = true
    · simp [hkey, hset, get?_congr hkey]
    · simp [hkey]

theorem distinct_mergeEntry (h : earlier.Distinct) (key : Scalar) (value : Value) :
    (mergeEntry earlier key value).Distinct := by
  by_cases hset : value = .unset
  · rwa [hset, mergeEntry_unset]
  · rw [mergeEntry_eq_putSame hset]
    exact distinct_putSame h key _

/-- No entry of the mapping is unset. -/
def Settled (entries : Entries) : Prop := ∀ entry ∈ entries, entry.2 ≠ .unset

theorem settled_mergeEntry (h : earlier.Settled) (key : Scalar) (value : Value) :
    (mergeEntry earlier key value).Settled := by
  by_cases hset : value = .unset
  · rwa [hset, mergeEntry_unset]
  · rw [mergeEntry_eq_putSame hset]
    intro entry hentry
    rcases mem_putSame hentry with hnew | hold
    · rw [hnew]
      exact Value.laidOn_ne_unset hset _
    · exact h entry hold

/-! ## Merging a mapping -/

/-- Under each key a mapping lays at most one value on the earlier ones. -/
theorem get?_mergeInto (h : later.Distinct) (earlier : Entries) (key : Scalar) :
    (mergeInto earlier later).get? key =
      ((later.get? key).toList.filter (!·.isUnset)).foldl
        (fun below value => some (value.laidOn below)) (earlier.get? key) := by
  induction later generalizing earlier with
  | nil => rfl
  | cons entry later ih =>
      obtain ⟨first, value⟩ := entry
      obtain ⟨hfirst, hlater⟩ := distinct_cons.mp h
      rw [mergeInto, ih hlater, get?_mergeEntry, get?_cons]
      by_cases hkey : first.sameKey key = true
      · have hnone : get? later key = none := get?_congr hkey later ▸ hfirst
        cases value <;> simp [hkey, hnone, Value.isUnset]
      · simp [hkey]

theorem distinct_mergeInto (h : earlier.Distinct) (later : Entries) :
    (mergeInto earlier later).Distinct := by
  induction later generalizing earlier with
  | nil => rwa [mergeInto]
  | cons entry later ih =>
      rw [mergeInto]
      exact ih (distinct_mergeEntry h entry.1 entry.2)

theorem settled_mergeInto (h : earlier.Settled) (later : Entries) :
    (mergeInto earlier later).Settled := by
  induction later generalizing earlier with
  | nil => rwa [mergeInto]
  | cons entry later ih =>
      rw [mergeInto]
      exact ih (settled_mergeEntry h entry.1 entry.2)

/-- Entries under new keys go to the end, those that are unset left out. -/
theorem mergeInto_of_new (hnew : ∀ entry ∈ later, earlier.get? entry.1 = none)
    (h : later.Distinct) : mergeInto earlier later = earlier ++ later.withoutUnset := by
  induction later generalizing earlier with
  | nil => simp [mergeInto, withoutUnset]
  | cons entry later ih =>
      obtain ⟨key, value⟩ := entry
      obtain ⟨hfirst, hlater⟩ := distinct_cons.mp h
      obtain ⟨hkey, hrest⟩ := List.forall_mem_cons.mp hnew
      rw [mergeInto]
      by_cases hset : value = .unset
      · rw [hset, mergeEntry_unset, ih hrest hlater]
        simp [withoutUnset, Value.isUnset]
      · have hkept : value.isUnset = false := Bool.eq_false_iff.mpr (by simpa using hset)
        have hput : mergeEntry earlier key value = earlier ++ [(key, value)] := by
          rw [mergeEntry_eq_putSame hset, hkey, Value.laidOn_of_below (by simp),
            putSame_of_get?_eq_none hkey]
        have hbehind : ∀ entry ∈ later, (earlier ++ [(key, value)]).get? entry.1 = none := by
          intro entry hentry
          have hnot : ¬key.sameKey entry.1 = true := fun hsame =>
            get?_eq_none_iff.mp hfirst entry hentry (Scalar.sameKey_symm hsame)
          rw [← putSame_of_get?_eq_none hkey, get?_putSame, if_neg hnot, hrest entry hentry]
        rw [hput, ih hbehind hlater]
        simp [withoutUnset, hkept]

/-- A mapping merged into none is the mapping without what is unset in it. -/
theorem mergeInto_nil_left (h : entries.Distinct) : mergeInto [] entries = entries.withoutUnset :=
  mergeInto_of_new (fun _ _ => rfl) h

theorem Settled.withoutUnset_eq (h : entries.Settled) : entries.withoutUnset = entries := by
  refine List.filter_eq_self.mpr fun entry hentry => ?_
  simpa [← Bool.not_eq_true] using h entry hentry

/-! ## Merging many mappings -/

variable {mappings first rest : List (Option Entries)}

/-- The values other than unset that mappings hold under a key, in their order. -/
def valuesUnder (mappings : List (Option Entries)) (key : Scalar) : List Value :=
  (mappings.filterMap fun mapping => mapping.bind (·.get? key)).filter (!·.isUnset)

theorem valuesUnder_append (first rest : List (Option Entries)) (key : Scalar) :
    valuesUnder (first ++ rest) key = valuesUnder first key ++ valuesUnder rest key := by
  simp [valuesUnder]

theorem valuesUnder_singleton (mapping : Option Entries) (key : Scalar) :
    valuesUnder [mapping] key = ((mapping.getD []).get? key).toList.filter (!·.isUnset) := by
  cases mapping with
  | none => rfl
  | some entries => cases hvalue : entries.get? key <;> simp [valuesUnder, hvalue]

theorem exists_mem_of_mem_valuesUnder (h : value ∈ valuesUnder mappings key) :
    ∃ mapping, some mapping ∈ mappings ∧ ∃ entry ∈ mapping,
      entry.1.sameKey key = true ∧ entry.2 = value ∧ value ≠ .unset := by
  obtain ⟨hvalue, hset⟩ := List.mem_filter.mp h
  obtain ⟨mapping, hmapping, hget⟩ := List.mem_filterMap.mp hvalue
  obtain ⟨entries, rfl, hentries⟩ := Option.bind_eq_some_iff.mp hget
  obtain ⟨entry, hentry, hkey, rfl⟩ := exists_mem_of_get? hentries
  refine ⟨entries, hmapping, entry, hentry, hkey, rfl, ?_⟩
  intro hunset
  simp [hunset, Value.isUnset] at hset

theorem merge_concat (mappings : List (Option Entries)) (last : Option Entries) :
    merge (mappings ++ [last]) = mergeInto (merge mappings) (last.getD []) := by
  simp [merge]

theorem distinct_merge (mappings : List (Option Entries)) : (merge mappings).Distinct := by
  induction mappings using List.reverseRecOn with
  | nil => exact distinct_nil
  | append_singleton mappings last ih =>
      rw [merge_concat]
      exact distinct_mergeInto ih _

theorem settled_merge (mappings : List (Option Entries)) : (merge mappings).Settled := by
  induction mappings using List.reverseRecOn with
  | nil => simp [merge, Settled]
  | append_singleton mappings last ih =>
      rw [merge_concat]
      exact settled_mergeInto ih _

/-- Under a key a merge holds the values of the mappings under that key, stacked. -/
theorem get?_merge (h : ∀ mapping, some mapping ∈ mappings → mapping.Distinct) (key : Scalar) :
    (merge mappings).get? key = Value.stacked (valuesUnder mappings key) := by
  induction mappings using List.reverseRecOn with
  | nil => rfl
  | append_singleton mappings last ih =>
      have hlast : (last.getD []).Distinct := by
        cases last with
        | none => exact distinct_nil
        | some entries => exact h entries (by simp)
      have hmappings : ∀ mapping, some mapping ∈ mappings → mapping.Distinct :=
        fun mapping hmapping => h mapping (List.mem_append_left _ hmapping)
      rw [merge_concat, get?_mergeInto hlast, ih hmappings, valuesUnder_append,
        valuesUnder_singleton, Value.stacked, Value.stacked, List.foldl_append]

/-- Mappings that are merged already can be merged on. -/
theorem merge_append (first rest : List (Option Entries)) :
    merge (first ++ rest) = merge (some (merge first) :: rest) := by
  have hfirst : mergeInto [] (merge first) = merge first := by
    rw [mergeInto_nil_left (distinct_merge first), (settled_merge first).withoutUnset_eq]
  simp only [merge, List.foldl_append, List.foldl_cons, Option.getD_some]
  rw [← merge, hfirst, merge]

theorem merge_singleton (h : entries.Distinct) : merge [some entries] = entries.withoutUnset :=
  mergeInto_nil_left h

end Entries

/-! ## How a stack of values ends -/

/-- If the last two values or more are mappings, the mappings at the end are merged. -/
theorem Value.stacked_maps {front : List Value} {maps : List Entries}
    (hfront : ∀ value ∈ front.getLast?, ¬value.IsMap) (hmaps : ∀ entries ∈ maps, entries.Distinct)
    (hlength : 2 ≤ maps.length) :
    stacked (front ++ maps.map .map) = some (.map (Entries.merge (maps.map some))) := by
  induction maps using List.reverseRecOn with
  | nil => simp at hlength
  | append_singleton maps last ih =>
      obtain ⟨hmaps, hlast⟩ := List.forall_mem_append.mp hmaps
      rw [List.map_append, List.map_singleton, ← List.append_assoc, stacked_concat,
        List.map_append, List.map_singleton, Entries.merge_concat, Option.getD_some]
      by_cases hmore : 2 ≤ maps.length
      · rw [ih hmaps hmore, laidOn_map, (Entries.settled_merge _).withoutUnset_eq]
      · obtain ⟨only, rfl⟩ : ∃ only, maps = [only] := by
          rw [← List.length_eq_one_iff]
          simp only [List.length_append, List.length_singleton] at hlength
          omega
        rw [List.map_singleton, stacked_alone fun _ => hfront, laidOn_map, List.map_singleton,
          Entries.merge_singleton (hmaps only List.mem_cons_self)]

end Arborist
