import Arborist.Proofs.Settings.Merging

/-!
# The closed form of a merge

Merging goes through the mappings one by one, but what it holds under a key in the end can be read
off the values that the mappings hold there: the last of them counts, together with the mappings
right before it if it is a mapping itself (`Entries.get?_merge_of_alone`,
`Entries.get?_merge_of_maps`).

Merging passes over what is unset, but a value that is taken over as it is may hold something unset
inside. `Entries.KeepsUnset` says where this happens: at a value that is not laid on a mapping,
or further down, where mappings under one key are merged. Nothing else that is unset survives.
-/

namespace Arborist

/-! ## Dictionaries, and what is unset in them -/

namespace Value

/-- No mapping in the value, at any depth, has a key twice. -/
inductive Keyed : Value → Prop
  | scalar (value : Scalar) : Keyed (.scalar value)
  | set (members : List Scalar) : Keyed (.set members)
  | unset : Keyed .unset
  | list {items : List Value} : (∀ item ∈ items, Keyed item) → Keyed (.list items)
  | map {entries : Entries} :
      entries.Distinct → (∀ entry ∈ entries, Keyed entry.2) → Keyed (.map entries)

/-- The value is unset, or something in it at some depth is. -/
inductive HoldsUnset : Value → Prop
  | unset : HoldsUnset .unset
  | list {items : List Value} {item : Value} :
      item ∈ items → HoldsUnset item → HoldsUnset (.list items)
  | map {entries : Entries} {entry : Scalar × Value} :
      entry ∈ entries → HoldsUnset entry.2 → HoldsUnset (.map entries)

variable {entries : Entries}

@[simp] theorem keyed_scalar (value : Scalar) : (Value.scalar value).Keyed := .scalar value

@[simp] theorem keyed_unset : Value.unset.Keyed := .unset

@[simp] theorem keyed_map_iff :
    (Value.map entries).Keyed ↔ entries.Distinct ∧ ∀ entry ∈ entries, entry.2.Keyed := by
  constructor
  · intro h
    cases h with
    | map hdistinct hvalues => exact ⟨hdistinct, hvalues⟩
  · intro h
    exact .map h.1 h.2

@[simp] theorem not_holdsUnset_scalar (value : Scalar) : ¬(Value.scalar value).HoldsUnset := by
  intro h
  cases h

@[simp] theorem holdsUnset_unset : Value.unset.HoldsUnset := .unset

@[simp] theorem holdsUnset_map_iff :
    (Value.map entries).HoldsUnset ↔ ∃ entry ∈ entries, entry.2.HoldsUnset := by
  constructor
  · intro h
    cases h with
    | map hentry hvalue => exact ⟨_, hentry, hvalue⟩
  · intro h
    obtain ⟨entry, hentry, hvalue⟩ := h
    exact .map hentry hvalue

/-- How a list of values can end: in a value that has no mapping to be merged with before it, or
in two mappings or more. -/
theorem ending_cases (values : List Value) :
    values = [] ∨
      (∃ front last, values = front ++ [last] ∧
        (last.IsMap → ∀ below ∈ front.getLast?, ¬below.IsMap)) ∨
      ∃ (front : List Value) (maps : List Entries), values = front ++ maps.map .map ∧
        (∀ below ∈ front.getLast?, ¬below.IsMap) ∧ 2 ≤ maps.length := by
  induction values using List.reverseRecOn with
  | nil => exact .inl rfl
  | append_singleton values last ih =>
      refine .inr ?_
      by_cases hlast : last.IsMap
      · obtain ⟨entries, rfl⟩ := hlast
        rcases ih with rfl | ⟨front, below, rfl, hbelow⟩ | ⟨front, maps, rfl, hfront, hlength⟩
        · exact .inl ⟨[], _, rfl, by simp⟩
        · by_cases hmap : below.IsMap
          · obtain ⟨others, rfl⟩ := hmap
            exact .inr ⟨front, [others, entries], by simp, hbelow ⟨others, rfl⟩, Nat.le_refl _⟩
          · exact .inl ⟨_, _, rfl, fun _ => by simpa using hmap⟩
        · refine .inr ⟨front, maps ++ [entries], by simp, hfront, ?_⟩
          rw [List.length_append]
          omega
      · exact .inl ⟨values, last, rfl, fun hmap => absurd hmap hlast⟩

end Value

namespace Entries

/-- Entries may be unset, but nothing inside their values is. -/
def UnsetOnTop (entries : Entries) : Prop :=
  ∀ entry ∈ entries, entry.2 = .unset ∨ ¬entry.2.HoldsUnset

variable {mappings : List (Option Entries)} {key : Scalar} {front : List Value}
  {maps : List Entries} {value : Value}

theorem map_mem_valuesUnder (h : valuesUnder mappings key = front ++ maps.map .map)
    {mapping : Entries} (hmapping : some mapping ∈ maps.map some) :
    .map mapping ∈ valuesUnder mappings key := by
  rw [h]
  simpa using Or.inr hmapping

theorem not_holdsUnset_of_mem_valuesUnder
    (hunset : ∀ mapping, some mapping ∈ mappings → mapping.UnsetOnTop)
    (h : value ∈ valuesUnder mappings key) : ¬value.HoldsUnset := by
  obtain ⟨mapping, hmapping, entry, hentry, -, rfl, hset⟩ := exists_mem_of_mem_valuesUnder h
  exact (hunset mapping hmapping entry hentry).resolve_left hset

section Keyed

variable (hkeyed : ∀ mapping, some mapping ∈ mappings → (Value.map mapping).Keyed)
include hkeyed

theorem keyed_of_mem_valuesUnder (h : value ∈ valuesUnder mappings key) : value.Keyed := by
  obtain ⟨mapping, hmapping, entry, hentry, -, rfl, -⟩ := exists_mem_of_mem_valuesUnder h
  exact (Value.keyed_map_iff.mp (hkeyed mapping hmapping)).2 entry hentry

/-- Mappings that are merged under one key have no key twice either. -/
theorem keyed_of_valuesUnder_eq (h : valuesUnder mappings key = front ++ maps.map .map) :
    ∀ mapping, some mapping ∈ maps.map some → (Value.map mapping).Keyed := by
  intro mapping hmapping
  exact keyed_of_mem_valuesUnder hkeyed (map_mem_valuesUnder h hmapping)

theorem get?_merge_of_keyed (key : Scalar) :
    (merge mappings).get? key = Value.stacked (valuesUnder mappings key) :=
  get?_merge (fun mapping hmapping => (Value.keyed_map_iff.mp (hkeyed mapping hmapping)).1) key

/-- A value without a mapping to be merged with is taken over as it is. -/
theorem get?_merge_of_alone (hvalues : valuesUnder mappings key = front ++ [value])
    (halone : value.IsMap → ∀ below ∈ front.getLast?, ¬below.IsMap) :
    (merge mappings).get? key = some value := by
  rw [get?_merge_of_keyed hkeyed, hvalues, Value.stacked_alone halone]

/-- Two mappings or more at the end of the values under a key are merged. -/
theorem get?_merge_of_maps (hvalues : valuesUnder mappings key = front ++ maps.map .map)
    (hfront : ∀ below ∈ front.getLast?, ¬below.IsMap) (hlength : 2 ≤ maps.length) :
    (merge mappings).get? key = some (.map (merge (maps.map some))) := by
  have hmaps : ∀ entries ∈ maps, entries.Distinct := by
    intro entries hentries
    have hentries := keyed_of_valuesUnder_eq hkeyed hvalues entries (List.mem_map_of_mem hentries)
    exact (Value.keyed_map_iff.mp hentries).1
  rw [get?_merge_of_keyed hkeyed, hvalues, Value.stacked_maps hfront hmaps hlength]

end Keyed

/-! ## The closed form -/

/-- **The closed form of a merge.** Let the mappings have no key twice, at any depth, and let
nothing below their own entries be unset. Then the merge has a key exactly if some mapping sets it;
what it holds there is the last value, if that is no mapping, and otherwise the merge of the longest
run of mappings that ends with it. Consequently the first of the mappings can be merged before the
others. -/
theorem merge_closedForm
    (hkeyed : ∀ mapping, some mapping ∈ mappings → (Value.map mapping).Keyed)
    (hunset : ∀ mapping, some mapping ∈ mappings → mapping.UnsetOnTop) :
    (∀ key, (merge mappings).get? key ≠ none ↔ valuesUnder mappings key ≠ []) ∧
    (∀ key front last, valuesUnder mappings key = front ++ [last] → ¬last.IsMap →
      (merge mappings).get? key = some last) ∧
    (∀ key front maps, valuesUnder mappings key = front ++ maps.map .map → maps ≠ [] →
      (∀ below ∈ front.getLast?, ¬below.IsMap) →
      (merge mappings).get? key = some (.map (merge (maps.map some)))) ∧
    ∀ first rest, mappings = first ++ rest →
      merge mappings = merge (some (merge first) :: rest) := by
  refine ⟨fun key => ?_, fun key front last hvalues hlast => ?_,
    fun key front maps hvalues hne hfront => ?_, fun first rest hsplit => ?_⟩
  · rw [get?_merge_of_keyed hkeyed, ne_eq, Value.stacked_eq_none_iff]
  · exact get?_merge_of_alone hkeyed hvalues fun hmap => absurd hmap hlast
  · by_cases hlength : 2 ≤ maps.length
    · exact get?_merge_of_maps hkeyed hvalues hfront hlength
    · -- A single mapping is taken over as it is, and merging it alone changes nothing.
      obtain ⟨only, rfl⟩ : ∃ only, maps = [only] := by
        rw [← List.length_eq_one_iff]
        have hpositive := List.length_pos_iff.mpr hne
        omega
      have hmem : Value.map only ∈ valuesUnder mappings key := by simp [hvalues]
      have hfree := not_holdsUnset_of_mem_valuesUnder hunset hmem
      have hsettled : only.Settled := fun inner hinner heq =>
        hfree (.map hinner (heq ▸ .unset))
      have hdistinct : only.Distinct :=
        (Value.keyed_map_iff.mp (keyed_of_mem_valuesUnder hkeyed hmem)).1
      rw [get?_merge_of_alone hkeyed hvalues fun _ => hfront, List.map_singleton,
        merge_singleton hdistinct, hsettled.withoutUnset_eq]
  · rw [hsplit, merge_append]

/-- Four layers, one of them not there. The first key is spelled in two ways; its values are a
mapping, a number that cuts it off, and two mappings. -/
def layers : List (Option Entries) := [
  some [(.int 1, .map [(.int 5, .scalar (.int 0))]), (.int 2, .unset)],
  none,
  some [(.bool true, .scalar .null)],
  some [(.int 1, .map [(.int 6, .scalar (.int 7))]), (.int 2, .scalar .null)],
  some [(.bool true, .map [(.int 5, .scalar (.int 8))]), (.int 2, .unset)]]

theorem merge_closedForm_layers :
    ((∀ mapping, some mapping ∈ layers → (Value.map mapping).Keyed) ∧
      ∀ mapping, some mapping ∈ layers → mapping.UnsetOnTop) ∧
    (merge layers).get? (.int 1) = some (.map (merge [
      some [(.int 6, .scalar (.int 7))], some [(.int 5, .scalar (.int 8))]])) ∧
    (merge layers).get? (.int 2) = some (.scalar .null) ∧
    (merge layers).get? (.int 3) = none := by
  have hkeyed : ∀ mapping, some mapping ∈ layers → (Value.map mapping).Keyed := by
    simp only [layers, List.mem_cons, List.not_mem_nil, or_false, Option.some.injEq, reduceCtorEq,
      false_or, forall_eq_or_imp, forall_eq, Value.keyed_map_iff, Value.keyed_scalar,
      Value.keyed_unset, and_true]
    decide
  have hunset : ∀ mapping, some mapping ∈ layers → mapping.UnsetOnTop := by
    simp only [layers, List.mem_cons, List.not_mem_nil, or_false, Option.some.injEq, reduceCtorEq,
      false_or, forall_eq_or_imp, forall_eq, UnsetOnTop, Value.holdsUnset_map_iff,
      Value.not_holdsUnset_scalar, exists_eq_left]
    simp
  obtain ⟨hset, hlast, hmaps, -⟩ := merge_closedForm hkeyed hunset
  refine ⟨⟨hkeyed, hunset⟩, ?_, ?_, ?_⟩
  · exact hmaps (.int 1) [.map [(.int 5, .scalar (.int 0))], .scalar .null]
      [[(.int 6, .scalar (.int 7))], [(.int 5, .scalar (.int 8))]] rfl (by simp)
      (by simp [Value.IsMap])
  · exact hlast (.int 2) [] (.scalar .null) rfl (by simp [Value.IsMap])
  · exact not_not.mp (mt (hset (.int 3)).mp (not_not.mpr rfl))

/-! ## What stays unset -/

/-- Merging the mappings keeps something unset: a value that holds something unset is taken over as
it is, or mappings that are merged under one key keep something unset in turn. -/
inductive KeepsUnset : List (Option Entries) → Prop
  | taken {mappings : List (Option Entries)} {key : Scalar} {front : List Value} {value : Value} :
      valuesUnder mappings key = front ++ [value] →
      (value.IsMap → ∀ below ∈ front.getLast?, ¬below.IsMap) → value.HoldsUnset →
      KeepsUnset mappings
  | merged {mappings : List (Option Entries)} {key : Scalar} {front : List Value}
      {maps : List Entries} :
      valuesUnder mappings key = front ++ maps.map .map →
      (∀ below ∈ front.getLast?, ¬below.IsMap) → 2 ≤ maps.length → KeepsUnset (maps.map some) →
      KeepsUnset mappings

theorem holdsUnset_of_get? {entries : Entries} (h : entries.get? key = some value)
    (hvalue : value.HoldsUnset) : (Value.map entries).HoldsUnset := by
  obtain ⟨entry, hentry, -, rfl⟩ := exists_mem_of_get? h
  exact .map hentry hvalue

theorem holdsUnset_of_keepsUnset (h : KeepsUnset mappings)
    (hkeyed : ∀ mapping, some mapping ∈ mappings → (Value.map mapping).Keyed) :
    (Value.map (merge mappings)).HoldsUnset := by
  induction h with
  | taken hvalues halone hvalue =>
      exact holdsUnset_of_get? (get?_merge_of_alone hkeyed hvalues halone) hvalue
  | merged hvalues hfront hlength _ ih =>
      exact holdsUnset_of_get? (get?_merge_of_maps hkeyed hvalues hfront hlength)
        (ih (keyed_of_valuesUnder_eq hkeyed hvalues))

theorem keepsUnset_of_holdsUnset {value : Value} (h : value.HoldsUnset)
    (hvalue : value = .map (merge mappings))
    (hkeyed : ∀ mapping, some mapping ∈ mappings → (Value.map mapping).Keyed) :
    KeepsUnset mappings := by
  -- The induction goes down into the merge; where mappings were merged, it goes on with these.
  induction h generalizing mappings with
  | unset => cases hvalue
  | list => cases hvalue
  | @map entries entry hentry hunset ih =>
      cases hvalue
      have hget := (distinct_merge mappings).get?_of_mem hentry
      rcases Value.ending_cases (valuesUnder mappings entry.1) with
        hnone | ⟨front, last, hvalues, halone⟩ | ⟨front, maps, hvalues, hfront, hlength⟩
      · rw [get?_merge_of_keyed hkeyed, hnone] at hget
        cases hget
      · rw [get?_merge_of_alone hkeyed hvalues halone] at hget
        cases hget
        exact .taken hvalues halone hunset
      · rw [get?_merge_of_maps hkeyed hvalues hfront hlength] at hget
        have hmaps := ih (Option.some.inj hget).symm (keyed_of_valuesUnder_eq hkeyed hvalues)
        exact .merged hvalues hfront hlength hmaps

/-- What is unset directly in the mappings and nowhere deeper does not survive. -/
theorem not_keepsUnset (hunset : ∀ mapping, some mapping ∈ mappings → mapping.UnsetOnTop) :
    ¬KeepsUnset mappings := by
  intro h
  induction h with
  | @taken mappings key front value hvalues _ hvalue =>
      have hmem : value ∈ valuesUnder mappings key := by simp [hvalues]
      exact not_holdsUnset_of_mem_valuesUnder hunset hmem hvalue
  | merged hvalues _ _ _ ih =>
      refine ih fun mapping hmapping entry hentry => .inr fun hentryUnset => ?_
      have hmem := map_mem_valuesUnder hvalues hmapping
      exact not_holdsUnset_of_mem_valuesUnder hunset hmem (.map hentry hentryUnset)

/-- **What stays unset in a merge.** No entry of a merge is unset itself. But inside its values
something is unset exactly if a value that holds something unset is taken over as it is, be it in
the mappings themselves or in mappings that are merged under one key; in particular nothing is, if
the mappings hold nothing unset below their own entries. -/
theorem holdsUnset_merge_iff
    (hkeyed : ∀ mapping, some mapping ∈ mappings → (Value.map mapping).Keyed) :
    (∀ entry ∈ merge mappings, entry.2 ≠ .unset) ∧
    ((Value.map (merge mappings)).HoldsUnset ↔ KeepsUnset mappings) ∧
    ((∀ mapping, some mapping ∈ mappings → mapping.UnsetOnTop) →
      ¬(Value.map (merge mappings)).HoldsUnset) := by
  have hiff : (Value.map (merge mappings)).HoldsUnset ↔ KeepsUnset mappings :=
    ⟨fun h => keepsUnset_of_holdsUnset h rfl hkeyed, fun h => holdsUnset_of_keepsUnset h hkeyed⟩
  refine ⟨settled_merge mappings, hiff, fun hunset => ?_⟩
  rw [hiff]
  exact not_keepsUnset hunset

/-- Two mappings that are merged under their key. Something is unset directly in the first of them,
and something else inside a value that only the first has. -/
def deepLayers : List (Option Entries) := [
  some [(.int 1, .map [(.int 2, .unset), (.int 3, .map [(.int 4, .unset)])])],
  some [(.bool true, .map [(.int 5, .scalar .null)])]]

theorem holdsUnset_merge_iff_deepLayers :
    (∀ mapping, some mapping ∈ deepLayers → (Value.map mapping).Keyed) ∧
    (∀ entry ∈ merge deepLayers, entry.2 ≠ .unset) ∧
    (Value.map (merge deepLayers)).HoldsUnset := by
  have hkeyed : ∀ mapping, some mapping ∈ deepLayers → (Value.map mapping).Keyed := by
    simp only [deepLayers, List.mem_cons, List.not_mem_nil, or_false, Option.some.injEq,
      forall_eq_or_imp, forall_eq, Value.keyed_map_iff, Value.keyed_scalar, Value.keyed_unset,
      and_true, true_and]
    decide
  obtain ⟨hsettled, hiff, -⟩ := holdsUnset_merge_iff hkeyed
  refine ⟨hkeyed, hsettled, hiff.mpr ?_⟩
  have htaken : KeepsUnset [
      some [(.int 2, .unset), (.int 3, .map [(.int 4, .unset)])],
      some [(.int 5, .scalar .null)]] :=
    @KeepsUnset.taken _ (.int 3) [] _ rfl (by simp) (by simp)
  exact @KeepsUnset.merged _ (.int 1) [] [_, _] rfl (by simp) (Nat.le_refl 2) htaken

/-- A mapping that nothing is merged with is taken over with what is unset in it. -/
theorem merge_takes_over_unset :
    (∀ mapping, some mapping ∈ [some [(Scalar.text "a", Value.map [(.text "b", .unset)])]] →
      (Value.map mapping).Keyed) ∧
    (Value.map (merge [some [(.text "a", .map [(.text "b", .unset)])]])).HoldsUnset := by
  have hmerge : merge [some [(.text "a", .map [(.text "b", .unset)])]]
      = [(.text "a", .map [(.text "b", .unset)])] := by
    rfl
  refine ⟨?_, ?_⟩
  · simp
  · rw [hmerge]
    simp

end Entries

end Arborist
