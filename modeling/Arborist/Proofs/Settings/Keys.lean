import Arborist.Settings.Merge
import Mathlib.Data.List.Basic

/-!
# Keys of mappings

A key can be spelled in several ways: `1`, `1.0` and `true` are one key. Being the same key is an
equivalence (`Scalar.sameKey_trans`), and a mapping is read and changed up to it:

* `Entries.get?_putSame` — a key that is set holds its value, and the other keys hold what they did;
* `Entries.distinct_putSame` — setting a key gives no key a second entry.
-/

namespace Arborist

/-! ## Spellings of one key -/

namespace Scalar

variable {a b c : Scalar}

theorem sameKey_iff :
    a.sameKey b = true ↔
      a = b ∨ (∃ n, a.asInteger? = some n ∧ b.asInteger? = some n) ∨
        ∃ t, a.asInstant? = some t ∧ b.asInstant? = some t := by
  simp only [sameKey, Bool.or_eq_true, Bool.and_eq_true, beq_iff_eq, Option.isSome_iff_exists,
    or_assoc]
  grind

/-- Numbers are no moments. -/
theorem asInstant?_eq_none {n : Int} (h : a.asInteger? = some n) : a.asInstant? = none := by
  cases a <;> simp_all [asInteger?, asInstant?]

theorem sameKey_refl (a : Scalar) : a.sameKey a = true := sameKey_iff.mpr (.inl rfl)

theorem sameKey_symm (h : a.sameKey b = true) : b.sameKey a = true := by
  rw [sameKey_iff] at h ⊢
  grind

theorem sameKey_trans (h : a.sameKey b = true) (h' : b.sameKey c = true) :
    a.sameKey c = true := by
  rw [sameKey_iff] at h h' ⊢
  have hb := @asInstant?_eq_none b
  grind

/-- Keys that are the same are the same as the same keys. -/
theorem sameKey_congr (h : a.sameKey b = true) (c : Scalar) : a.sameKey c = b.sameKey c := by
  rw [Bool.eq_iff_iff]
  exact ⟨sameKey_trans (sameKey_symm h), sameKey_trans h⟩

theorem sameKey_congr_right (h : a.sameKey b = true) (c : Scalar) :
    c.sameKey a = c.sameKey b := by
  rw [Bool.eq_iff_iff]
  exact ⟨fun hc => sameKey_trans hc h, fun hc => sameKey_trans hc (sameKey_symm h)⟩

end Scalar

namespace Entries

variable {entries : Entries} {key other : Scalar} {value : Value}

/-! ## Reading a key -/

theorem get?_cons (entry : Scalar × Value) (entries : Entries) (key : Scalar) :
    get? (entry :: entries) key =
      if entry.1.sameKey key then some entry.2 else get? entries key := by
  simp only [get?, List.find?_cons]
  split <;> simp_all

theorem get?_eq_none_iff : entries.get? key = none ↔ ∀ entry ∈ entries, ¬entry.1.sameKey key := by
  simp [get?]

theorem get?_congr (h : key.sameKey other = true) (entries : Entries) :
    entries.get? key = entries.get? other := by
  simp only [get?, Scalar.sameKey_congr_right h]

theorem exists_mem_of_get? (h : entries.get? key = some value) :
    ∃ entry ∈ entries, entry.1.sameKey key = true ∧ entry.2 = value := by
  obtain ⟨entry, hentry, rfl⟩ := Option.map_eq_some_iff.mp h
  have hsame := List.find?_some hentry
  exact ⟨entry, List.mem_of_find?_eq_some hentry, hsame, rfl⟩

/-- Setting the first key changes what it holds, and keeps its spelling. -/
theorem putSame_cons_of_same {entry : Scalar × Value} (h : entry.1.sameKey key = true) :
    putSame (entry :: entries) key value =
      (entry.1, value) ::
        entries.map fun other => if other.1 == entry.1 then (entry.1, value) else other := by
  simp [putSame, put, h]

/-- Setting another key leaves the first one alone. -/
theorem putSame_cons_of_not_same {entry : Scalar × Value} (h : ¬entry.1.sameKey key = true) :
    putSame (entry :: entries) key value = entry :: putSame entries key value := by
  unfold putSame
  rw [List.find?_cons, Bool.eq_false_iff.mpr h]
  cases hfound : entries.find? fun entry => entry.1.sameKey key with
  | none => rfl
  | some found =>
      have hsame := List.find?_some hfound
      have hne : entry.1 ≠ found.1 := by
        intro heq
        rw [heq] at h
        exact h hsame
      simp only [put, List.any_cons, beq_eq_false_iff_ne.mpr hne, Bool.false_or, List.map_cons,
        Bool.false_eq_true, if_false]
      split <;> rfl

/-- Changing what one key holds changes what no other key holds. -/
theorem get?_map_ite (h : ¬key.sameKey other = true) (entries : Entries) (value : Value) :
    get? (entries.map fun entry => if entry.1 == key then (key, value) else entry) other =
      entries.get? other := by
  induction entries with
  | nil => rfl
  | cons entry entries ih =>
      rw [List.map_cons, get?_cons, get?_cons, ih]
      by_cases hkey : entry.1 = key
      · simp [hkey, h]
      · simp [hkey]

/-- A key that is set holds its value, and the other keys hold what they did. -/
theorem get?_putSame (entries : Entries) (key other : Scalar) (value : Value) :
    (entries.putSame key value).get? other =
      if key.sameKey other then some value else entries.get? other := by
  induction entries with
  | nil => rw [show putSame [] key value = [(key, value)] from rfl, get?_cons]
  | cons entry entries ih =>
      by_cases hsame : entry.1.sameKey key = true
      · rw [putSame_cons_of_same hsame, get?_cons, get?_cons, ← Scalar.sameKey_congr hsame other]
        split
        · rfl
        · rename_i hother
          exact get?_map_ite hother entries value
      · rw [putSame_cons_of_not_same hsame, get?_cons, get?_cons, ih]
        by_cases hother : entry.1.sameKey other = true
        · have hkey : ¬key.sameKey other = true := fun hkey =>
            hsame (Scalar.sameKey_trans hother (Scalar.sameKey_symm hkey))
          simp [hother, hkey]
        · simp [hother]

/-- A new key goes to the end. -/
theorem putSame_of_get?_eq_none (h : entries.get? key = none) (value : Value) :
    entries.putSame key value = entries ++ [(key, value)] := by
  have hnone : entries.find? (fun entry => entry.1.sameKey key) = none := by
    simpa [get?] using h
  rw [putSame, hnone]

theorem mem_putSame {entry : Scalar × Value} (h : entry ∈ entries.putSame key value) :
    entry.2 = value ∨ entry ∈ entries := by
  induction entries with
  | nil => exact .inl (congrArg Prod.snd (List.mem_singleton.mp h))
  | cons first entries ih =>
      by_cases hsame : first.1.sameKey key = true
      · rw [putSame_cons_of_same hsame] at h
        rcases List.mem_cons.mp h with heq | hmem
        · exact .inl (congrArg Prod.snd heq)
        · obtain ⟨old, hold, heq⟩ := List.mem_map.mp hmem
          grind
      · rw [putSame_cons_of_not_same hsame] at h
        rcases List.mem_cons.mp h with rfl | hmem
        · exact .inr List.mem_cons_self
        · exact (ih hmem).imp_right (List.mem_cons_of_mem first)

/-! ## Mappings with distinct keys -/

/-- No key has two entries. -/
def Distinct (entries : Entries) : Prop :=
  entries.Pairwise fun first second => ¬first.1.sameKey second.1 = true

instance (entries : Entries) : Decidable entries.Distinct :=
  inferInstanceAs (Decidable (List.Pairwise _ entries))

@[simp] theorem distinct_nil : Distinct [] := List.Pairwise.nil

@[simp] theorem distinct_singleton (entry : Scalar × Value) : Distinct [entry] :=
  List.pairwise_singleton _ _

theorem distinct_cons {entry : Scalar × Value} :
    Distinct (entry :: entries) ↔
      entries.get? entry.1 = none ∧ entries.Distinct := by
  rw [Distinct, List.pairwise_cons, ← Distinct, get?_eq_none_iff]
  have hsymm : ∀ other : Scalar × Value,
      entry.1.sameKey other.1 = true ↔ other.1.sameKey entry.1 = true :=
    fun _ => ⟨Scalar.sameKey_symm, Scalar.sameKey_symm⟩
  simp only [hsymm]

/-- Among distinct keys an entry is found under its key. -/
theorem Distinct.get?_of_mem (h : entries.Distinct) {entry : Scalar × Value}
    (hmem : entry ∈ entries) : entries.get? entry.1 = some entry.2 := by
  induction entries with
  | nil => cases hmem
  | cons first entries ih =>
      obtain ⟨hfirst, hrest⟩ := distinct_cons.mp h
      rw [get?_cons]
      rcases List.mem_cons.mp hmem with rfl | hmem
      · rw [if_pos (Scalar.sameKey_refl _)]
      · have hnot : ¬first.1.sameKey entry.1 = true := fun hsame =>
          get?_eq_none_iff.mp hfirst entry hmem (Scalar.sameKey_symm hsame)
        rw [if_neg hnot, ih hrest hmem]

/-- Among distinct keys, setting the first one leaves the others alone. -/
theorem Distinct.putSame_cons {entry : Scalar × Value} (h : Distinct (entry :: entries))
    (hsame : entry.1.sameKey key = true) (value : Value) :
    putSame (entry :: entries) key value = (entry.1, value) :: entries := by
  have hothers : ∀ other ∈ entries,
      (if other.1 == entry.1 then (entry.1, value) else other) = other := by
    intro other hother
    have hnot := get?_eq_none_iff.mp (distinct_cons.mp h).1 other hother
    rw [if_neg]
    intro heq
    rw [eq_of_beq heq] at hnot
    exact hnot (Scalar.sameKey_refl _)
  rw [putSame_cons_of_same hsame, List.map_congr_left hothers, List.map_id']

/-- Setting a key gives no key a second entry. -/
theorem distinct_putSame (h : entries.Distinct) (key : Scalar) (value : Value) :
    (entries.putSame key value).Distinct := by
  induction entries with
  | nil => exact distinct_singleton _
  | cons entry entries ih =>
      obtain ⟨hentry, hrest⟩ := distinct_cons.mp h
      by_cases hsame : entry.1.sameKey key = true
      · rw [h.putSame_cons hsame]
        exact distinct_cons.mpr ⟨hentry, hrest⟩
      · rw [putSame_cons_of_not_same hsame]
        refine distinct_cons.mpr ⟨?_, ih hrest⟩
        have hnot : ¬key.sameKey entry.1 = true := mt Scalar.sameKey_symm hsame
        rw [get?_putSame, if_neg hnot, hentry]

end Entries

end Arborist
