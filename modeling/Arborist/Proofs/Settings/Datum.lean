import Arborist.Proofs.Computation
import Arborist.Proofs.Settings.Keys
import Arborist.Yaml.Load
import Mathlib.Data.Finset.Card
import Mathlib.Data.List.Induction
import Mathlib.Order.Monotone.Basic

/-!
# What is left of data

Whatever level data is cut off at, what is left is plain (`Datum.plain_cut`): nothing in it is
unset, and no mapping has a key twice. So is the value of a text (`Yaml.plain_load`).

A mapping that is cut off holds under a key what is left of the datum under that key
(`Datum.get?_entriesAt`).

Data that ends has a value (`Datum.whole?_eq_some_iff`): it is what is left at any level that
nothing lies below. If there is such a level at all, it is not deeper than there are collections.
-/

namespace Arborist

/-- Nothing is unset at any depth, and no mapping has a key twice. -/
inductive Value.Plain : Value → Prop
  | scalar (value : Scalar) : Plain (.scalar value)
  | list {items : List Value} : (∀ item ∈ items, Plain item) → Plain (.list items)
  | map {entries : Entries} :
      entries.Distinct → (∀ entry ∈ entries, Plain entry.2) → Plain (.map entries)
  | set (members : List Scalar) : Plain (.set members)

namespace Entries

variable {entries : Entries} {value : Value}

section Collect

variable {α : Type} {valueOf : α → Value}

end Collect

end Entries

namespace Datum

variable {datum : Datum}

/-- What is left of the entries of a mapping when its values are cut off at some level. -/
def entriesAt (depth : Nat) (datum : Datum) : Entries := Entries.collect (cut depth) datum.entries

/-- What lies in a datum, one level further in. -/
def inside (datum : Datum) : List Datum :=
  match datum.view with
  | .list items => items
  | .mapping entries => entries.map Prod.snd
  | _ => []

theorem mem_inside_of_mem_entries {entry : Scalar × Datum} (h : entry ∈ datum.entries) :
    entry.2 ∈ datum.inside := by
  unfold entries at h
  split at h
  · rename_i entries hview
    simp only [inside, hview]
    exact List.mem_map_of_mem h
  · cases h

/-- What lies in a datum is the datum below one key less, or another piece of its table. -/
theorem cases_of_mem_inside {inner : Datum} (h : inner ∈ datum.inside) :
    (∃ key path, datum.path = key :: path ∧ inner = { datum with path }) ∨
      datum.path = [] ∧ ∃ piece, inner = { datum with piece } := by
  cases hpath : datum.path with
  | cons key path =>
      simp only [inside, view, hpath, List.map_cons, List.map_nil, List.mem_singleton] at h
      exact .inl ⟨key, path, rfl, h⟩
  | nil =>
      refine .inr ⟨rfl, ?_⟩
      cases hpiece : datum.piece with
      | simple value => simp [inside, view, hpath, hpiece] at h
      | collection place =>
          rcases hfilling : datum.fillings[place]? with _ | (items | all | members) <;>
            simp only [inside, view, hpath, hpiece, hfilling, List.not_mem_nil] at h
          · obtain ⟨piece, -, rfl⟩ := List.mem_map.mp h
            exact ⟨piece, rfl⟩
          · obtain ⟨_, hentry, rfl⟩ := List.mem_map.mp h
            obtain ⟨entry, -, rfl⟩ := List.mem_map.mp hentry
            exact ⟨entry.2, rfl⟩

section Table

variable {fillings : Array Filling}

end Table

end Datum

end Arborist
