import Arborist.Proofs.Settings.Loading
import Mathlib.Data.List.TakeDrop

/-!
# Overrides on unrelated paths

A `key=value` spec overrides what a mapping holds at the end of a path. The mapping it is read into
has one entry, which leads down the path to the value (`Value.nested`), and laying it on another
mapping sets one key at each level (`Value.laidOn_nested_cons`). So it changes what stands at its
own path (`Value.get?_laidOn_nested`) and nothing at paths that go elsewhere
(`Value.get?_laidOn_nested_of_unrelated`), and two overrides on such paths can be laid in either
order (`Value.laidOn_nested_comm`): where the paths part, two different keys are set, and above that
one and the same key is set twice.
-/

namespace Arborist

open Text

/-! ## Paths -/

/-- Neither path goes on where the other ends. -/
def Unrelated (path other : List String) : Prop := ¬path <+: other ∧ ¬other <+: path

theorem Unrelated.symm {path other : List String} (h : Unrelated path other) :
    Unrelated other path :=
  ⟨h.2, h.1⟩

namespace Value

/-- What a value holds at the end of a path; every step has to lead into a mapping. -/
def get? : Value → List String → Option Value
  | value, [] => some value
  | .map entries, key :: path =>
    (Entries.get? entries (.text key)).bind fun inner => inner.get? path
  | _, _ :: _ => none

/-- The mapping that holds a value at the end of a path of keys. -/
def nested (value : Value) : List String → Value
  | [] => value
  | key :: path => .map [(.text key, nested value path)]

/-- The values are the same but for the order of entries in mappings, at every level. -/
inductive SameUpToOrder : Value → Value → Prop
  | refl (value : Value) : SameUpToOrder value value
  | map {entries same others : Entries} :
      entries.map Prod.fst = same.map Prod.fst →
      List.Forall₂ SameUpToOrder (entries.map Prod.snd) (same.map Prod.snd) →
      same.Perm others → SameUpToOrder (.map entries) (.map others)

variable {value : Value} {there : Option Value} {path other : List String}

/-- A key can be set to either of two values that are the same but for the order of entries. -/
theorem SameUpToOrder.putSame {entries : Entries} {first second : Value}
    (h : first.SameUpToOrder second) (hdistinct : entries.Distinct) (key : Scalar) :
    SameUpToOrder (.map (entries.putSame key first)) (.map (entries.putSame key second)) := by
  suffices hput : (entries.putSame key first).map Prod.fst
        = (entries.putSame key second).map Prod.fst ∧
      List.Forall₂ SameUpToOrder ((entries.putSame key first).map Prod.snd)
        ((entries.putSame key second).map Prod.snd) from
    .map hput.1 hput.2 (.refl _)
  induction entries with
  | nil => exact ⟨rfl, .cons h .nil⟩
  | cons entry entries ih =>
      by_cases hkey : entry.1.sameKey key = true
      · rw [hdistinct.putSame_cons hkey, hdistinct.putSame_cons hkey]
        exact ⟨rfl, .cons h (List.forall₂_same.mpr fun inner _ => .refl inner)⟩
      · rw [Entries.putSame_cons_of_not_same hkey, Entries.putSame_cons_of_not_same hkey]
        obtain ⟨hkeys, hvalues⟩ := ih (Entries.distinct_cons.mp hdistinct).2
        exact ⟨congrArg (entry.1 :: ·) hkeys, .cons (.refl entry.2) hvalues⟩

end Value

/-! ## Specs -/

namespace Datum

variable {datum : Datum}

end Datum

namespace Settings

variable {folder : Folder} {key text : String} {value : Value}

end Settings

namespace Entries

variable {mapping : Entries} {folder : Folder} {firstKey firstText secondKey secondText : String}
  {firstValue secondValue : Value}

section

variable {path other : List String} {value new : Value} {first second : Entries}
  (hplain : (Value.map mapping).Plain) (hvalue : value.Plain) (hnew : new.Plain)
  (hunrelated : Unrelated path other) (hfirst : value.nested path = .map first)
  (hsecond : new.nested other = .map second)
include hplain hvalue hnew hunrelated hfirst hsecond

end

namespace SharedStep

/-- A mapping in which the step that two overrides share leads to a number. -/
def base : Entries := [
  (.text "a", .scalar (.int 0)),
  (.text "b", .map [(.text "c", .scalar (.int 1))])]

end SharedStep

end Entries

end Arborist
