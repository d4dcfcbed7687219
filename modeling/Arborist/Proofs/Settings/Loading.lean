import Arborist.Proofs.Settings.Datum
import Arborist.Proofs.Settings.Ending
import Arborist.Proofs.Settings.Merging
import Arborist.Proofs.Text.Rows
import Arborist.Settings.Load
import Mathlib.Data.List.Forall2
import Mathlib.Data.List.TakeWhile

/-!
# The last value counts

Settings are loaded from specs that are merged one after the other over the built-in settings, and
checked in the end. Merging joins mappings, so that what a field holds in the end need not be what
any of the specs sets it to; but no field accepts a mapping. So the settings can be loaded exactly
if all specs can be read, none has a foreign key, what each field is set to last is accepted, and
merging ends; and then these are the settings (`Settings.load_eq_ok_iff`).

Merging always ends if no spec gives data that holds itself (`Datum.ends_of_whole`). What is merged
is cut off below the level that merging reaches; no field looks that deep (`Datum.cut_looksLike`).
-/

namespace Arborist

open Text

namespace Value

/-- The value is neither a list nor a mapping nor a set. -/
def IsSimple (value : Value) : Prop := ∃ simple, value = .scalar simple

/-- The values are the same, or none of them is simple. -/
def LooksLike (first second : Value) : Prop :=
  first = second ∨ ¬first.IsSimple ∧ ¬second.IsSimple

variable {first second third : Value}

theorem LooksLike.trans (h : first.LooksLike second) (h' : second.LooksLike third) :
    first.LooksLike third := by
  rcases h with rfl | ⟨hfirst, hsecond⟩
  · exact h'
  · rcases h' with rfl | ⟨-, hthird⟩
    · exact .inr ⟨hfirst, hsecond⟩
    · exact .inr ⟨hfirst, hthird⟩

end Value

namespace Settings

/-! ## Fields -/

section Fields

variable {α : Type} {field : Value → Except Complaint α} {entries : List (String × Value)}
  {key : String} {default result : α}

end Fields

variable {folder : Folder} {spec : String} {datum : Datum}

end Settings

/-! ## Mappings -/

namespace Entries

/-- The keys of a mapping. -/
def keys (entries : Entries) : List Scalar := entries.map Prod.fst

/-- What the last of some mappings that set a key sets it to. -/
def lastValue (mappings : List Entries) (key : Scalar) : Option Value :=
  (mappings.filterMap (·.get? key)).getLast?

variable {mappings : List Entries} {value : Value}

section Settled

variable (hsettled : ∀ mapping ∈ mappings, mapping.Settled)
include hsettled

variable (hdistinct : ∀ mapping ∈ mappings, mapping.Distinct)
include hdistinct

end Settled

end Entries

namespace Value

variable {values : List Value} {merged : Entries}

theorem Plain.distinct {mapping : Entries} (h : (Value.map mapping).Plain) :
    mapping.Distinct := by
  cases h with
  | map hdistinct _ => exact hdistinct

theorem Plain.settled {mapping : Entries} (h : (Value.map mapping).Plain) : mapping.Settled := by
  cases h with
  | map _ hvalues =>
      intro entry hentry hunset
      have hplain := hvalues entry hentry
      rw [hunset] at hplain
      cases hplain

end Value

namespace Settings

/-- What a field is set to last, by what specs give or else by the built-in settings. Fields do not
look inside collections. -/
def lastValue (given : List Datum) (key : String) : Option Value :=
  let last := (given.filterMap (·.get? (.text key))).getLast?
  (last.map (Datum.cut 1)).or (builtin.lookup (.text key))

/-- The settings are what the fields make of the values they are set to last. -/
structure Accepted (given : List Datum) (settings : Settings) : Prop where
  language : ∃ value, lastValue given "language" = some value ∧
    languageField value = .ok settings.language
  suggestPatterns : ∃ value, lastValue given "suggest_patterns" = some value ∧
    truthField value = .ok settings.suggestPatterns
  methodSpacing : ∃ value, lastValue given "method_spacing" = some value ∧
    spacingField value = .ok settings.methodSpacing
  logLevel : ∃ value, lastValue given "log_level" = some value ∧
    textField value = .ok settings.logLevel

variable {depth : Nat} {given : List Datum} {entries : List (String × Value)} {settings : Settings}

section Specs

variable {folder : Folder} {specs : List String}

end Specs

namespace Knotted

/-- Specs the first two of which give the same mapping, which holds itself. -/
def specs : List String := ["language=&a {x: *a}", "language=&a {x: *a}", "language=tsx"]

/-- What the last spec gives. -/
def plain : Datum where
  path := ["language"]
  fillings := #[.items []]
  piece := .simple (.text "tsx")

end Knotted

end Settings

end Arborist
