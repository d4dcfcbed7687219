import Arborist.Settings.Datum

/-!
# Merging mappings

Mappings are merged from left to right: a later value replaces an earlier one, except that two
mappings under one key are merged in turn. Unset values are passed over.

Merging goes as deep as mappings meet, so that it ends for values. For data that holds itself it
need not end: the same mappings may meet again further in. `Datum.mergeDepth` tells whether it does.
-/

namespace Arborist

namespace Entries

/-- Drop the unset entries of a mapping. -/
def withoutUnset (entries : Entries) : Entries := entries.filter (!·.2.isUnset)

mutual

/-- Merge the entries of a later mapping into earlier ones, one after the other. -/
def mergeInto (earlier : Entries) : Entries → Entries
  | [] => earlier
  | (key, value) :: later => mergeInto (mergeEntry earlier key value) later

/-- Merge one entry of a later mapping into earlier ones. A key that is there keeps its place and
its spelling. -/
def mergeEntry (earlier : Entries) (key : Scalar) : Value → Entries
  | .unset => earlier
  | .map new =>
    match earlier.get? key with
    | some (.map old) => earlier.putSame key (.map (mergeInto (withoutUnset old) new))
    | _ => earlier.putSame key (.map new)
  | .scalar value => earlier.putSame key (.scalar value)
  | .list items => earlier.putSame key (.list items)
  | .set members => earlier.putSame key (.set members)

end

/-- Merge mappings; those that are not there are passed over. -/
def merge (mappings : List (Option Entries)) : Entries :=
  mappings.foldl (fun merged entries => mergeInto merged (entries.getD [])) []

end Entries

namespace Value

/-- The entries of a value that has to be a mapping; null stands for none. The error is the kind
of another value. -/
def entries? : Value → Except String (Option Entries)
  | .map entries => .ok (some entries)
  | .scalar .null => .ok none
  | other => .error other.kindName

/-- Merge values that have to be mappings. The error is the kind of the first that is none. -/
def merge (values : List Value) : Except String Entries := do
  return Entries.merge (← values.mapM entries?)

end Value

namespace Datum

/-- What some mappings hold under a key, as far as it is merged: mappings that follow one another,
at least two. -/
def meetingUnder (layers : List Datum) (key : Scalar) : List (List Datum) :=
  let groups := (layers.filterMap (·.get? key)).splitBy fun a b => a.isMapping == b.isMapping
  groups.filter fun group => 2 ≤ group.length && group.all isMapping

/-- The mappings that are merged one level further in when some mappings are merged. -/
def meetingIn (layers : List Datum) : List (List Datum) :=
  (distinct ((layers.flatMap entries).map Prod.fst)).flatMap (meetingUnder layers)

/-- How many levels deep merging goes, if it ends, for mappings that lie inside others which are
being merged. -/
def depthInside : Nat → List (List Datum) → List Datum → Option Nat
  | 0, _, _ => none
  | steps + 1, around, layers =>
    if around.contains layers then none
    else do
      let depths ← (meetingIn layers).mapM (depthInside steps (layers :: around))
      return depths.foldl max 0 + 1

/-- How many levels deep merging mappings goes, if it ends. The steps suffice: no more lists can be
made of the mappings that lie in the given ones. -/
def mergeDepth (layers : List Datum) : Option Nat :=
  depthInside (Nat.pow ((layers.flatMap within).length + 1) layers.length + 1) [] layers

end Datum

end Arborist
