import Arborist.Selector.Memory

/-!
# What outlives an operation

Two things carry over from one operation to the next besides the edits of a session: the log with
its threshold, and the remembered patterns. Together they are the `Journal`, and `Logged` is a
computation that may add to it.
-/

namespace Arborist

/-- The log so far, its threshold, and the remembered patterns. -/
structure Journal where
  threshold : Threshold := {}
  records : List Record := []
  memory : Memory := {}

/-- A computation that reads and extends the journal. -/
abbrev Logged := StateM Journal

namespace Journal

/-- Keep the records that the threshold admits. -/
def keep (journal : Journal) (records : List Record) : Journal :=
  { journal with
    records := journal.records ++ records.filter fun record =>
      journal.threshold.admits record.level }

end Journal

namespace Logged

/-- Emit records. -/
def emit (records : List Record) : Logged Unit := modify (·.keep records)

/-- What a pattern describes. -/
def selectorOf (pattern : String) (suggest : Bool) : Logged Selector := do
  let journal ← get
  let (memory, selector, records) := journal.memory.fetch pattern suggest
  set ({ journal with memory := memory }.keep records)
  return selector

/-- Put a selector that was not written as a pattern to use. -/
def useSelector (selector : Selector) : Logged Unit := emit selector.reports

end Logged

end Arborist
