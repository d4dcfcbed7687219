import Arborist.Journal
import Arborist.Proofs.Selector.Reading

/-!
# Remembered patterns

What a search finds does not depend on what was searched for before, although the patterns used
last are remembered with what they describe. A memory is faithful if every pattern in it is
remembered with what reading it afresh gives (`Memory.Faithful`). Looking a pattern up keeps a
memory faithful, so every memory that looking up can lead to is (`Memory.faithful_afterUses`).

`Logged.Gives` says of a search that it gives the same answer at every such moment.
-/

namespace Arborist

open Text

/-- What is read from a blank pattern describes nothing. -/
theorem Selector.compile_of_allBlank {pattern : String} {suggest : Bool}
    (h : allBlank pattern = true) : (Selector.compile pattern suggest).1 = .never := by
  unfold Selector.compile
  cases hparse : Selector.parse pattern with
  | error flaw => rfl
  | ok s =>
      have hblank := Selector.allBlank_of_pattern (Selector.pattern_of_parse hparse)
      rw [String.ofList_toList, h] at hblank
      cases hblank

namespace Memory

/-- Every pattern is remembered with what reading it gives. -/
def Faithful (memory : Memory) : Prop :=
  ∀ entry ∈ memory.entries, entry.2 = (Selector.compile entry.1.1 entry.1.2).1

/-- The memory after patterns have been looked up one after the other, each with whether
suggestions were asked for. -/
def afterUses (uses : List (String × Bool)) : Memory :=
  uses.foldl (fun memory use => (memory.fetch use.1 use.2).1) {}

variable {memory : Memory} {pattern : String} {suggest : Bool} {selector : Selector}

theorem Faithful.touch (h : memory.Faithful)
    (hselector : selector = (Selector.compile pattern suggest).1) :
    (memory.touch (pattern, suggest) selector).Faithful := by
  intro entry hentry
  rcases List.mem_cons.mp (List.mem_of_mem_take hentry) with rfl | hentry
  · exact hselector
  · exact h entry (List.mem_filter.mp hentry).1

/-- What is found for a pattern is what reading it gives. -/
theorem Faithful.eq_compile (h : memory.Faithful)
    (hlookup : memory.entries.lookup (pattern, suggest) = some selector) :
    selector = (Selector.compile pattern suggest).1 := by
  obtain ⟨before, after, hentries, -⟩ := List.lookup_eq_some_iff.mp hlookup
  exact h ((pattern, suggest), selector) (hentries ▸ List.mem_append_right _ List.mem_cons_self)

/-- Looking a pattern up gives what reading it gives, and keeps the memory faithful. -/
theorem Faithful.fetch (h : memory.Faithful) (pattern : String) (suggest : Bool) :
    (memory.fetch pattern suggest).1.Faithful ∧
      (memory.fetch pattern suggest).2.1 = (Selector.compile pattern suggest).1 := by
  unfold Memory.fetch
  by_cases hblank : allBlank pattern = true
  · rw [if_pos hblank]
    exact ⟨h, (Selector.compile_of_allBlank hblank).symm⟩
  · rw [if_neg hblank]
    dsimp only
    cases hlookup : memory.entries.lookup (pattern, suggest) with
    | some selector =>
        have hselector := h.eq_compile hlookup
        exact ⟨h.touch hselector, hselector⟩
    | none => exact ⟨h.touch rfl, rfl⟩

/-- Whatever was looked up before, the memory is faithful. -/
theorem faithful_afterUses (uses : List (String × Bool)) : (afterUses uses).Faithful := by
  unfold afterUses
  have hempty : Faithful {} := by
    intro entry hentry
    cases hentry
  generalize ({} : Memory) = memory at hempty
  induction uses generalizing memory with
  | nil => exact hempty
  | cons use uses ih => exact ih _ (hempty.fetch use.1 use.2).1

end Memory

/-- A journal at some moment: its memory is what earlier searches have left. -/
def Journal.Reached (journal : Journal) : Prop :=
  ∃ uses, journal.memory = Memory.afterUses uses

namespace Logged

variable {α : Type}

/-- At every moment the search gives the answer, and leaves a journal for the next one. -/
def Gives (search : Logged (Except Fault α)) (answer : α) : Prop :=
  ∀ journal : Journal, journal.Reached →
    (search journal).1 = .ok answer ∧ (search journal).2.Reached

/-- A search gives one answer at most. -/
theorem Gives.unique {search : Logged (Except Fault α)} {answer other : α} (h : search.Gives answer)
    (h' : search.Gives other) : answer = other := by
  have hreached : ({} : Journal).Reached := ⟨[], rfl⟩
  exact Except.ok.inj ((h {} hreached).1.symm.trans (h' {} hreached).1)

theorem Gives.exists_and_iff {search : Logged (Except Fault α)} {answer : α}
    (h : search.Gives answer) {p : α → Prop} :
    (∃ other, search.Gives other ∧ p other) ↔ p answer := by
  constructor
  · rintro ⟨other, hother, hp⟩
    exact hother.unique h ▸ hp
  · exact fun hp => ⟨answer, h, hp⟩

/-- A search by pattern gives what the selector of the pattern gives. -/
theorem gives_of_compile {pattern : String} {suggest : Bool} (search : Selector → Except Fault α)
    {answer : α} (h : search (Selector.compile pattern suggest).1 = .ok answer) :
    Gives (do return search (← selectorOf pattern suggest)) answer := by
  rintro journal ⟨uses, huses⟩
  have hfaithful : journal.memory.Faithful := huses ▸ Memory.faithful_afterUses uses
  obtain ⟨-, hselector⟩ := hfaithful.fetch pattern suggest
  refine ⟨?_, uses ++ [(pattern, suggest)], ?_⟩
  · change search (journal.memory.fetch pattern suggest).2.1 = .ok answer
    rw [hselector, h]
  · change (journal.memory.fetch pattern suggest).1 = _
    rw [Memory.afterUses, List.foldl_append, ← Memory.afterUses, ← huses]
    rfl

end Logged

end Arborist
