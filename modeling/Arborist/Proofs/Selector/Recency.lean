import Arborist.Proofs.Selector.Remembered
import Mathlib.Data.List.Dedup
import Mathlib.Data.List.Induction

/-!
# The patterns used last

Looking patterns up leaves no trace but the log: what a pattern describes never depends on the
memory, and the records of reading it are made again exactly if it is not among the 256 patterns
used last. The keys in the memory are a closed form of all the uses so far
(`Memory.keys_afterUses`): list the keys of the uses that are not blank by their last use, and keep
the first 256.

The step lemmas say what one more use does to either side (`Memory.keys_fetch`,
`Memory.keysByRecency_concat`). They agree because at most one key of the memory is the one used, so
the memory never has to bring back a key that it has let go.
-/

namespace Arborist

open Text

/-! ## Lists in which a key is moved to the front -/

section Lists

variable {α : Type} [BEq α] [LawfulBEq α]

/-- Without its repetitions, a list with one more element has this element at its end only. -/
theorem dedup_concat [DecidableEq α] (xs : List α) (a : α) :
    (xs ++ [a]).dedup = xs.dedup.filter (· != a) ++ [a] := by
  induction xs with
  | nil => rfl
  | cons x xs ih =>
      rw [List.cons_append]
      by_cases hmem : x ∈ xs
      · rw [List.dedup_cons_of_mem (List.mem_append_left _ hmem), List.dedup_cons_of_mem hmem, ih]
      · rw [List.dedup_cons_of_notMem hmem]
        by_cases hx : x = a
        · subst hx
          rw [List.dedup_cons_of_mem (by simp), ih, List.filter_cons_of_neg (by simp)]
        · rw [List.dedup_cons_of_notMem (by simp [hmem, hx]), ih,
            List.filter_cons_of_pos (by simp [hx]), List.cons_append]

/-- Cutting a list without repetitions before an element of it is taken out leaves one place less
that can be relied on. -/
theorem take_filter_take {xs : List α} (hnodup : xs.Nodup) (a : α) (n : Nat) :
    ((xs.take (n + 1)).filter (· != a)).take n = (xs.filter (· != a)).take n := by
  induction xs generalizing n with
  | nil => rfl
  | cons x xs ih =>
      obtain ⟨hx, hnodup⟩ := List.nodup_cons.mp hnodup
      rw [List.take_succ_cons]
      by_cases hxa : x = a
      · -- The element is taken out here, and is nowhere else.
        have hkept : ∀ y ∈ xs, (y != a) = true := by
          intro y hy
          rw [bne_iff_ne]
          rintro rfl
          exact hx (hxa ▸ hy)
        rw [List.filter_cons_of_neg (by simp [hxa]), List.filter_cons_of_neg (by simp [hxa]),
          List.filter_eq_self.mpr hkept,
          List.filter_eq_self.mpr fun y hy => hkept y (List.mem_of_mem_take hy), List.take_take,
          Nat.min_self]
      · rw [List.filter_cons_of_pos (by simp [hxa]), List.filter_cons_of_pos (by simp [hxa])]
        cases n with
        | zero => rfl
        | succ n => rw [List.take_succ_cons, List.take_succ_cons, ih hnodup]

end Lists

/-! ## The keys in the memory -/

namespace Memory

/-- The patterns that are remembered, each with whether suggestions were asked for. -/
def keys (memory : Memory) : List (String × Bool) := memory.entries.map Prod.fst

/-- The keys of uses that are not blank, each once, by their last use and most recent first. -/
def keysByRecency (uses : List (String × Bool)) : List (String × Bool) :=
  (uses.filter fun use => !allBlank use.1).dedup.reverse

theorem lookup_eq_none_iff {memory : Memory} {key : String × Bool} :
    memory.entries.lookup key = none ↔ key ∉ memory.keys := by
  rw [List.lookup_eq_none_iff, keys, List.mem_map]
  constructor
  · rintro h ⟨entry, hentry, rfl⟩
    exact absurd (h entry hentry) (by simp)
  · intro h entry hentry
    rw [bne_iff_ne]
    exact fun hkey => h ⟨entry, hentry, hkey.symm⟩

theorem keys_touch (memory : Memory) (key : String × Bool) (selector : Selector) :
    (memory.touch key selector).keys = (key :: memory.keys.filter (· != key)).take 256 := by
  rw [keys, touch, List.map_take, List.map_cons, keys, List.filter_map]
  rfl

/-- One use puts a key before all others, unless it is blank. -/
theorem keys_fetch (memory : Memory) (pattern : String) (suggest : Bool) :
    (memory.fetch pattern suggest).1.keys =
      if allBlank pattern then memory.keys
      else ((pattern, suggest) :: memory.keys.filter (· != (pattern, suggest))).take 256 := by
  unfold fetch
  split
  · rfl
  · dsimp only
    split
    · exact keys_touch memory _ _
    · exact keys_touch memory _ _

/-- A use makes the records of reading a pattern, unless it is blank or remembered. -/
theorem records_fetch (memory : Memory) (pattern : String) (suggest : Bool) :
    (memory.fetch pattern suggest).2.2 =
      if allBlank pattern = true ∨ (pattern, suggest) ∈ memory.keys then []
      else (Selector.compile pattern suggest).2 := by
  unfold fetch
  by_cases hblank : allBlank pattern = true
  · rw [if_pos hblank, if_pos (.inl hblank)]
  · rw [if_neg hblank]
    dsimp only
    split
    · rename_i selector hfound
      have hmem : (pattern, suggest) ∈ memory.keys := by
        by_contra hnot
        rw [lookup_eq_none_iff.mpr hnot] at hfound
        cases hfound
      rw [if_pos (.inr hmem)]
    · rename_i hnone
      rw [if_neg (not_or.mpr ⟨hblank, lookup_eq_none_iff.mp hnone⟩)]

theorem keysByRecency_concat (uses : List (String × Bool)) (use : String × Bool) :
    keysByRecency (uses ++ [use]) =
      if allBlank use.1 then keysByRecency uses
      else use :: (keysByRecency uses).filter (· != use) := by
  unfold keysByRecency
  rw [List.filter_append]
  by_cases hblank : allBlank use.1 = true
  · rw [if_pos hblank, List.filter_cons_of_neg (by simp [hblank]), List.filter_nil,
      List.append_nil]
  · rw [if_neg hblank, List.filter_cons_of_pos (by simpa using hblank), List.filter_nil,
      dedup_concat, List.reverse_append, List.reverse_singleton, List.singleton_append,
      List.filter_reverse]

theorem nodup_keysByRecency (uses : List (String × Bool)) : (keysByRecency uses).Nodup :=
  List.nodup_reverse.mpr (List.nodup_dedup _)

theorem afterUses_concat (uses : List (String × Bool)) (use : String × Bool) :
    afterUses (uses ++ [use]) = ((afterUses uses).fetch use.1 use.2).1 := by
  rw [afterUses, List.foldl_append]
  rfl

/-- The keys in the memory are the 256 most recent ones. -/
theorem keys_afterUses (uses : List (String × Bool)) :
    (afterUses uses).keys = (keysByRecency uses).take 256 := by
  induction uses using List.reverseRecOn with
  | nil => rfl
  | append_singleton uses use ih =>
      rw [afterUses_concat, keys_fetch, keysByRecency_concat, ih]
      split
      · rfl
      · rw [List.take_succ_cons, List.take_succ_cons,
          take_filter_take (nodup_keysByRecency uses) use 255]

end Memory

/-! ## Looking patterns up one after the other -/

namespace Logged

/-- Look patterns up one after the other, each with whether suggestions are asked for. -/
def lookUpAll (uses : List (String × Bool)) : Logged Unit :=
  forM uses fun use => do let _ ← selectorOf use.1 use.2

theorem run_selectorOf (pattern : String) (suggest : Bool) (journal : Journal) :
    (selectorOf pattern suggest).run journal =
      ((journal.memory.fetch pattern suggest).2.1,
        { journal with memory := (journal.memory.fetch pattern suggest).1 }.keep
          (journal.memory.fetch pattern suggest).2.2) := rfl

theorem run_lookUpAll_concat (uses : List (String × Bool)) (use : String × Bool)
    (journal : Journal) :
    ((lookUpAll (uses ++ [use])).run journal).2 =
      ((selectorOf use.1 use.2).run ((lookUpAll uses).run journal).2).2 := by
  unfold lookUpAll
  rw [List.forM_append]
  rfl

/-- Looking patterns up from an empty memory on leaves the threshold as it is, and the memory that
the uses lead to. -/
theorem run_lookUpAll (threshold : Threshold) (uses : List (String × Bool)) :
    let after := ((lookUpAll uses).run { threshold := threshold }).2
    after.threshold = threshold ∧ after.memory = Memory.afterUses uses := by
  induction uses using List.reverseRecOn with
  | nil => exact ⟨rfl, rfl⟩
  | append_singleton uses use ih =>
      obtain ⟨hthreshold, hmemory⟩ := ih
      rw [run_lookUpAll_concat, run_selectorOf, Memory.afterUses_concat, ← hmemory]
      exact ⟨hthreshold, rfl⟩

/-- Looking a pattern up, whatever was looked up before, gives what reading it afresh gives. The
records of reading it are emitted unless it is blank or among the 256 patterns used last, and it
is then the most recent one of these; a blank one leaves no trace. -/
theorem run_selectorOf_after (threshold : Threshold) (uses : List (String × Bool))
    (pattern : String) (suggest : Bool) :
    let before := ((lookUpAll uses).run { threshold := threshold }).2
    let fresh := Selector.compile pattern suggest
    let emitted :=
      if allBlank pattern = true ∨ (pattern, suggest) ∈ (Memory.keysByRecency uses).take 256 then []
      else fresh.2.filter fun record => threshold.admits record.level
    ∃ memory,
      (selectorOf pattern suggest).run before =
        (fresh.1, { before with records := before.records ++ emitted, memory := memory }) ∧
      memory.keys = (Memory.keysByRecency (uses ++ [(pattern, suggest)])).take 256 ∧
      (allBlank pattern = true → memory = before.memory) := by
  intro before fresh emitted
  obtain ⟨hthreshold, hmemory⟩ : before.threshold = threshold ∧
      before.memory = Memory.afterUses uses := run_lookUpAll threshold uses
  have hselector : (before.memory.fetch pattern suggest).2.1 = fresh.1 := by
    rw [hmemory]
    exact ((Memory.faithful_afterUses uses).fetch pattern suggest).2
  have hemitted : ((before.memory.fetch pattern suggest).2.2.filter fun record =>
      before.threshold.admits record.level) = emitted := by
    rw [Memory.records_fetch, hmemory, hthreshold, Memory.keys_afterUses, apply_ite (List.filter _)]
    rfl
  refine ⟨(before.memory.fetch pattern suggest).1, ?_, ?_, fun hblank => ?_⟩
  · rw [run_selectorOf, hselector, Journal.keep, hemitted]
  · rw [hmemory, ← Memory.keys_afterUses, Memory.afterUses_concat]
  · rw [Memory.fetch, if_pos hblank]

end Logged

end Arborist
