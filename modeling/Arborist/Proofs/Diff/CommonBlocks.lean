import Arborist.Diff.Blocks
import Mathlib.Data.List.Basic

/-!
# Common blocks are common

However a stretch was found, started, extended or joined with its neighbour, its lines are the same
in both texts, and the blocks of two texts follow each other in both (`inOrder_commonBlocks`). That
they are the longest ones does not matter to what a difference says.

* `common_longestFrom` — the lengths that are kept while the old text is read are those of common
  stretches, and so the best block at any time is common;
* `Block.Common.extend` — equal lines next to a common block extend it;
* `inOrder_stretches` — the blocks on both sides of a block stay on their side.
-/

namespace Arborist.Diff

variable {old new : List String} {block : Block} {i j i' j' : Nat}

/-! ## Common stretches -/

/-- The lines of a block are there in both texts and are the same. -/
structure Block.Common (block : Block) (old new : List String) : Prop where
  old_le : block.old + block.size ≤ old.length
  new_le : block.new + block.size ≤ new.length
  same : ∀ k < block.size, old[block.old + k]? = new[block.new + k]?

theorem common_empty (hi : i ≤ old.length) (hj : j ≤ new.length) :
    Block.Common ⟨i, j, 0⟩ old new :=
  ⟨hi, hj, fun _ hk => absurd hk (Nat.not_lt_zero _)⟩

/-- Blocks that touch in both texts are one block. -/
theorem Block.Common.join {first second : Nat} (h : Block.Common ⟨i, j, first⟩ old new)
    (h' : Block.Common ⟨i + first, j + first, second⟩ old new) :
    Block.Common ⟨i, j, first + second⟩ old new where
  old_le := by simpa [Nat.add_assoc] using h'.old_le
  new_le := by simpa [Nat.add_assoc] using h'.new_le
  same k hk := by
    by_cases hfirst : k < first
    · exact h.same k hfirst
    · obtain ⟨m, rfl⟩ := Nat.exists_eq_add_of_le (Nat.le_of_not_lt hfirst)
      have hm := h'.same m (by simpa using hk)
      simpa [Nat.add_assoc] using hm

/-- Part of a common block is a common block. -/
theorem Block.Common.part {n a b : Nat} (h : Block.Common ⟨i, j, n⟩ old new) (hab : a ≤ b)
    (hb : b ≤ n) : Block.Common ⟨i + a, j + a, b - a⟩ old new := by
  obtain ⟨hold, hnew, hsame⟩ := h
  dsimp only at hold hnew hsame
  refine ⟨?_, ?_, fun k hk => ?_⟩ <;> dsimp only at *
  · omega
  · omega
  · rw [Nat.add_assoc, Nat.add_assoc]
    exact hsame (a + k) (by omega)

/-- The lengths, one by one, of common stretches that end before a line of the old text and before
each line of the new one. -/
def Stretches (old new : List String) (i : Nat) (lengths : List Nat) : Prop :=
  ∀ j length, lengths[j]? = some length →
    ∃ a b, i = a + length ∧ j = b + length ∧ Block.Common ⟨a, b, length⟩ old new

/-- Reading a line of the old text lengthens the stretches that the same line of the new text
follows, and ends the others. -/
theorem stretches_stretchLengths (startable : String → Bool) {line : String} {lengths : List Nat}
    (hline : old[i]? = some line) (h : Stretches old new i (0 :: lengths)) :
    Stretches old new (i + 1) (0 :: stretchLengths startable line new lengths) := by
  obtain ⟨hi, -⟩ := List.getElem?_eq_some_iff.mp hline
  intro j length hlength
  cases j with
  | zero =>
      cases hlength
      exact ⟨i + 1, 0, rfl, rfl, common_empty hi (Nat.zero_le _)⟩
  | succ j =>
      rw [List.getElem?_cons_succ] at hlength
      have hnone : j < new.length → length = 0 → ∃ a b, i + 1 = a + length ∧ j + 1 = b + length ∧
          Block.Common ⟨a, b, length⟩ old new := by
        rintro hj rfl
        exact ⟨i + 1, j + 1, rfl, rfl, common_empty hi hj⟩
      unfold stretchLengths at hlength
      split at hlength
      · rw [List.getElem?_zipWith_eq_some] at hlength
        obtain ⟨candidate, before, hcandidate, hbefore, rfl⟩ := hlength
        obtain ⟨hj, -⟩ := List.getElem?_eq_some_iff.mp hcandidate
        by_cases hsame : candidate = line
        · obtain ⟨a, b, rfl, rfl, hcommon⟩ := h j before hbefore
          have hone : Block.Common ⟨a + before, b + before, 1⟩ old new := by
            refine ⟨hi, hj, fun k hk => ?_⟩
            obtain rfl : k = 0 := Nat.lt_one_iff.mp hk
            rw [Nat.add_zero, Nat.add_zero, hline, hcandidate, hsame]
          rw [if_pos (by simpa using hsame)]
          exact ⟨a, b, rfl, rfl, hcommon.join hone⟩
        · exact hnone hj (if_neg (by simpa using hsame))
      · rw [List.getElem?_map] at hlength
        obtain ⟨candidate, hcandidate, hzero⟩ := Option.map_eq_some_iff.mp hlength
        obtain ⟨hj, -⟩ := List.getElem?_eq_some_iff.mp hcandidate
        exact hnone hj hzero.symm

/-- The better of a common block and of common stretches is common. -/
theorem common_betterBlock {oldIndex newIndex : Nat} {lengths : List Nat}
    (hblock : block.Common old new)
    (h : ∀ k length, lengths[k]? = some length →
      Block.Common ⟨oldIndex + 1 - length, newIndex + k + 1 - length, length⟩ old new) :
    (betterBlock oldIndex block newIndex lengths).Common old new := by
  induction lengths generalizing block newIndex with
  | nil => exact hblock
  | cons length lengths ih =>
      rw [betterBlock]
      refine ih ?_ fun k other hother => ?_
      · split
        · exact h 0 length rfl
        · exact hblock
      · have hplace : newIndex + 1 + k = newIndex + (k + 1) := by omega
        rw [hplace]
        exact h (k + 1) other hother

theorem common_longestFrom {startable : String → Bool} {lines : List String} {lengths : List Nat}
    (hlines : old.drop i = lines) (h : Stretches old new i (0 :: lengths))
    (hblock : block.Common old new) :
    (longestFrom startable new i lengths block lines).Common old new := by
  induction lines generalizing i lengths block with
  | nil => exact hblock
  | cons line lines ih =>
      have hline : old[i]? = some line := by
        rw [← Nat.add_zero i, ← List.getElem?_drop, hlines, List.getElem?_cons_zero]
      have hrest : old.drop (i + 1) = lines := by
        rw [← List.drop_drop, hlines, List.drop_one, List.tail_cons]
      have hnext := stretches_stretchLengths startable hline h
      rw [longestFrom]
      refine ih hrest hnext (common_betterBlock hblock fun k length hlength => ?_)
      obtain ⟨a, b, ha, hb, hcommon⟩ := hnext (k + 1) length hlength
      rwa [ha, Nat.zero_add, hb, Nat.add_sub_cancel, Nat.add_sub_cancel]

/-! ## Extending a block -/

theorem getElem?_of_lt_commonStart {xs ys : List String} {k : Nat} (h : k < commonStart xs ys) :
    k < xs.length ∧ k < ys.length ∧ xs[k]? = ys[k]? := by
  induction xs generalizing ys k with
  | nil => cases ys <;> cases h
  | cons x xs ih =>
      cases ys with
      | nil => cases h
      | cons y ys =>
          rw [commonStart] at h
          split at h
          · rename_i hsame
            cases k with
            | zero => simpa using hsame
            | succ k => simpa using ih (Nat.lt_of_succ_lt_succ h)
          · cases h

theorem commonStart_le (xs ys : List String) :
    commonStart xs ys ≤ xs.length ∧ commonStart xs ys ≤ ys.length := by
  rcases Nat.eq_zero_or_pos (commonStart xs ys) with hzero | hpos
  · simp [hzero]
  · obtain ⟨hxs, hys, -⟩ :=
      getElem?_of_lt_commonStart (Nat.sub_lt hpos Nat.one_pos : _ < commonStart xs ys)
    omega

theorem getElem?_reverse_take {xs : List String} {k : Nat} (hi : i ≤ xs.length) (hk : k < i) :
    (xs.take i).reverse[k]? = xs[i - 1 - k]? := by
  have hlength : (xs.take i).length = i := List.length_take_of_le hi
  rw [List.getElem?_reverse (by rwa [hlength]), hlength, List.getElem?_take_of_lt (by omega)]

/-- The equal lines before two places make up a common block. -/
theorem common_before (hi : i ≤ old.length) (hj : j ≤ new.length) :
    let size := commonStart (old.take i).reverse (new.take j).reverse
    size ≤ i ∧ size ≤ j ∧ Block.Common ⟨i - size, j - size, size⟩ old new := by
  intro size
  obtain ⟨hold, hnew⟩ := commonStart_le (old.take i).reverse (new.take j).reverse
  rw [List.length_reverse, List.length_take_of_le hi] at hold
  rw [List.length_reverse, List.length_take_of_le hj] at hnew
  refine ⟨hold, hnew, ?_, ?_, fun k hk => ?_⟩
  · rwa [Nat.sub_add_cancel hold]
  · rwa [Nat.sub_add_cancel hnew]
  · -- Counted from the places back, these are the lines from the start of the block on.
    have hk : k < size := hk
    have hback : size - 1 - k < size := by omega
    obtain ⟨-, -, hsame⟩ := getElem?_of_lt_commonStart hback
    rw [getElem?_reverse_take hi (by omega), getElem?_reverse_take hj (by omega)] at hsame
    have hplaceOld : i - 1 - (size - 1 - k) = i - size + k := by omega
    have hplaceNew : j - 1 - (size - 1 - k) = j - size + k := by omega
    rwa [hplaceOld, hplaceNew] at hsame

/-- The equal lines from two places on make up a common block. -/
theorem common_after (hi : i ≤ old.length) (hj : j ≤ new.length) :
    Block.Common ⟨i, j, commonStart (old.drop i) (new.drop j)⟩ old new := by
  obtain ⟨hold, hnew⟩ := commonStart_le (old.drop i) (new.drop j)
  rw [List.length_drop] at hold hnew
  refine ⟨Nat.add_le_of_le_sub' hi hold, Nat.add_le_of_le_sub' hj hnew, fun k hk => ?_⟩
  obtain ⟨-, -, hsame⟩ := getElem?_of_lt_commonStart hk
  rwa [List.getElem?_drop, List.getElem?_drop] at hsame

/-- Equal lines next to a common block extend it. -/
theorem Block.Common.extend (h : block.Common old new) :
    (Diff.extend old new block).Common old new := by
  obtain ⟨i, j, size⟩ := block
  have hold : i ≤ old.length := Nat.le_trans (Nat.le_add_right i size) h.old_le
  have hnew : j ≤ new.length := Nat.le_trans (Nat.le_add_right j size) h.new_le
  obtain ⟨hi, hj, hbefore⟩ := common_before hold hnew
  have hafter := common_after h.old_le h.new_le
  unfold Diff.extend
  dsimp only
  generalize commonStart (old.take i).reverse (new.take j).reverse = before at hi hj hbefore ⊢
  refine Block.Common.join (hbefore.join ?_) ?_
  · rwa [Nat.sub_add_cancel hi, Nat.sub_add_cancel hj]
  · have hplaceOld : i - before + (before + size) = i + size := by omega
    have hplaceNew : j - before + (before + size) = j + size := by omega
    rwa [hplaceOld, hplaceNew]

theorem common_longest (startable : String → Bool) (old new : List String) :
    (longest startable old new).Common old new := by
  have hempty : Block.Common ⟨0, 0, 0⟩ old new := common_empty (Nat.zero_le _) (Nat.zero_le _)
  refine (common_longestFrom List.drop_zero ?_ hempty).extend
  -- At first there are only empty stretches.
  intro j length hlength
  obtain ⟨hj, -⟩ := List.getElem?_eq_some_iff.mp hlength
  obtain rfl : length = 0 := by
    rcases List.mem_cons.mp (List.mem_of_getElem? hlength) with hzero | hmem
    · exact hzero
    · obtain ⟨line, -, hzero⟩ := List.mem_map.mp hmem
      exact hzero.symm
  exact ⟨0, j, rfl, rfl, common_empty (Nat.zero_le _) (by simpa [Nat.lt_succ_iff] using hj)⟩

/-! ## Blocks in order -/

/-- Common blocks, none of them empty, that follow each other in both texts from one pair of places
to another. -/
inductive InOrder (old new : List String) : Nat → Nat → List Block → Nat → Nat → Prop
  | nil {i j i' j' : Nat} : i ≤ i' → j ≤ j' → InOrder old new i j [] i' j'
  | cons {i j i' j' : Nat} {block : Block} {blocks : List Block} :
      i ≤ block.old → j ≤ block.new → 0 < block.size → block.Common old new →
      InOrder old new (block.old + block.size) (block.new + block.size) blocks i' j' →
      InOrder old new i j (block :: blocks) i' j'

namespace InOrder

variable {blocks others : List Block} {m n : Nat}

theorem append {a b : Nat} (h : InOrder old new i j blocks a b)
    (h' : InOrder old new a b others i' j') : InOrder old new i j (blocks ++ others) i' j' := by
  induction h with
  | nil hi hj =>
      cases h' with
      | nil hi' hj' => exact .nil (Nat.le_trans hi hi') (Nat.le_trans hj hj')
      | cons hi' hj' hsize hcommon hrest =>
          exact .cons (Nat.le_trans hi hi') (Nat.le_trans hj hj') hsize hcommon hrest
  | cons hi hj hsize hcommon _ ih => exact .cons hi hj hsize hcommon (ih h')

/-- Blocks of the first parts of two texts are blocks of the texts. -/
theorem of_take (h : InOrder (old.take m) (new.take n) i j blocks i' j') :
    InOrder old new i j blocks i' j' := by
  induction h with
  | nil hi hj => exact .nil hi hj
  | @cons _ _ _ _ block _ hi hj hsize hcommon _ ih =>
      have hold := hcommon.old_le
      have hnew := hcommon.new_le
      rw [List.length_take] at hold hnew
      refine .cons hi hj hsize ⟨by omega, by omega, fun k hk => ?_⟩ ih
      have hsame := hcommon.same k hk
      rwa [List.getElem?_take_of_lt (by omega), List.getElem?_take_of_lt (by omega)] at hsame

/-- Blocks of the last parts of two texts are, moved along, blocks of the texts. -/
theorem of_drop (h : InOrder (old.drop m) (new.drop n) i j blocks i' j') :
    InOrder old new (i + m) (j + n) (blocks.map (·.shift m n)) (i' + m) (j' + n) := by
  induction h with
  | nil hi hj => exact .nil (Nat.add_le_add_right hi m) (Nat.add_le_add_right hj n)
  | @cons _ _ _ _ block _ hi hj hsize hcommon _ ih =>
      have hold := hcommon.old_le
      have hnew := hcommon.new_le
      rw [List.length_drop] at hold hnew
      rw [List.map_cons]
      refine .cons (Nat.add_le_add_right hi m) (Nat.add_le_add_right hj n) hsize ?_ ?_
      · refine ⟨?_, ?_, fun k hk => ?_⟩
        · show block.old + m + block.size ≤ _
          omega
        · show block.new + n + block.size ≤ _
          omega
        · have hsame := hcommon.same k hk
          rw [List.getElem?_drop, List.getElem?_drop, Nat.add_left_comm, Nat.add_left_comm n]
            at hsame
          rwa [Block.shift, Nat.add_assoc, Nat.add_assoc]
      · show InOrder old new (block.old + m + block.size) (block.new + n + block.size) _ _ _
        rwa [Nat.add_right_comm, Nat.add_right_comm block.new]

/-- Joining blocks that touch keeps the others where they are. -/
theorem joined (h : InOrder old new i j blocks i' j') :
    InOrder old new i j (Diff.joined blocks) i' j' := by
  induction blocks using Diff.joined.induct generalizing i j with
  | case1 first second rest htouch ih =>
      rw [Diff.joined, if_pos htouch]
      obtain ⟨hold, hnew⟩ : first.old + first.size = second.old ∧
          first.new + first.size = second.new := by simpa using htouch
      obtain - | ⟨hi, hj, hsize, hcommon, hrest⟩ := h
      obtain - | ⟨-, -, hsize', hcommon', hrest'⟩ := hrest
      refine ih (.cons hi hj (Nat.add_pos_left hsize _) (hcommon.join ?_) ?_)
      · rwa [hold, hnew]
      · show InOrder old new (first.old + (first.size + second.size))
          (first.new + (first.size + second.size)) rest i' j'
        rwa [← Nat.add_assoc, ← Nat.add_assoc, hold, hnew]
  | case2 first second rest hapart ih =>
      rw [Diff.joined, if_neg hapart]
      obtain - | ⟨hi, hj, hsize, hcommon, hrest⟩ := h
      exact .cons hi hj hsize hcommon (ih hrest)
  | case3 blocks hfew =>
      rwa [Diff.joined]
      exact hfew

end InOrder

theorem inOrder_stretches (startable : String → Bool) (depth : Nat) (old new : List String) :
    InOrder old new 0 0 (stretches startable depth old new) old.length new.length := by
  induction depth generalizing old new with
  | zero => exact .nil (Nat.zero_le _) (Nat.zero_le _)
  | succ depth ih =>
      have hcommon := common_longest startable old new
      rw [stretches]
      dsimp only
      split
      · exact .nil (Nat.zero_le _) (Nat.zero_le _)
      · rename_i hsize
        have hold := hcommon.old_le
        have hnew := hcommon.new_le
        generalize longest startable old new = block at hcommon hold hnew hsize ⊢
        have hleft := (ih (old.take block.old) (new.take block.new)).of_take
        have hright := (ih (old.drop (block.old + block.size))
          (new.drop (block.new + block.size))).of_drop
        rw [List.length_take_of_le (by omega), List.length_take_of_le (by omega)] at hleft
        rw [List.length_drop, List.length_drop, Nat.sub_add_cancel hold, Nat.sub_add_cancel hnew,
          Nat.zero_add, Nat.zero_add] at hright
        have hpos : 0 < block.size := Nat.pos_of_ne_zero (by simpa using hsize)
        exact hleft.append (.cons (Nat.le_refl _) (Nat.le_refl _) hpos hcommon hright)

/-- The common blocks of two texts are common, and follow each other in both. -/
theorem inOrder_commonBlocks (old new : List String) :
    InOrder old new 0 0 (commonBlocks old new) old.length new.length :=
  (inOrder_stretches _ _ old new).joined

end Arborist.Diff
