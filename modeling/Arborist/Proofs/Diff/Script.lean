import Arborist.Diff.Unified
import Arborist.Proofs.Diff.CommonBlocks
import Arborist.Proofs.Diff.Patch

/-!
# Changes make the new text from the old one

The changes between two texts follow each other in both, from the start to the end (`Steps`); what
they take as unchanged is the same in both texts (`Change.Fits`), and no two of the others stand
next to each other. Cutting them into hunks and shortening the unchanged ranges leaves such steps,
with the same lines in both texts before, between and behind the hunks (`Hunked`).

* `steps_changes` — the changes between the common blocks lead from the start to the end;
* `hunked_hunks` — cutting them into hunks leaves out lines that are the same only;
* `applyHunks_hunks` — so applying the hunks to the old text makes the new one.
-/

namespace Arborist.Diff

variable {old new : List String} {change : Change} {script rest : List Change}
  {i j i' j' m n : Nat}

/-! ## Ranges of lines -/

theorem linesOf_eq_take (text : List String) (i i' : Nat) :
    linesOf text i i' = (text.drop i).take (i' - i) := by
  rw [linesOf, List.drop_take]

@[simp] theorem linesOf_self (text : List String) (i : Nat) : linesOf text i i = [] := by
  simp [linesOf_eq_take]

theorem linesOf_append_drop (text : List String) (h : i ≤ i') :
    linesOf text i i' ++ text.drop i' = text.drop i := by
  obtain ⟨n, rfl⟩ := Nat.exists_eq_add_of_le h
  rw [linesOf_eq_take, Nat.add_sub_cancel_left, ← List.drop_drop, List.take_append_drop]

theorem linesOf_append {k : Nat} (text : List String) (h : i ≤ i') (h' : i' ≤ k) :
    linesOf text i i' ++ linesOf text i' k = linesOf text i k := by
  obtain ⟨m, rfl⟩ := Nat.exists_eq_add_of_le h
  obtain ⟨n, rfl⟩ := Nat.exists_eq_add_of_le h'
  have hlength : i + m + n - i = m + n := by omega
  rw [linesOf_eq_take, linesOf_eq_take, linesOf_eq_take, Nat.add_sub_cancel_left,
    Nat.add_sub_cancel_left, hlength, List.take_add, List.drop_drop]

theorem length_linesOf {text : List String} (h : i' ≤ text.length) :
    (linesOf text i i').length = i' - i := by
  rw [linesOf, List.length_drop, List.length_take_of_le h]

theorem getElem?_linesOf (text : List String) (i i' k : Nat) :
    (linesOf text i i')[k]? = if k < i' - i then text[i + k]? else none := by
  rw [linesOf_eq_take, List.getElem?_take, List.getElem?_drop]

/-- A common block has the same lines in both texts. -/
theorem Block.Common.linesOf_eq (h : Block.Common ⟨i, j, n⟩ old new) :
    linesOf old i (i + n) = linesOf new j (j + n) := by
  refine List.ext_getElem? fun k => ?_
  rw [getElem?_linesOf, getElem?_linesOf, Nat.add_sub_cancel_left, Nat.add_sub_cancel_left]
  split
  · rename_i hk
    exact h.same k hk
  · rfl

/-- Texts that are the same behind a common block are the same from its start on. -/
theorem Block.Common.drop_eq_drop (h : Block.Common ⟨i, j, n⟩ old new)
    (hbehind : old.drop (i + n) = new.drop (j + n)) : old.drop i = new.drop j := by
  rw [← linesOf_append_drop old (Nat.le_add_right i n), h.linesOf_eq,
    ← linesOf_append_drop new (Nat.le_add_right j n), hbehind]

/-! ## Changes -/

/-- The lines of a change, each with its sign. -/
def Change.lines (old new : List String) (change : Change) : List (Sign × String) :=
  let removed := (linesOf old change.oldStart change.oldStop).map (Sign.removed, ·)
  let added := (linesOf new change.newStart change.newStop).map (Sign.added, ·)
  match change.kind with
  | .equal => (linesOf old change.oldStart change.oldStop).map (Sign.kept, ·)
  | .replace => removed ++ added
  | .delete => removed
  | .insert => added

/-- A change is about ranges of both texts that are there and are not empty without need, and what
it takes as unchanged is the same in both. -/
inductive Change.Fits (old new : List String) : Change → Prop
  | equal {i j n : Nat} : 0 < n → Block.Common ⟨i, j, n⟩ old new →
      Fits old new ⟨.equal, i, i + n, j, j + n⟩
  | replace {i i' j j' : Nat} : i < i' → i' ≤ old.length → j < j' → j' ≤ new.length →
      Fits old new ⟨.replace, i, i', j, j'⟩
  | delete {i i' j : Nat} : i < i' → i' ≤ old.length → Fits old new ⟨.delete, i, i', j, j⟩
  | insert {i j j' : Nat} : j < j' → j' ≤ new.length → Fits old new ⟨.insert, i, i, j, j'⟩

theorem Change.Fits.le (h : change.Fits old new) :
    change.oldStart ≤ change.oldStop ∧ change.newStart ≤ change.newStop := by
  cases h <;> dsimp only <;> omega

/-! ## Applying changes -/

theorem applyLines_kept (xs behind : List String) (lines : List (Sign × String)) :
    applyLines (xs.map (Sign.kept, ·) ++ lines) (xs ++ behind) =
      (applyLines lines behind).map fun made => (xs ++ made.1, made.2) := by
  induction xs with
  | nil => simp
  | cons x xs ih =>
      rw [List.map_cons, List.cons_append, List.cons_append, applyLines, if_pos rfl, ih,
        Option.map_map]
      rfl

theorem applyLines_removed (xs behind : List String) (lines : List (Sign × String)) :
    applyLines (xs.map (Sign.removed, ·) ++ lines) (xs ++ behind) = applyLines lines behind := by
  induction xs with
  | nil => rfl
  | cons x xs ih =>
      rw [List.map_cons, List.cons_append, List.cons_append, applyLines, if_pos rfl, ih]

theorem applyLines_added (xs behind : List String) (lines : List (Sign × String)) :
    applyLines (xs.map (Sign.added, ·) ++ lines) behind =
      (applyLines lines behind).map fun made => (xs ++ made.1, made.2) := by
  induction xs with
  | nil => simp
  | cons x xs ih =>
      rw [List.map_cons, List.cons_append, applyLines, ih, Option.map_map]
      rfl

/-- Applying a change puts its new lines in the place of its old ones. -/
theorem Change.Fits.applyLines_append (h : change.Fits old new) (lines : List (Sign × String)) :
    applyLines (change.lines old new ++ lines) (old.drop change.oldStart) =
      (applyLines lines (old.drop change.oldStop)).map fun made =>
        (linesOf new change.newStart change.newStop ++ made.1, made.2) := by
  rw [← linesOf_append_drop old h.le.1]
  cases h with
  | equal hpos hcommon =>
      rw [Change.lines, applyLines_kept, hcommon.linesOf_eq]
  | replace =>
      rw [Change.lines, List.append_assoc, applyLines_removed, applyLines_added]
  | delete => simp [Change.lines, applyLines_removed]
  | insert => simp [Change.lines, applyLines_added]

theorem tally_append (first second : List (Sign × String)) :
    tally (first ++ second) =
      ((tally first).1 + (tally second).1, (tally first).2 + (tally second).2) := by
  simp [tally]

/-- A change has as many lines of either text as it is about. -/
theorem Change.Fits.tally_lines (h : change.Fits old new) :
    tally (change.lines old new) =
      (change.oldStop - change.oldStart, change.newStop - change.newStart) := by
  have hmap : ∀ (sign : Sign) (xs : List String), tally (xs.map (sign, ·)) =
      (if sign.inOld then xs.length else 0, if sign.inNew then xs.length else 0) := by
    intro sign xs
    cases sign <;> simp [tally, List.countP_map, Function.comp_def, Sign.inOld, Sign.inNew]
  cases h with
  | equal hpos hcommon =>
      rw [Change.lines, hmap, length_linesOf hcommon.old_le]
      simp [Sign.inOld, Sign.inNew]
  | replace _ hold _ hnew =>
      rw [Change.lines, tally_append, hmap, hmap, length_linesOf hold, length_linesOf hnew]
      simp [Sign.inOld, Sign.inNew]
  | delete _ hold =>
      rw [Change.lines, hmap, length_linesOf hold]
      simp [Sign.inOld, Sign.inNew]
  | insert _ hnew =>
      rw [Change.lines, hmap, length_linesOf hnew]
      simp [Sign.inOld, Sign.inNew]

/-! ## Changes one after the other -/

/-- Changes that lead from one pair of places to another. What is not unchanged is followed by what
is, or by nothing. -/
inductive Steps (old new : List String) : Nat → Nat → List Change → Nat → Nat → Prop
  | nil {i j : Nat} : Steps old new i j [] i j
  | cons {change : Change} {rest : List Change} {i' j' : Nat} :
      change.Fits old new → (change.kind ≠ .equal → ∀ next ∈ rest.head?, next.kind = .equal) →
      Steps old new change.oldStop change.newStop rest i' j' →
      Steps old new change.oldStart change.newStart (change :: rest) i' j'

theorem steps_nil_iff : Steps old new i j [] i' j' ↔ i = i' ∧ j = j' := by
  constructor
  · rintro ⟨⟩
    exact ⟨rfl, rfl⟩
  · rintro ⟨rfl, rfl⟩
    exact .nil

theorem steps_cons_iff : Steps old new i j (change :: rest) i' j' ↔
    change.oldStart = i ∧ change.newStart = j ∧ change.Fits old new ∧
      (change.kind ≠ .equal → ∀ next ∈ rest.head?, next.kind = .equal) ∧
      Steps old new change.oldStop change.newStop rest i' j' := by
  constructor
  · intro h
    generalize hscript : change :: rest = script at h
    cases h with
    | nil => cases hscript
    | cons hfits hnext hrest =>
        cases hscript
        exact ⟨rfl, rfl, hfits, hnext, hrest⟩
  · rintro ⟨rfl, rfl, hfits, hnext, hrest⟩
    exact .cons hfits hnext hrest

namespace Steps

theorem le (h : Steps old new i j script i' j') : i ≤ i' ∧ j ≤ j' := by
  induction h with
  | nil => exact ⟨Nat.le_refl _, Nat.le_refl _⟩
  | cons hfits _ _ ih =>
      exact ⟨Nat.le_trans hfits.le.1 ih.1, Nat.le_trans hfits.le.2 ih.2⟩

/-- Applying changes that lead to a pair of places makes the new text up to there. -/
theorem applyLines_eq (h : Steps old new i j script i' j') :
    applyLines (script.flatMap (·.lines old new)) (old.drop i) =
      some (linesOf new j j', old.drop i') := by
  induction h with
  | nil => simp [applyLines]
  | cons hfits _ hrest ih =>
      rw [List.flatMap_cons, hfits.applyLines_append, ih, Option.map_some,
        linesOf_append new hfits.le.2 hrest.le.2]

theorem tally_eq (h : Steps old new i j script i' j') :
    tally (script.flatMap (·.lines old new)) = (i' - i, j' - j) := by
  induction h with
  | nil => simp [tally]
  | cons hfits _ hrest ih =>
      have hle := hfits.le
      have hle' := hrest.le
      rw [List.flatMap_cons, tally_append, hfits.tally_lines, ih, Prod.mk.injEq]
      omega

end Steps

/-- The gap before an unchanged range, or before the end, is one step at most. -/
theorem steps_gap (hi : i ≤ i') (hold : i' ≤ old.length) (hj : j ≤ j') (hnew : j' ≤ new.length)
    (hnext : ∀ next ∈ rest.head?, next.kind = .equal) (h : Steps old new i' j' rest m n) :
    Steps old new i j (gap i i' j j' ++ rest) m n := by
  unfold gap
  by_cases hremoved : i < i'
  · by_cases hadded : j < j'
    · rw [if_pos (by simp [hremoved, hadded])]
      exact .cons (.replace hremoved hold hadded hnew) (fun _ => hnext) h
    · obtain rfl : j = j' := by omega
      rw [if_neg (by simp), if_pos hremoved]
      exact .cons (.delete hremoved hold) (fun _ => hnext) h
  · obtain rfl : i = i' := by omega
    by_cases hadded : j < j'
    · rw [if_neg (by simp), if_neg hremoved, if_pos hadded]
      exact .cons (.insert hadded hnew) (fun _ => hnext) h
    · obtain rfl : j = j' := by omega
      rw [if_neg (by simp), if_neg hremoved, if_neg hadded]
      exact h

theorem InOrder.le_length {blocks : List Block}
    (h : InOrder old new i j blocks old.length new.length) : i ≤ old.length ∧ j ≤ new.length := by
  cases h with
  | nil hi hj => exact ⟨hi, hj⟩
  | cons hi hj _ hcommon _ =>
      have hold := hcommon.old_le
      have hnew := hcommon.new_le
      omega

theorem steps_changesFrom {blocks : List Block}
    (h : InOrder old new i j blocks old.length new.length) :
    Steps old new i j (changesFrom old.length new.length i j blocks) old.length new.length := by
  induction blocks generalizing i j with
  | nil =>
      obtain ⟨hi, hj⟩ := h.le_length
      rw [changesFrom, ← List.append_nil (gap _ _ _ _)]
      exact steps_gap hi (Nat.le_refl _) hj (Nat.le_refl _) (by simp) .nil
  | cons block blocks ih =>
      obtain - | ⟨hi, hj, hpos, hcommon, hrest⟩ := h
      have hold := hcommon.old_le
      have hnew := hcommon.new_le
      rw [changesFrom]
      refine steps_gap hi (by omega) hj (by omega) (by simp) ?_
      exact .cons (.equal hpos hcommon) (fun hkind => absurd rfl hkind) (ih hrest)

/-- The changes between two texts lead from the start of both to the end of both. -/
theorem steps_changes (old new : List String) :
    Steps old new 0 0 (changes old new) old.length new.length :=
  steps_changesFrom (inOrder_commonBlocks old new)

/-! ## Shortened changes -/

theorem trimLead_equal (i j n : Nat) :
    trimLead ⟨.equal, i, i + n, j, j + n⟩ =
      ⟨.equal, i + (n - context), i + n, j + (n - context), j + n⟩ := by
  have hmax : ∀ k : Nat, max k (k + n - context) = k + (n - context) := by
    intro k
    omega
  simp only [trimLead, beq_self_eq_true, if_true, hmax]

theorem trimTrail_equal (i j n : Nat) :
    trimTrail ⟨.equal, i, i + n, j, j + n⟩ =
      ⟨.equal, i, i + min n context, j, j + min n context⟩ := by
  simp only [trimTrail, beq_self_eq_true, if_true, Nat.add_min_add_left]

theorem trimLead_of_ne (h : change.kind ≠ .equal) : trimLead change = change :=
  if_neg (by simpa using h)

theorem trimTrail_of_ne (h : change.kind ≠ .equal) : trimTrail change = change :=
  if_neg (by simpa using h)

theorem kind_trimTrail (change : Change) : (trimTrail change).kind = change.kind := by
  unfold trimTrail
  split <;> rfl

/-- Part of what is the same in both texts can be taken as unchanged. -/
theorem Block.Common.fits {a b : Nat} (h : Block.Common ⟨i, j, n⟩ old new) (hab : a < b)
    (hb : b ≤ n) : Change.Fits old new ⟨.equal, i + a, i + b, j + a, j + b⟩ := by
  have hfits := Change.Fits.equal (Nat.sub_pos_of_lt hab) (h.part (Nat.le_of_lt hab) hb)
  rwa [Nat.add_assoc, Nat.add_assoc, Nat.add_sub_cancel' (Nat.le_of_lt hab)] at hfits

theorem Change.Fits.exists_common (h : change.Fits old new) (hkind : change.kind = .equal) :
    ∃ i j n, 0 < n ∧ change = ⟨.equal, i, i + n, j, j + n⟩ ∧ Block.Common ⟨i, j, n⟩ old new := by
  cases h with
  | equal hpos hcommon => exact ⟨_, _, _, hpos, rfl, hcommon⟩
  | replace => cases hkind
  | delete => cases hkind
  | insert => cases hkind

namespace Steps

/-- Shortening the first change leaves out lines that are the same. -/
theorem mapFirst_trimLead (h : Steps old new 0 0 script i' j') :
    ∃ n, Block.Common ⟨0, 0, n⟩ old new ∧
      Steps old new n n (mapFirst trimLead script) i' j' := by
  have hnone : Block.Common ⟨0, 0, 0⟩ old new := common_empty (Nat.zero_le _) (Nat.zero_le _)
  cases script with
  | nil => exact ⟨0, hnone, h⟩
  | cons change rest =>
      rw [mapFirst]
      by_cases hkind : change.kind = .equal
      · obtain ⟨hi, hj, hfits, hnext, hrest⟩ := steps_cons_iff.mp h
        obtain ⟨i, j, n, hpos, rfl, hcommon⟩ := hfits.exists_common hkind
        obtain ⟨rfl, rfl⟩ : i = 0 ∧ j = 0 := ⟨hi, hj⟩
        have hless : n - context < n := Nat.sub_lt hpos (by decide)
        have hbefore : Block.Common ⟨0, 0, n - context⟩ old new :=
          hcommon.part (Nat.zero_le _) (Nat.le_of_lt hless)
        rw [trimLead_equal]
        refine ⟨n - context, hbefore, steps_cons_iff.mpr ⟨Nat.zero_add _, Nat.zero_add _, ?_⟩⟩
        exact ⟨hcommon.fits hless (Nat.le_refl n), hnext, hrest⟩
      · rw [trimLead_of_ne hkind]
        exact ⟨0, hnone, h⟩

/-- Shortening the last change leaves out lines that are the same. -/
theorem mapLast_trimTrail (h : Steps old new i j script i' j') (hold : i' ≤ old.length)
    (hnew : j' ≤ new.length) :
    ∃ a b n, i' = a + n ∧ j' = b + n ∧ Block.Common ⟨a, b, n⟩ old new ∧
      Steps old new i j (mapLast trimTrail script) a b := by
  induction script generalizing i j with
  | nil => exact ⟨i', j', 0, rfl, rfl, common_empty hold hnew, h⟩
  | cons change rest ih =>
      obtain ⟨rfl, rfl, hfits, hnext, hrest⟩ := steps_cons_iff.mp h
      cases rest with
      | nil =>
          rw [mapLast]
          by_cases hkind : change.kind = .equal
          · obtain ⟨rfl, rfl⟩ := steps_nil_iff.mp hrest
            obtain ⟨i, j, n, hpos, rfl, hcommon⟩ := hfits.exists_common hkind
            have hshort : min n context ≤ n := Nat.min_le_left _ _
            have hsome : 0 < min n context := Nat.lt_min.mpr ⟨hpos, by decide⟩
            rw [trimTrail_equal]
            refine ⟨_, _, n - min n context, ?_, ?_, hcommon.part hshort (Nat.le_refl n), ?_⟩
            · dsimp only
              omega
            · dsimp only
              omega
            · exact .cons (hcommon.fits hsome hshort) hnext .nil
          · rw [trimTrail_of_ne hkind]
            exact ⟨i', j', 0, rfl, rfl, common_empty hold hnew, h⟩
      | cons next rest =>
          obtain ⟨a, b, n, ha, hb, hcommon, hsteps⟩ := ih hrest
          refine ⟨a, b, n, ha, hb, hcommon, .cons hfits (fun hkind => ?_) hsteps⟩
          have hequal : next.kind = .equal := hnext hkind next rfl
          cases rest with
          | nil => simpa [mapLast, kind_trimTrail] using hequal
          | cons => simpa [mapLast] using hequal

/-- What is unchanged can be taken shorter at its end, and as the last change. -/
theorem shorten {before : List Change} {shorter : Change}
    (h : Steps old new i j (before ++ change :: rest) i' j') (hkind : shorter.kind = .equal)
    (hold : shorter.oldStart = change.oldStart) (hnew : shorter.newStart = change.newStart)
    (hfits : shorter.Fits old new) :
    Steps old new i j (before ++ [shorter]) shorter.oldStop shorter.newStop := by
  induction before generalizing i j with
  | nil =>
      obtain ⟨rfl, rfl, -⟩ := steps_cons_iff.mp h
      rw [← hold, ← hnew]
      exact .cons hfits (by simp) .nil
  | cons first before ih =>
      obtain ⟨rfl, rfl, hfirst, hnext, hrest⟩ := steps_cons_iff.mp h
      refine .cons hfirst (fun hother => ?_) (ih hrest)
      cases before with
      | nil => simpa using hkind
      | cons => exact hnext hother

theorem of_append {before : List Change}
    (h : Steps old new i j (before ++ change :: rest) i' j') :
    Steps old new change.oldStart change.newStart (change :: rest) i' j' := by
  induction before generalizing i j with
  | nil =>
      obtain ⟨rfl, rfl, -⟩ := steps_cons_iff.mp h
      exact h
  | cons first before ih =>
      obtain ⟨-, -, -, -, hrest⟩ := steps_cons_iff.mp h
      exact ih hrest

end Steps

/-! ## Hunks -/

/-- Hunks that stand one after the other from a pair of places on, with the same lines in both texts
before, between and behind them. If another one follows, a hunk ends with unchanged lines, and not
at the end of the old text. -/
inductive Hunked (old new : List String) : Nat → Nat → List (List Change) → Prop
  | nil {i j : Nat} : old.drop i = new.drop j → Hunked old new i j []
  | cons {i j n i' j' : Nat} {hunk : List Change} {rest : List (List Change)} :
      Block.Common ⟨i, j, n⟩ old new → hunk ≠ [] → Steps old new (i + n) (j + n) hunk i' j' →
      (rest ≠ [] → ∃ last ∈ hunk.getLast?, last.kind = .equal ∧ last.oldStop < old.length) →
      Hunked old new i' j' rest → Hunked old new i j (hunk :: rest)

/-- Cutting changes into hunks leaves out lines that are the same only. -/
theorem hunked_hunksFrom {hunk : List Change} (hbefore : Block.Common ⟨i, j, n⟩ old new)
    (h : Steps old new (i + n) (j + n) (hunk.reverse ++ script) i' j')
    (hbehind : old.drop i' = new.drop j') : Hunked old new i j (hunksFrom hunk script) := by
  induction script generalizing hunk i j n with
  | nil =>
      rw [List.append_nil] at h
      match hunk with
      | [] =>
          obtain ⟨rfl, rfl⟩ := steps_nil_iff.mp h
          exact .nil (hbefore.drop_eq_drop hbehind)
      | [only] =>
          obtain ⟨hi, hj, hfits, -, hrest⟩ := steps_cons_iff.mp h
          rw [hunksFrom]
          split
          · -- Nothing but unchanged lines is left, up to the end.
            rename_i hkind
            obtain ⟨rfl, rfl⟩ := steps_nil_iff.mp hrest
            obtain ⟨i₁, j₁, m, -, rfl, hcommon⟩ := hfits.exists_common (by simpa using hkind)
            obtain ⟨rfl, rfl⟩ : i₁ = i + n ∧ j₁ = j + n := ⟨hi, hj⟩
            exact .nil (hbefore.drop_eq_drop (hcommon.drop_eq_drop hbehind))
          · exact .cons hbefore (by simp) h (by simp) (.nil hbehind)
      | last :: next :: before =>
          exact .cons hbefore (by simp) h (by simp) (.nil hbehind)
  | cons change rest ih =>
      rw [hunksFrom]
      split
      · rename_i hlong
        rw [Bool.and_eq_true, beq_iff_eq, decide_eq_true_iff] at hlong
        obtain ⟨hkind, hlong⟩ := hlong
        have hfrom := h.of_append
        obtain ⟨-, -, hfits, hnext, hrest⟩ := steps_cons_iff.mp hfrom
        obtain ⟨a, b, m, -, rfl, hcommon⟩ := hfits.exists_common hkind
        replace hlong : 2 * context < m := by simpa using hlong
        have hpos : 0 < context := by decide
        have htrail : trimTrail ⟨.equal, a, a + m, b, b + m⟩ =
            ⟨.equal, a, a + context, b, b + context⟩ := by
          rw [trimTrail_equal, Nat.min_eq_right (by omega)]
        have hbetween := hcommon.part (a := context) (b := m - context) (by omega) (by omega)
        have hshort := hcommon.fits hpos (Nat.le_of_lt (show context < m by omega))
        rw [htrail, trimLead_equal, List.reverse_cons]
        refine .cons hbefore (by simp) (h.shorten rfl rfl rfl hshort) (fun _ => ?_)
          (ih hbetween ?_)
        · have hlength : a + m ≤ old.length := hcommon.old_le
          refine ⟨_, List.getLast?_concat, rfl, ?_⟩
          dsimp only
          omega
        · refine steps_cons_iff.mpr ⟨?_, ?_, hcommon.fits (by omega) (Nat.le_refl m), hnext, hrest⟩
          · dsimp only
            omega
          · dsimp only
            omega
      · refine ih hbefore ?_
        rwa [List.reverse_cons, List.append_assoc, List.singleton_append]

/-- The hunks of a difference stand one after the other from the start of both texts on. -/
theorem hunked_hunks (old new : List String) : Hunked old new 0 0 (hunks old new) := by
  obtain ⟨n, hbefore, hfirst⟩ := (steps_changes old new).mapFirst_trimLead
  obtain ⟨i, j, m, hi, hj, hbehind, hlast⟩ :=
    hfirst.mapLast_trimTrail (Nat.le_refl _) (Nat.le_refl _)
  have hsteps : Steps old new (0 + n) (0 + n)
      ([].reverse ++ mapLast trimTrail (mapFirst trimLead (changes old new))) i j := by
    simpa using hlast
  refine hunked_hunksFrom hbefore hsteps (hbehind.drop_eq_drop ?_)
  rw [← hi, ← hj, List.drop_length, List.drop_length]

/-- Texts without hunks are the same. -/
theorem eq_of_hunks_eq_nil (h : hunks old new = []) : old = new := by
  have hunked := hunked_hunks old new
  rw [h] at hunked
  obtain ⟨heq⟩ := hunked
  simpa using heq

/-! ## Applying hunks -/

/-- A hunk as it is shown: where its changes start, and their lines with their number. -/
def hunkOf (old new : List String) (hunk : List Change) : Hunk :=
  let lines := hunk.flatMap (·.lines old new)
  ⟨⟨hunk.head?.elim 0 (·.oldStart), (tally lines).1⟩,
    ⟨hunk.head?.elim 0 (·.newStart), (tally lines).2⟩, lines⟩

theorem Steps.hunkOf_eq {hunk : List Change} (h : Steps old new i j hunk i' j') (hne : hunk ≠ []) :
    hunkOf old new hunk =
      ⟨⟨i, i' - i⟩, ⟨j, j' - j⟩, hunk.flatMap (·.lines old new)⟩ := by
  rw [hunkOf, h.tally_eq]
  cases hunk with
  | nil => exact absurd rfl hne
  | cons first rest =>
      obtain ⟨rfl, rfl, -⟩ := steps_cons_iff.mp h
      rfl

/-- Applying hunks to the rest of the old text makes the rest of the new one. -/
theorem Hunked.applyHunks_eq {hunks : List (List Change)} (h : Hunked old new i j hunks) :
    applyHunks i j (hunks.map (hunkOf old new)) (old.drop i) = some (new.drop j) := by
  induction h with
  | nil heq => rw [List.map_nil, applyHunks, heq]
  | @cons i j n i' j' hunk rest hcommon hne hsteps _ _ ih =>
      have hle := hsteps.le
      have hskip : i + n - i = n := Nat.add_sub_cancel_left i n
      have hroom : n ≤ (old.drop i).length := by
        have hold : i + n ≤ old.length := hcommon.old_le
        rw [List.length_drop]
        omega
      have hbefore : (old.drop i).take n = linesOf new j (j + n) := by
        rw [← hcommon.linesOf_eq, linesOf_eq_take, hskip]
      rw [List.map_cons, applyHunks, hsteps.hunkOf_eq hne]
      dsimp only
      rw [hskip, if_pos ⟨Nat.le_add_right i n, rfl, hroom⟩, List.drop_drop, hsteps.applyLines_eq,
        Nat.add_sub_cancel' hle.1, Nat.add_sub_cancel' hle.2]
      dsimp only [Option.bind_eq_bind, Option.bind_some]
      rw [ih]
      dsimp only [Option.bind_some, Option.pure_def]
      rw [hbefore, List.append_assoc, linesOf_append_drop new hle.2,
        linesOf_append_drop new (Nat.le_add_right j n)]

/-- Applying the hunks of a difference to the old text makes the new one. -/
theorem applyHunks_hunks (old new : List String) :
    applyHunks 0 0 ((hunks old new).map (hunkOf old new)) old = some new :=
  (hunked_hunks old new).applyHunks_eq

end Arborist.Diff
