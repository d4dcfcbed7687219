import Arborist.Proofs.Diff.Printed
import Mathlib.Algebra.GroupWithZero.Nat
import Mathlib.Data.List.Chain

/-!
# Whether the lines of a difference stay apart

The lines of a difference are put together as they are, so a line that does not end with a line feed
runs into the next one when the text is cut after the line feeds again. That only happens to lines
of one hunk, where the old text is well separated: then the hunk has fewer lines than its header
announces, and the difference cannot be read (`readPatch_join_of_not_fed`). If no lines run
together, it makes the new text from the old one (`patch_join_of_fed`), and none do if all of the
old text is separated by line feeds, and the new text up to its last line (`fed_listing`).

The argument counts: how many lines the lines of a difference stand for (`counted`), and how many
its headers announce (`announced`). Where hunks can be read, the two are the same (`sum_counted`),
and running together leaves the second as it is and lessens the first (`sums_runTogether`).
-/

namespace Arborist.Diff

open Text

variable {old new : List String} {change : Change} {script : List Change}
  {all : List (List Change)} {i j i' j' : Nat} {line : String} {lines rest : List String}
  {oldName newName : String}

/-! ## Counting lines -/

/-- How many lines of both texts some lines of hunks are. -/
def total (lines : List (Sign × String)) : Nat := (tally lines).1 + (tally lines).2

/-- How many lines of both texts a line of a difference counts as. -/
def counted (line : String) : Nat := (readLine line).elim 0 fun shown => total [shown]

/-- How many lines of both texts a line of a difference announces. -/
def announced (line : String) : Nat :=
  (readHeader line).elim 0 fun ranges => ranges.1.length + ranges.2.length

theorem total_cons (shown : Sign × String) (body : List (Sign × String)) :
    total (shown :: body) = total [shown] + total body := by
  rw [total, ← List.singleton_append, tally_append]
  dsimp only [total]
  omega

theorem announced_of_isSome (h : (readLine line).isSome) : announced line = 0 := by
  have hheader : readHeader line = none := by
    rw [readLine] at h
    split at h <;> simp_all [readHeader, readPast]
  rw [announced, hheader]
  rfl

/-- In lines that read as hunks, as many are counted as are announced, those before the first hunk
apart. -/
theorem sum_counted {read : List (Sign × String) × List Hunk} (h : readHunks lines = some read) :
    (lines.map counted).sum = total read.1 + (lines.map announced).sum := by
  induction lines generalizing read with
  | nil =>
      cases h
      rfl
  | cons line lines ih =>
      rw [readHunks] at h
      obtain ⟨⟨body, hunks⟩, hrest, h⟩ := Option.bind_eq_some_iff.mp h
      have hsum := ih hrest
      rw [List.map_cons, List.map_cons, List.sum_cons, List.sum_cons, hsum]
      cases hline : readLine line with
      | some shown =>
          rw [hline] at h
          cases h
          rw [announced_of_isSome (by rw [hline]; rfl), counted, hline, total_cons]
          dsimp only [Option.elim_some]
          omega
      | none =>
          rw [hline] at h
          obtain ⟨⟨old, new⟩, hheader, h⟩ := Option.bind_eq_some_iff.mp h
          dsimp only at h
          by_cases hcounted : Hunk.IsCounted ⟨old, new, body⟩
          · have hbody : total body = old.length + new.length := by
              rw [total, show tally body = (old.length, new.length) from hcounted]
            rw [if_pos hcounted] at h
            cases h
            rw [counted, hline, announced, hheader, hbody]
            exact (Nat.zero_add _).trans (Nat.zero_add _).symm
          · rw [if_neg hcounted] at h
            cases h

/-! ## Lines that run together -/

/-- The first of two lines ends with a line feed, or both are lines of hunks. -/
def Joins (line next : String) : Prop :=
  EndsFed line ∨ ((readLine line).isSome ∧ (readLine next).isSome)

theorem readLine_append {sign : Sign} {text : String} (h : readLine line = some (sign, text))
    (rest : String) : readLine (line ++ rest) = some (sign, text ++ rest) := by
  rw [readLine] at h ⊢
  rw [String.toList_append]
  split at h
  all_goals
    rename_i hcs
    cases h
  all_goals
    rw [hcs]
    simp

theorem counted_append (h : (readLine line).isSome) (rest : String) :
    counted (line ++ rest) = counted line := by
  obtain ⟨⟨sign, text⟩, hshown⟩ := Option.isSome_iff_exists.mp h
  rw [counted, counted, hshown, readLine_append hshown]
  cases sign <;> rfl

theorem announced_append (h : (readLine line).isSome) (rest : String) :
    announced (line ++ rest) = 0 := by
  obtain ⟨⟨sign, text⟩, hshown⟩ := Option.isSome_iff_exists.mp h
  exact announced_of_isSome (by rw [readLine_append hshown]; rfl)

theorem counted_pos (h : (readLine line).isSome) : 0 < counted line := by
  obtain ⟨⟨sign, text⟩, hshown⟩ := Option.isSome_iff_exists.mp h
  rw [counted, hshown]
  cases sign <;> simp [total, tally, Sign.inOld, Sign.inNew]

/-- When lines of hunks run together, fewer of them are counted, and as many announced. -/
theorem sums_runTogether (h : lines.IsChain Joins) :
    ((runTogether lines).map announced).sum = (lines.map announced).sum ∧
      (Fed lines ∨ ((runTogether lines).map counted).sum < (lines.map counted).sum) := by
  induction lines with
  | nil => exact ⟨rfl, .inl (by simp [Fed])⟩
  | cons line lines ih =>
      obtain ⟨hfirst, hchain⟩ := List.isChain_cons.mp h
      obtain ⟨hannounced, hcounted⟩ := ih hchain
      by_cases hline : EndsFed line
      · rw [runTogether, if_pos hline]
        simp only [List.map_cons, List.sum_cons]
        refine ⟨by rw [hannounced], hcounted.imp (fun hfed => hfed.cons hline) fun hless => ?_⟩
        exact Nat.add_lt_add_left hless _
      · cases lines with
        | nil =>
            rw [runTogether, if_neg hline]
            exact ⟨rfl, .inl (by simp [Fed])⟩
        | cons next lines =>
            -- The next line, with what has run into it already, is lost.
            obtain ⟨hline', hnext⟩ := (hfirst next rfl).resolve_left hline
            obtain ⟨behind, more, hmore⟩ := exists_runTogether_cons next lines
            have hatMost : ((runTogether (next :: lines)).map counted).sum ≤
                ((next :: lines).map counted).sum := by
              rcases hcounted with hfed | hless
              · rw [runTogether_of_fed hfed]
              · exact Nat.le_of_lt hless
            rw [runTogether, if_neg hline]
            rw [hmore] at hannounced hatMost ⊢
            rw [runInto]
            simp only [List.map_cons, List.sum_cons, announced_append hnext,
              announced_append hline', announced_of_isSome hline', announced_of_isSome hnext,
              counted_append hnext, counted_append hline'] at hannounced hatMost ⊢
            have hpos := counted_pos hnext
            exact ⟨by omega, .inr (by omega)⟩

/-! ## The hunks of a difference -/

theorem Steps.fits (h : Steps old new i j script i' j') :
    ∀ change ∈ script, change.Fits old new := by
  induction h with
  | nil => simp
  | cons hfits _ _ ih => exact List.forall_mem_cons.mpr ⟨hfits, ih⟩

theorem Change.Fits.lines_ne_nil (h : change.Fits old new) : change.lines old new ≠ [] := by
  intro hnil
  have htally := h.tally_lines
  rw [hnil] at htally
  obtain ⟨hold, hnew⟩ := Prod.mk.inj htally
  cases h <;> simp at hold hnew <;> omega

theorem dropLast_linesOf (h : i' ≤ lines.length) :
    (linesOf lines i i').dropLast = linesOf lines i (i' - 1) := by
  rw [List.dropLast_eq_take, length_linesOf h, linesOf_eq_take, linesOf_eq_take, List.take_take]
  congr 1
  omega

/-- A hunk that ends with unchanged lines, and not at the end of the old text, ends with a line
feed. -/
theorem Steps.endsFed_last (h : Steps old new i j script i' j') (hold : Fed old)
    (hlast : ∃ last ∈ script.getLast?, last.kind = .equal ∧ last.oldStop < old.length) :
    ∀ line ∈ ((script.flatMap (·.lines old new)).map shown).getLast?, EndsFed line := by
  obtain ⟨last, hmem, hkind, hstop⟩ := hlast
  obtain ⟨before, rfl⟩ := List.getLast?_eq_some_iff.mp hmem
  have hfits := h.fits last (by simp)
  intro line hline
  rw [List.flatMap_append, List.flatMap_singleton, List.getLast?_map,
    List.getLast?_append_of_ne_nil _ hfits.lines_ne_nil] at hline
  obtain ⟨source, hsource, rfl⟩ := Option.map_eq_some_iff.mp hline
  rcases mem_linesOf_of_mem_lines (List.mem_of_getLast? hsource) with hsource | ⟨hother, -⟩
  · exact endsFed_shown (endsFed_of_mem_linesOf hold hstop hsource)
  · exact absurd hkind hother

/-- In a difference nothing but lines of hunks runs together. -/
theorem Hunked.isChain (h : Hunked old new i j all) (hold : Fed old) :
    (all.flatMap (hunkLines old new)).IsChain Joins := by
  induction h with
  | nil => exact .nil
  | @cons i j n i' j' hunk rest _ hne hsteps hlast _ ih =>
      have hbody : ((hunk.flatMap (·.lines old new)).map shown).IsChain Joins := by
        refine (List.isChain_map shown).mpr (List.pairwise_of_forall fun line next => ?_).isChain
        exact .inr ⟨by rw [readLine_shown]; rfl, by rw [readLine_shown]; rfl⟩
      rw [List.flatMap_cons, hsteps.hunkLines_eq hne, List.cons_append]
      refine List.isChain_cons.mpr ⟨fun _ _ => .inl (endsFed_header _ _ _ _), ?_⟩
      refine List.isChain_append.mpr ⟨hbody, ih, fun line hline next hnext => .inl ?_⟩
      refine hsteps.endsFed_last hold (hlast ?_) line hline
      rintro rfl
      cases hnext

/-! ## Differences whose lines stay apart -/

theorem endsFed_nameLine (start name : String) : EndsFed (start ++ name ++ "\n") :=
  endsFed_append _ (by decide)

/-- The lines with the names stay apart, so it comes to the hunks. -/
theorem fed_listing_iff : Fed (listing oldName newName old new) ↔
    Fed ((hunks old new).flatMap (hunkLines old new)) := by
  constructor
  · intro h
    exact fed_iff_isChain.mpr (fed_iff_isChain.mp h).tail.tail
  · intro h
    exact (h.cons (endsFed_nameLine _ _)).cons (endsFed_nameLine _ _)

section Apart

variable (hold : ∀ line ∈ old, EndsFed line) (hnew : Fed new)
include hold hnew

theorem endsFed_of_mem_lines (h : change.kind = .equal ∨ change.newStop < new.length)
    {line : Sign × String} (hline : line ∈ change.lines old new) : EndsFed line.2 := by
  rcases mem_linesOf_of_mem_lines hline with hmem | ⟨hkind, hmem⟩
  · exact hold _ (mem_of_mem_linesOf hmem)
  · exact endsFed_of_mem_linesOf hnew (h.resolve_left hkind) hmem

omit hnew in
theorem endsFed_shown_old (sign : Sign) (i i' : Nat) :
    ∀ line ∈ ((linesOf old i i').map (sign, ·)).map shown, EndsFed line := by
  intro line hline
  obtain ⟨text, htext, rfl⟩ := by simpa using hline
  exact endsFed_shown (hold text (mem_of_mem_linesOf htext))

omit hold in
theorem fed_shown_new (sign : Sign) (hstart : j < j') (hstop : j' ≤ new.length) :
    Fed (((linesOf new j j').map (sign, ·)).map shown) := by
  intro line hline
  rw [← List.map_dropLast, ← List.map_dropLast, dropLast_linesOf hstop] at hline
  obtain ⟨text, htext, rfl⟩ := by simpa using hline
  exact endsFed_shown (endsFed_of_mem_linesOf hnew (by omega) htext)

/-- Only the last of the lines of a change may end without a line feed. -/
theorem Change.Fits.fed_shown (h : change.Fits old new) :
    Fed ((change.lines old new).map shown) := by
  cases h with
  | equal => exact Fed.of_all (endsFed_shown_old hold .kept _ _)
  | replace _ _ hstart hstop =>
      rw [Change.lines, List.map_append]
      exact (fed_shown_new hnew .added hstart hstop).append (endsFed_shown_old hold .removed _ _)
  | delete => exact Fed.of_all (endsFed_shown_old hold .removed _ _)
  | insert hstart hstop => exact fed_shown_new hnew .added hstart hstop

/-- Only the last of the lines of changes may end without a line feed. -/
theorem Steps.fed_shown (h : Steps old new i j script i' j') :
    Fed ((script.flatMap (·.lines old new)).map shown) := by
  induction h with
  | nil => simp [Fed]
  | @cons change rest i' j' hfits hnext hrest ih =>
      rw [fed_iff_isChain] at ih
      rw [List.flatMap_cons, List.map_append, fed_iff_isChain]
      refine List.isChain_append.mpr
        ⟨fed_iff_isChain.mp (hfits.fed_shown hold hnew), ih, fun line hline behind hbehind => ?_⟩
      obtain ⟨source, hsource, rfl⟩ := List.mem_map.mp (List.mem_of_getLast? hline)
      refine endsFed_shown (endsFed_of_mem_lines hold hnew ?_ hsource)
      cases rest with
      | nil => cases hbehind
      | cons next rest =>
          by_cases hkind : change.kind = .equal
          · exact .inl hkind
          · -- Unchanged lines follow, and so lines of the new text.
            obtain ⟨-, hstart, hnextFits, -⟩ := steps_cons_iff.mp hrest
            obtain ⟨a, b, m, hpos, rfl, hcommon⟩ := hnextFits.exists_common (hnext hkind next rfl)
            have hle : b + m ≤ new.length := hcommon.new_le
            exact .inr (by dsimp only at hstart; omega)

/-- If every line of the old text ends with a line feed, and every line of the new text but the
last, the lines of a difference stay apart. -/
theorem Hunked.fed (h : Hunked old new i j all) : Fed (all.flatMap (hunkLines old new)) := by
  induction h with
  | nil => simp [Fed]
  | @cons i j n i' j' hunk rest _ hne hsteps hlast _ ih =>
      rw [List.flatMap_cons, hsteps.hunkLines_eq hne, List.cons_append]
      refine Fed.cons (fed_iff_isChain.mpr (List.isChain_append.mpr ?_)) (endsFed_header _ _ _ _)
      refine ⟨fed_iff_isChain.mp (hsteps.fed_shown hold hnew), fed_iff_isChain.mp ih, ?_⟩
      intro line hline next hnext
      refine hsteps.endsFed_last (Fed.of_all hold) (hlast ?_) line hline
      rintro rfl
      cases hnext

theorem fed_listing (oldName newName : String) : Fed (listing oldName newName old new) :=
  fed_listing_iff.mpr ((hunked_hunks old new).fed hold hnew)

end Apart

/-! ## Differences as one text -/

section Text

variable (hold : ∀ line ∈ old, IsLine line) (hnew : ∀ line ∈ new, IsLine line)
  (holdName : '\n' ∉ oldName.toList) (hnewName : '\n' ∉ newName.toList) (hfed : Fed old)
include hold hnew holdName hnewName hfed

/-- A difference whose lines stay apart makes the new text from the old one. -/
theorem patch_join_of_fed (h : Fed (listing oldName newName old new)) :
    patch (String.join (listing oldName newName old new)) (String.join old) =
      some (String.join new) := by
  rw [patch, feedLines_join (isLine_of_mem_listing hold hnew holdName hnewName),
    runTogether_of_fed h, feedLines_join hold, runTogether_of_fed hfed, patchLines_listing,
    Option.map_some]

/-- A difference whose lines run together cannot be read: fewer lines are left than it
announces. -/
theorem readPatch_join_of_not_fed (h : ¬Fed (listing oldName newName old new)) :
    readPatch (feedLines (String.join (listing oldName newName old new))) = none := by
  have hread := (hunked_hunks old new).readHunks_eq
  obtain ⟨hannounced, hcounted⟩ := sums_runTogether ((hunked_hunks old new).isChain hfed)
  replace hcounted := hcounted.resolve_left (mt fed_listing_iff.mpr h)
  rw [feedLines_join (isLine_of_mem_listing hold hnew holdName hnewName), listing, runTogether,
    if_pos (endsFed_nameLine _ _), runTogether, if_pos (endsFed_nameLine _ _), readPatch_cons_cons,
    Option.bind_eq_none_iff]
  rintro ⟨body, hunks⟩ hglued
  refine if_neg fun hempty => ?_
  obtain rfl : body = [] := by simpa using hempty
  -- Before and after, as many lines are counted as are announced.
  have hbefore : _ = 0 + _ := sum_counted hread
  have hafter : _ = 0 + _ := sum_counted hglued
  omega

end Text

end Arborist.Diff
