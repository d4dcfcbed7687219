import Arborist.Proofs.Diff.Script

/-!
# Printed differences read back

The lines of a difference, as they are before they are put together (`listing`), read back as what
was printed: a number, a range of lines, the line that opens a hunk, a line with its sign, and so
the hunks one after the other. Hence they make the new text from the old one, line by line
(`patchLines_listing`). Each of them is a line, that is, has no line feed but at its end
(`isLine_of_mem_listing`), and the last lemmas say which of them have one there.
-/

namespace Arborist.Diff

open Text

variable {old new : List String} {change : Change} {script : List Change}
  {all : List (List Change)} {i j i' j' : Nat} {line : String} {lines rest : List String}

/-! ## Reading headers -/

theorem readPast_append (expected rest : List Char) :
    readPast expected (expected ++ rest) = some rest := by
  rw [readPast, if_pos (by simp), List.drop_left]

theorem toList_toString (n : Nat) : (toString n).toList = Nat.toDigits 10 n := by
  rw [Nat.toString_eq_ofList_toDigits, String.toList_ofList]

theorem readNumber_toString (n : Nat) {rest : List Char}
    (hrest : ∀ c ∈ rest.head?, c.isDigit = false) :
    readNumber ((toString n).toList ++ rest) = some (n, rest) := by
  have hdigits : ((toString n).toList ++ rest).takeWhile Char.isDigit = (toString n).toList := by
    have hall : ∀ c ∈ (toString n).toList, c.isDigit = true := by
      intro c hc
      rw [toList_toString] at hc
      exact Nat.isDigit_of_mem_toDigits (by decide) (by decide) hc
    rw [List.takeWhile_append_of_pos hall]
    cases rest with
    | nil => simp
    | cons c rest => simp [hrest c rfl]
  have hsome : (toString n).toList.isEmpty = false := by
    rw [toList_toString, List.isEmpty_eq_false_iff]
    exact Nat.toDigits_ne_nil
  rw [readNumber, hdigits, hsome, List.drop_left, toList_toString, Nat.ofDigitChars_ten_toDigits]
  rfl

theorem readRange_shownRange (start stop : Nat) {rest : List Char}
    (hrest : ∀ c ∈ rest.head?, c.isDigit = false ∧ c ≠ ',') :
    readRange ((shownRange start stop).toList ++ rest) = some (⟨start, stop - start⟩, rest) := by
  have hend : ∀ c ∈ rest.head?, c.isDigit = false := fun c hc => (hrest c hc).1
  have hnumber : ∀ first length : Nat,
      readRange ((toString first ++ "," ++ toString length).toList ++ rest) =
        some (⟨if length = 0 then first else first - 1, length⟩, rest) := by
    intro first length
    have htext : (toString first ++ "," ++ toString length).toList ++ rest =
        (toString first).toList ++ ',' :: ((toString length).toList ++ rest) := by
      simp
    rw [htext, readRange, readNumber_toString first (by simp)]
    simp only [Option.bind_eq_bind, Option.bind_some]
    rw [readNumber_toString length hend]
    rfl
  rw [shownRange]
  by_cases hone : stop - start = 1
  · rw [hone, if_pos (beq_self_eq_true 1), readRange, readNumber_toString _ hend]
    cases rest with
    | nil => rfl
    | cons c rest =>
        have hcomma := (hrest c rfl).2
        simp [hcomma]
  · rw [if_neg (by simpa using hone), hnumber]
    by_cases hempty : stop - start = 0
    · simp [hempty]
    · simp [hempty]

/-- The line that opens a hunk. -/
def header (i i' j j' : Nat) : String :=
  "@@ -" ++ shownRange i i' ++ " +" ++ shownRange j j' ++ " @@\n"

theorem readHeader_header (i i' j j' : Nat) :
    readHeader (header i i' j j') = some (⟨i, i' - i⟩, ⟨j, j' - j⟩) := by
  have htext : (header i i' j j').toList = ['@', '@', ' ', '-'] ++ ((shownRange i i').toList ++
      ([' ', '+'] ++ ((shownRange j j').toList ++ [' ', '@', '@', '\n']))) := by
    simp [header]
  rw [readHeader, htext, readPast_append]
  simp only [Option.bind_eq_bind, Option.bind_some]
  rw [readRange_shownRange i i' (by simp)]
  simp only [Option.bind_some]
  rw [readPast_append]
  simp only [Option.bind_some]
  rw [readRange_shownRange j j' (by simp)]
  simp

/-! ## Reading hunks -/

/-- A line of a hunk as it is shown. -/
def shown (line : Sign × String) : String :=
  match line.1 with
  | .kept => " " ++ line.2
  | .removed => "-" ++ line.2
  | .added => "+" ++ line.2

theorem readLine_shown (line : Sign × String) : readLine (shown line) = some line := by
  obtain ⟨sign, text⟩ := line
  cases sign <;> simp [shown, readLine]

theorem readLine_header (i i' j j' : Nat) : readLine (header i i' j j') = none := by
  simp [readLine, header]

theorem changeLines_eq (old new : List String) :
    changeLines old new = fun change => (change.lines old new).map shown := by
  funext change
  cases hkind : change.kind <;>
    simp [changeLines, Change.lines, hkind, Function.comp_def, shown]

theorem Steps.getLast (h : Steps old new i j script i' j') :
    ∀ last ∈ script.getLast?, last.oldStop = i' ∧ last.newStop = j' := by
  induction h with
  | nil => simp
  | @cons change rest i' j' _ _ hrest ih =>
      cases rest with
      | nil =>
          obtain ⟨hi, hj⟩ := steps_nil_iff.mp hrest
          simpa using ⟨hi, hj⟩
      | cons => simpa using ih

/-- A hunk is shown as a header and its lines. -/
theorem Steps.hunkLines_eq (h : Steps old new i j script i' j') (hne : script ≠ []) :
    hunkLines old new script =
      header i i' j j' :: (script.flatMap (·.lines old new)).map shown := by
  have hlast := h.getLast
  cases script with
  | nil => exact absurd rfl hne
  | cons first rest =>
      obtain ⟨rfl, rfl, -⟩ := steps_cons_iff.mp h
      obtain ⟨rfl, rfl⟩ := hlast _ (List.getLast?_eq_some_getLast hne)
      rw [hunkLines, List.head?_cons, List.getLast?_eq_some_getLast hne, List.map_flatMap,
        changeLines_eq]
      rfl

theorem readHunks_shown (lines : List (Sign × String)) (rest : List String) :
    readHunks (lines.map shown ++ rest) =
      (readHunks rest).map fun read => (lines ++ read.1, read.2) := by
  induction lines with
  | nil => simp
  | cons line lines ih =>
      rw [List.map_cons, List.cons_append, readHunks, ih, readLine_shown]
      cases readHunks rest <;> rfl

/-- The lines that hunks are shown as read back as the hunks. -/
theorem Hunked.readHunks_eq (h : Hunked old new i j all) :
    readHunks (all.flatMap (hunkLines old new)) = some ([], all.map (hunkOf old new)) := by
  induction h with
  | nil => rfl
  | @cons i j n i' j' hunk rest _ hne hsteps _ _ ih =>
      have hcounted : (hunkOf old new hunk).IsCounted := rfl
      rw [hsteps.hunkOf_eq hne] at hcounted
      rw [List.flatMap_cons, hsteps.hunkLines_eq hne, List.cons_append, readHunks, readHunks_shown,
        ih, readLine_header, readHeader_header, List.map_cons, hsteps.hunkOf_eq hne]
      simpa using hcounted

/-! ## The lines of a difference -/

variable {oldName newName : String}

/-- The lines of a difference, before they are put together. -/
def listing (oldName newName : String) (old new : List String) : List String :=
  ("--- " ++ oldName ++ "\n") :: ("+++ " ++ newName ++ "\n") ::
    (hunks old new).flatMap (hunkLines old new)

theorem unified_of_ne (oldName newName : String) (hne : old ≠ new) :
    unified oldName newName old new = String.join (listing oldName newName old new) := by
  rw [unified]
  split
  · rename_i hnone
    exact absurd (eq_of_hunks_eq_nil hnone) hne
  · rfl

theorem readPatch_cons_cons (oldName newName : String) (lines : List String) :
    readPatch (("--- " ++ oldName ++ "\n") :: ("+++ " ++ newName ++ "\n") :: lines) =
      (readHunks lines).bind fun read => if read.1.isEmpty then some read.2 else none := by
  have hpast : ∀ start name : String,
      readPast start.toList (start ++ name ++ "\n").toList = some (name ++ "\n").toList := by
    intro start name
    rw [String.append_assoc, String.toList_append, readPast_append]
  have hold : readPast ['-', '-', '-', ' '] ("--- " ++ oldName ++ "\n").toList =
      some (oldName ++ "\n").toList := hpast "--- " oldName
  have hnew : readPast ['+', '+', '+', ' '] ("+++ " ++ newName ++ "\n").toList =
      some (newName ++ "\n").toList := hpast "+++ " newName
  rw [readPatch, hold, hnew]
  rfl

/-- Read line by line, a difference makes the new text from the old one. -/
theorem patchLines_listing (oldName newName : String) (old new : List String) :
    patchLines (listing oldName newName old new) old = some new := by
  rw [patchLines, listing, readPatch_cons_cons, (hunked_hunks old new).readHunks_eq]
  exact applyHunks_hunks old new

theorem isLine_append {start : String} (hstart : '\n' ∉ start.toList) (h : IsLine line) :
    IsLine (start ++ line) := by
  have hne : line.toList ≠ [] := by simpa using h.1
  refine ⟨by simp [h.1], ?_⟩
  rw [String.toList_append, List.dropLast_append_of_ne_nil hne, List.mem_append, not_or]
  exact ⟨hstart, h.2⟩

theorem isLine_feed : IsLine "\n" := ⟨by decide, by decide⟩

theorem feed_notMem_shownRange (start stop : Nat) : '\n' ∉ (shownRange start stop).toList := by
  have hdigits : ∀ n : Nat, '\n' ∉ Nat.toDigits 10 n := fun n hmem =>
    absurd (Nat.isDigit_of_mem_toDigits (by decide) (by decide) hmem) (by decide)
  rw [shownRange]
  split <;> simp [hdigits]

theorem isLine_header (i i' j j' : Nat) : IsLine (header i i' j j') :=
  isLine_append (by simp [feed_notMem_shownRange]) ⟨by decide, by decide⟩

theorem isLine_shown {line : Sign × String} (h : IsLine line.2) : IsLine (shown line) := by
  obtain ⟨sign, text⟩ := line
  cases sign <;> exact isLine_append (by decide) h

/-- The lines of a change are lines of its ranges, and those of the old text if nothing changes. -/
theorem mem_linesOf_of_mem_lines {line : Sign × String} (h : line ∈ change.lines old new) :
    line.2 ∈ linesOf old change.oldStart change.oldStop ∨
      change.kind ≠ .equal ∧ line.2 ∈ linesOf new change.newStart change.newStop := by
  have hmem : ∀ {sign : Sign} {text : List String}, line ∈ text.map (sign, ·) → line.2 ∈ text := by
    rintro sign text hline
    obtain ⟨found, hfound, rfl⟩ := List.mem_map.mp hline
    exact hfound
  cases hkind : change.kind <;> simp only [Change.lines, hkind] at h
  case equal => exact .inl (hmem h)
  case replace =>
    rcases List.mem_append.mp h with h | h
    · exact .inl (hmem h)
    · exact .inr ⟨by decide, hmem h⟩
  case delete => exact .inl (hmem h)
  case insert => exact .inr ⟨by decide, hmem h⟩

theorem mem_of_mem_linesOf (h : line ∈ linesOf lines i i') : line ∈ lines :=
  List.mem_of_mem_take (List.mem_of_mem_drop h)

/-- The lines that hunks are shown as are lines, if the texts consist of lines. -/
theorem Hunked.isLine (h : Hunked old new i j all) (hold : ∀ line ∈ old, IsLine line)
    (hnew : ∀ line ∈ new, IsLine line) : ∀ line ∈ all.flatMap (hunkLines old new), IsLine line := by
  induction h with
  | nil => simp
  | cons _ hne hsteps _ _ ih =>
      rw [List.flatMap_cons, hsteps.hunkLines_eq hne, List.cons_append]
      refine List.forall_mem_cons.mpr ⟨isLine_header _ _ _ _, List.forall_mem_append.mpr ⟨?_, ih⟩⟩
      intro line hline
      obtain ⟨source, hsource, rfl⟩ := List.mem_map.mp hline
      obtain ⟨change, -, hchange⟩ := List.mem_flatMap.mp hsource
      rcases mem_linesOf_of_mem_lines hchange with hmem | ⟨-, hmem⟩
      · exact isLine_shown (hold _ (mem_of_mem_linesOf hmem))
      · exact isLine_shown (hnew _ (mem_of_mem_linesOf hmem))

/-- The lines of a difference are lines, if the texts consist of lines and each name is part of
one. -/
theorem isLine_of_mem_listing (hold : ∀ line ∈ old, IsLine line) (hnew : ∀ line ∈ new, IsLine line)
    (holdName : '\n' ∉ oldName.toList) (hnewName : '\n' ∉ newName.toList) :
    ∀ line ∈ listing oldName newName old new, IsLine line := by
  refine List.forall_mem_cons.mpr ⟨?_, List.forall_mem_cons.mpr ⟨?_, ?_⟩⟩
  · exact isLine_append (by simpa using holdName) isLine_feed
  · exact isLine_append (by simpa using hnewName) isLine_feed
  · exact (hunked_hunks old new).isLine hold hnew

/-! ## Lines that end with a line feed -/

theorem endsFed_append (start : String) (h : EndsFed line) : EndsFed (start ++ line) := by
  rw [EndsFed, String.toList_append, List.getLast?_append, h]
  rfl

theorem endsFed_header (i i' j j' : Nat) : EndsFed (header i i' j j') :=
  endsFed_append _ (by decide)

theorem endsFed_shown {line : Sign × String} (h : EndsFed line.2) : EndsFed (shown line) := by
  obtain ⟨sign, text⟩ := line
  cases sign <;> exact endsFed_append _ h

/-- A range that stops before the end of a text has none but lines that end with a line feed. -/
theorem endsFed_of_mem_linesOf (h : Fed lines) (hstop : i' < lines.length)
    (hmem : line ∈ linesOf lines i i') : EndsFed line := by
  refine h line ?_
  rw [List.dropLast_eq_take]
  exact List.take_subset_take_left lines (Nat.le_sub_one_of_lt hstop) (List.mem_of_mem_drop hmem)

end Arborist.Diff
