import Arborist.Text.Blank

/-!
# Lines with characters of two texts

Where a text is put into another one, a line of the result may hold characters of both. Blanks do
not count, since nobody sees where they come from. `Mingles` says that there is such a line.

A text that starts with a line feed shares no line with what stands before it. With what stands
behind it, it shares the line that it ends on (`mingles_iff`).
-/

namespace Arborist.Text

/-- A character stands at a position, and on a row. -/
structure CharAt (cs : List Char) (position row : Nat) (c : Char) : Prop where
  getElem?_eq : cs[position]? = some c
  row_eq : (cs.take position).count '\n' = row

/-- A line has characters that are not blank both from between two positions and from elsewhere. -/
def Mingles (cs : List Char) (start stop : Nat) : Prop :=
  ∃ (row i j : Nat) (c d : Char), CharAt cs i row c ∧ CharAt cs j row d ∧
    isBlank c = false ∧ isBlank d = false ∧ (start ≤ i ∧ i < stop) ∧ ¬(start ≤ j ∧ j < stop)

variable {xs ys : List Char} {position row : Nat} {c : Char}

theorem CharAt.lt_length (h : CharAt xs position row c) : position < xs.length :=
  (List.getElem?_eq_some_iff.mp h.getElem?_eq).1

theorem CharAt.mem (h : CharAt xs position row c) : c ∈ xs := List.mem_of_getElem? h.getElem?_eq

theorem CharAt.row_le (h : CharAt xs position row c) : row ≤ xs.count '\n' := by
  rw [← h.row_eq]
  exact (List.take_sublist position xs).count_le '\n'

theorem charAt_append_cons (before after : List Char) (c : Char) :
    CharAt (before ++ c :: after) before.length (before.count '\n') c where
  getElem?_eq := by simp
  row_eq := by rw [List.take_left]

/-- A character of two texts in a row is one of the first or one of the second. -/
theorem CharAt.of_append (h : CharAt (xs ++ ys) position row c) :
    CharAt xs position row c ∨ ∃ position' row', position = xs.length + position' ∧
      row = xs.count '\n' + row' ∧ CharAt ys position' row' c := by
  obtain ⟨hget, hrow⟩ := h
  by_cases hlt : position < xs.length
  · left
    rw [List.getElem?_append_left hlt] at hget
    rw [List.take_append_of_le_length (Nat.le_of_lt hlt)] at hrow
    exact ⟨hget, hrow⟩
  · right
    obtain ⟨further, rfl⟩ := Nat.exists_eq_add_of_le (Nat.le_of_not_lt hlt)
    rw [List.getElem?_append_right (Nat.le_add_right _ _), Nat.add_sub_cancel_left] at hget
    rw [List.take_length_add_append, List.count_append] at hrow
    exact ⟨further, _, rfl, hrow.symm, hget, rfl⟩

/-- A character behind a line feed is on a later row. -/
theorem CharAt.of_cons_lineFeed (h : CharAt ('\n' :: xs) position row c)
    (hc : isBlank c = false) :
    ∃ position' row', position = position' + 1 ∧ row = row' + 1 ∧ CharAt xs position' row' c := by
  rcases CharAt.of_append (show CharAt (['\n'] ++ xs) position row c from h) with
    hfeed | ⟨position', row', rfl, rfl, hrest⟩
  · rw [List.mem_singleton.mp hfeed.mem] at hc
    cases hc
  · exact ⟨position', row', Nat.add_comm _ _, Nat.add_comm _ _, hrest⟩

section Mingling

variable {pre own right behind : List Char}

/-- A visible character on the first row of a text that goes on with a line feed is before that. -/
theorem CharAt.mem_of_row_zero (hbehind : behind = [] ∨ ∃ later, behind = '\n' :: later)
    (h : CharAt (right ++ behind) position 0 c) (hc : isBlank c = false) : c ∈ right := by
  rcases h.of_append with hright | ⟨position', row', -, hrow, hbehind'⟩
  · exact hright.mem
  · rcases hbehind with rfl | ⟨later, rfl⟩
    · cases hbehind'.mem
    · obtain ⟨-, later', -, hlater, -⟩ := hbehind'.of_cons_lineFeed hc
      omega

/-- Where a text that starts with a line feed mingles with the text around it, there is something to
be seen in it, and behind it on its last line. -/
theorem Mingles.visible (hbehind : behind = [] ∨ ∃ later, behind = '\n' :: later)
    (h : Mingles (pre ++ ('\n' :: own ++ (right ++ behind))) pre.length
      (pre.length + ('\n' :: own).length)) :
    (∃ c ∈ own, isBlank c = false) ∧ ∃ d ∈ right, isBlank d = false := by
  obtain ⟨row, i, j, c, d, hi, hj, hc, hd, hin, hout⟩ := h
  rw [List.length_cons] at hin hout
  -- The character from between the positions is one of `own`.
  rcases hi.of_append with hpre | ⟨i₁, row₁, rfl, rfl, hi₁⟩
  · have := hpre.lt_length
    omega
  obtain ⟨i₂, row₂, rfl, rfl, hi₂⟩ := hi₁.of_cons_lineFeed hc
  have hinner : CharAt own i₂ row₂ c := by
    rcases hi₂.of_append with hinner | ⟨i₃, row₃, rfl, -, -⟩
    · exact hinner
    · omega
  -- The other one is on an earlier row if it is before, so it is behind, on the first row there.
  rcases hj.of_append with hpre | ⟨j₁, row₁', rfl, hrow₁, hj₁⟩
  · have := hpre.row_le
    omega
  obtain ⟨j₂, row₂', rfl, rfl, hj₂⟩ := hj₁.of_cons_lineFeed hd
  rcases hj₂.of_append with hinner' | ⟨j₃, row₃', rfl, rfl, hj₃⟩
  · have := hinner'.lt_length
    omega
  have hrow := hinner.row_le
  obtain rfl : row₃' = 0 := by omega
  exact ⟨⟨c, hinner.mem, hc⟩, d, hj₃.mem_of_row_zero hbehind hd, hd⟩

/-- A text that ends in a character that is not blank mingles with what is to be seen behind it. -/
theorem mingles_of_visible {earlier : List Char} {last d : Char} (hlast : isBlank last = false)
    (hright : '\n' ∉ right) (hd : d ∈ right) (hblank : isBlank d = false) :
    Mingles (pre ++ ('\n' :: (earlier ++ [last]) ++ (right ++ behind))) pre.length
      (pre.length + ('\n' :: (earlier ++ [last])).length) := by
  obtain ⟨before, after, rfl⟩ := List.append_of_mem hd
  have hbefore : '\n' ∉ before := fun hfeed => hright (List.mem_append_left _ hfeed)
  have hlast' : last ≠ '\n' := by
    intro heq
    rw [heq] at hlast
    cases hlast
  have hfirst := charAt_append_cons (pre ++ '\n' :: earlier) (before ++ d :: after ++ behind) last
  have hsecond := charAt_append_cons (pre ++ '\n' :: (earlier ++ [last]) ++ before)
    (after ++ behind) d
  have hrow : (pre ++ '\n' :: (earlier ++ [last]) ++ before).count '\n' =
      (pre ++ '\n' :: earlier).count '\n' := by
    simp [List.count_append, List.count_cons_of_ne hlast', List.count_eq_zero_of_not_mem hbefore]
  rw [hrow] at hsecond
  refine ⟨_, _, _, last, d, by simpa using hfirst, by simpa using hsecond, hlast, hblank, ?_, ?_⟩
  · simp
  · simp

/-- A text that starts with a line feed, and is blank or ends in a character that is not, mingles
with the text around it exactly if there is something to be seen in it, and behind it on its last
line. -/
theorem mingles_iff
    (hown : (∀ c ∈ own, isBlank c = true) ∨ ∃ earlier c, own = earlier ++ [c] ∧ isBlank c = false)
    (hright : '\n' ∉ right) (hbehind : behind = [] ∨ ∃ later, behind = '\n' :: later) :
    Mingles (pre ++ ('\n' :: own ++ (right ++ behind))) pre.length
        (pre.length + ('\n' :: own).length) ↔
      (∃ c ∈ own, isBlank c = false) ∧ ∃ d ∈ right, isBlank d = false := by
  refine ⟨Mingles.visible hbehind, fun hvisible => ?_⟩
  obtain ⟨⟨c, hmem, hc⟩, d, hd, hblank⟩ := hvisible
  rcases hown with hown | ⟨earlier, last, rfl, hlast⟩
  · cases (hown c hmem).symm.trans hc
  · exact mingles_of_visible hlast hright hd hblank

end Mingling

end Arborist.Text
