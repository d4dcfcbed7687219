import Arborist.Proofs.Text.Rows

/-!
# Lines that a text is put into

Where a text is put into a source, the line of that place is cut in two, and all other lines stay as
they are. `LineCut` is a source cut in this way: lines before, the two parts of the line, and lines
behind. Whatever comes between the lines before and the lines behind, only the lines of the middle
change (`LineCut.pieces_eq`). With that, the lines of the result are found from the few characters
in the middle.

Cutting at a separator is `List.splitOn`, so what is known of that is known of `pieces`.
-/

namespace Arborist.Text

/-! ## Pieces of joined lists -/

section Pieces

variable {α : Type} [DecidableEq α] {separator : α} {xs ys : List α}

theorem pieces_eq_splitOn (separator : α) (xs : List α) :
    pieces separator xs = xs.splitOn separator := by
  induction xs with
  | nil => rfl
  | cons x xs ih =>
      obtain ⟨piece, rest, hpieces, hcons⟩ := exists_pieces_cons separator xs
      rw [List.splitOn_cons_eq_if_modifyHead, ← ih]
      by_cases hx : x = separator
      · rw [if_pos (by simpa using hx), hx, pieces_cons_separator]
      · rw [if_neg (by simpa using hx), hcons x hx, hpieces]
        rfl

omit [DecidableEq α] in
theorem joinPieces_eq_intercalate (separator : List α) (lines : List (List α)) :
    joinPieces separator lines = separator.intercalate lines := by
  induction lines with
  | nil => rfl
  | cons line rest ih =>
      cases rest with
      | nil => simp [joinPieces]
      | cons next rest =>
          rw [List.intercalate_cons_cons, ← ih]
          rfl

/-- A separator sets what stands before it apart from what stands behind it. -/
theorem pieces_append_separator (xs ys : List α) :
    pieces separator (xs ++ separator :: ys) = pieces separator xs ++ pieces separator ys := by
  rw [pieces_eq_splitOn, pieces_eq_splitOn, pieces_eq_splitOn, List.splitOn_append_cons_self]

theorem pieces_eq_singleton (h : separator ∉ xs) : pieces separator xs = [xs] := by
  rw [pieces_eq_splitOn, List.splitOn_eq_singleton h]

theorem pieces_joinPieces {lines : List (List α)} (hne : lines ≠ [])
    (h : ∀ line ∈ lines, separator ∉ line) :
    pieces separator (joinPieces [separator] lines) = lines := by
  rw [pieces_eq_splitOn, joinPieces_eq_intercalate, List.splitOn_intercalate separator h hne]

/-- One more piece than there are separators. -/
theorem length_pieces (separator : α) (xs : List α) :
    (pieces separator xs).length = xs.count separator + 1 := by
  induction xs with
  | nil => rfl
  | cons x xs ih =>
      obtain ⟨piece, rest, hpieces, hcons⟩ := exists_pieces_cons separator xs
      by_cases hx : x = separator
      · rw [hx, pieces_cons_separator, List.length_cons, ih, List.count_cons_self]
      · rw [List.count_cons_of_ne hx, ← ih, hcons x hx, hpieces]
        rfl

theorem notMem_of_mem_pieces {piece : List α} (h : piece ∈ pieces separator xs) :
    separator ∉ piece := by
  induction xs generalizing piece with
  | nil =>
      rw [List.mem_singleton.mp h]
      exact List.not_mem_nil
  | cons x xs ih =>
      obtain ⟨first, rest, hpieces, hcons⟩ := exists_pieces_cons separator xs
      by_cases hx : x = separator
      · rw [hx, pieces_cons_separator, List.mem_cons] at h
        rcases h with rfl | h
        · exact List.not_mem_nil
        · exact ih h
      · rw [hcons x hx, List.mem_cons] at h
        rcases h with rfl | h
        · have hfirst : separator ∉ first := ih (by simp [hpieces])
          simp [Ne.symm hx, hfirst]
        · exact ih (by simp [hpieces, h])

/-- Separators in a row have nothing between them. -/
theorem pieces_replicate_append (n : Nat) (xs : List α) :
    pieces separator (List.replicate n separator ++ xs) =
      List.replicate n [] ++ pieces separator xs := by
  induction n with
  | zero => rfl
  | succ n ih =>
      rw [List.replicate_succ, List.cons_append, pieces_cons_separator, ih]
      rfl

/-- Nothing, or pieces that are all ended by a separator. -/
def Ended (separator : α) (xs : List α) : Prop := xs = [] ∨ ∃ earlier, xs = earlier ++ [separator]

/-- Pieces that are all ended stay as they are, whatever follows. -/
theorem Ended.exists_pieces_append (h : Ended separator xs) :
    ∃ lines : List (List α), lines.length = xs.count separator ∧
      ∀ ys, pieces separator (xs ++ ys) = lines ++ pieces separator ys := by
  rcases h with rfl | ⟨earlier, rfl⟩
  · exact ⟨[], by simp, fun ys => rfl⟩
  · refine ⟨pieces separator earlier, ?_, fun ys => ?_⟩
    · simp [length_pieces]
    · rw [List.append_assoc, List.singleton_append, pieces_append_separator]

/-- Pieces that are all begun by a separator stay as they are, whatever comes before. -/
theorem exists_pieces_append_begun (h : ys = [] ∨ ∃ later, ys = separator :: later) :
    ∃ lines : List (List α), ∀ xs, pieces separator (xs ++ ys) = pieces separator xs ++ lines := by
  rcases h with rfl | ⟨later, rfl⟩
  · exact ⟨[], fun xs => by simp⟩
  · exact ⟨pieces separator later, fun xs => pieces_append_separator xs later⟩

/-- A list ends in its last piece, and elements that do not separate all join that. -/
theorem exists_eq_append_of_pieces {lines : List (List α)} {last : List α}
    (h : pieces separator xs = lines ++ [last]) :
    ∃ before, xs = before ++ last ∧
      ∀ ys, separator ∉ ys → pieces separator (xs ++ ys) = lines ++ [last ++ ys] := by
  obtain ⟨before, piece, -, rfl, hfree, hended⟩ := exists_lastPiece separator xs
  obtain ⟨above, -, habove⟩ := Ended.exists_pieces_append hended
  rw [habove, pieces_eq_singleton hfree] at h
  obtain ⟨rfl, hlast⟩ := List.append_inj' h rfl
  obtain rfl := List.singleton_inj.mp hlast
  refine ⟨before, rfl, fun ys hys => ?_⟩
  rw [List.append_assoc, habove, pieces_eq_singleton (by simp [hfree, hys])]

end Pieces

/-! ## Sources cut at an offset -/

theorem count_bytesOf (cs : List Char) : (bytesOf cs).count lineFeed = cs.count '\n' := by
  have hlength := congrArg List.length (pieces_bytesOf cs)
  rw [List.length_map, length_pieces, length_pieces] at hlength
  exact Nat.succ.inj hlength

/-- The line starts behind the last line feed. -/
theorem lineStart_of_take_eq {bytes before line : Bytes} {offset : Nat}
    (h : bytes.take offset = before ++ line) (hended : Ended lineFeed before)
    (hfree : lineFeed ∉ line) : lineStart bytes offset = before.length := by
  have hline : (before ++ line).reverse.takeWhile (· != lineFeed) = line.reverse := by
    have hpass : ∀ byte ∈ line.reverse, (byte != lineFeed) = true := by
      intro byte hbyte
      exact bne_iff_ne.mpr fun heq => hfree (heq ▸ List.mem_reverse.mp hbyte)
    rw [List.reverse_append, List.takeWhile_append_of_pos hpass]
    rcases hended with rfl | ⟨earlier, rfl⟩ <;> simp
  rw [lineStart, h, hline]
  simp

/-- Every offset is on a line, and the line stands where the line of the offset starts. -/
theorem exists_line (text : String) (offset : Nat) :
    ∃ line rest, (pieces '\n' text.toList)[rowOf (encode text) offset]? = some line ∧
      (encode text).drop (lineStart (encode text) offset) = bytesOf line ++ rest ∧
      (rest = [] ∨ ∃ later, rest = lineFeed :: later) := by
  obtain ⟨before, part, htake, hlength, -, hended⟩ := exists_lineStart (encode text) offset
  have hsplit : encode text = before ++ (part ++ (encode text).drop offset) := by
    rw [← List.append_assoc, ← htake, List.take_append_drop]
  have hdrop : (encode text).drop (lineStart (encode text) offset) =
      part ++ (encode text).drop offset := by
    rw [← hlength]
    exact (congrArg (List.drop before.length) hsplit).trans List.drop_left
  obtain ⟨first, rest, -, hrest, hfirst, hbegun⟩ :=
    exists_firstPiece lineFeed (part ++ (encode text).drop offset)
  obtain ⟨above, habove, hpieces⟩ := Ended.exists_pieces_append hended
  obtain ⟨below, hbelow⟩ := exists_pieces_append_begun hbegun
  have hrow : rowOf (encode text) offset = above.length := by
    rw [habove, ← rowOf_lineStart, ← hlength, rowOf_of_eq_append hsplit]
  have hlines : (pieces '\n' text.toList).map bytesOf = above ++ ([first] ++ below) := by
    rw [← pieces_bytesOf, ← encode_eq_bytesOf, hsplit, hpieces, hrest, hbelow,
      pieces_eq_singleton hfirst]
  have hfound : ((pieces '\n' text.toList)[rowOf (encode text) offset]?).map bytesOf =
      some first := by
    rw [← List.getElem?_map, hlines, hrow]
    simp
  obtain ⟨line, hline, rfl⟩ := Option.map_eq_some_iff.mp hfound
  exact ⟨line, rest, hline, hdrop.trans hrest, hbegun⟩

/-- A text is cut at an offset: into the lines before that of the offset, what stands on the line
before the offset and behind it, and the lines behind. -/
structure LineCut (text : String) (offset : Nat) (before left right behind : List Char) : Prop where
  text_eq : text.toList = before ++ (left ++ right) ++ behind
  offset_eq : (bytesOf (before ++ left)).length = offset
  before_ended : Ended '\n' before
  behind_begun : behind = [] ∨ ∃ later, behind = '\n' :: later
  left_free : '\n' ∉ left
  right_free : '\n' ∉ right

/-- A text can be cut wherever no character is cut. -/
theorem exists_lineCut {text : String} {offset : Nat} (hle : offset ≤ (encode text).length)
    (hinside : ¬InsideCharacter text offset) :
    ∃ before left right behind, LineCut text offset before left right behind := by
  rw [encode_eq_bytesOf] at hle
  rcases boundary_or_inside text.toList offset hle with ⟨first, second, hsplit, hlength⟩ | hcut
  · obtain ⟨before, left, -, rfl, hleft, hbefore⟩ := exists_lastPiece '\n' first
    obtain ⟨right, behind, -, rfl, hright, hbehind⟩ := exists_firstPiece '\n' second
    exact ⟨before, left, right, behind, by simp [hsplit], hlength, hbefore, hbehind, hleft, hright⟩
  · obtain ⟨before, c, after, hsplit, hlt, hgt⟩ := hcut
    refine absurd ⟨before, c, after, hsplit, ?_, ?_⟩ hinside
    · rw [encode_ofList]
      exact Int.ofNat_lt.mpr hlt
    · rw [encode_ofList]
      exact Int.ofNat_lt.mpr hgt

namespace LineCut

variable {text : String} {offset : Nat} {before left right behind : List Char}

theorem take_encode (h : LineCut text offset before left right behind) :
    (encode text).take offset = bytesOf before ++ bytesOf left := by
  have hbytes : encode text = bytesOf (before ++ left) ++ bytesOf (right ++ behind) := by
    rw [encode_eq_bytesOf, h.text_eq]
    simp
  rw [hbytes, ← h.offset_eq, List.take_left, bytesOf_append]

theorem drop_encode (h : LineCut text offset before left right behind) :
    (encode text).drop offset = bytesOf (right ++ behind) := by
  have hbytes : encode text = bytesOf (before ++ left) ++ bytesOf (right ++ behind) := by
    rw [encode_eq_bytesOf, h.text_eq]
    simp
  rw [hbytes, ← h.offset_eq, List.drop_left]

theorem insideCharacter_eq (h : LineCut text offset before left right behind) :
    Edit.insideCharacter (encode text) offset = false := by
  have hboundary := not_continuation_of_boundary (before ++ left) (right ++ behind)
  rw [Edit.insideCharacter, Int.toNat_natCast, encode_eq_bytesOf, h.text_eq, ← h.offset_eq]
  simpa using hboundary

theorem offset_le (h : LineCut text offset before left right behind) :
    offset ≤ (encode text).length := by
  rw [← h.offset_eq, encode_eq_bytesOf, h.text_eq]
  simp

theorem not_insideCharacter (h : LineCut text offset before left right behind) :
    ¬InsideCharacter text offset := by
  rw [← insideCharacter_natCast_iff, h.insideCharacter_eq]
  exact Bool.false_ne_true

theorem rowOf_eq (h : LineCut text offset before left right behind) :
    rowOf (encode text) offset = before.count '\n' := by
  rw [rowOf, h.take_encode, List.count_append, count_bytesOf, count_bytesOf,
    List.count_eq_zero_of_not_mem h.left_free, Nat.add_zero]

/-- From the start of its line up to the offset stands the left part of the line. -/
theorem slice_lineStart (h : LineCut text offset before left right behind) :
    slice (encode text) (lineStart (encode text) offset) offset = bytesOf left := by
  have hended : Ended lineFeed (bytesOf before) := by
    rcases h.before_ended with rfl | ⟨earlier, rfl⟩
    · exact .inl rfl
    · exact .inr ⟨bytesOf earlier, by rw [bytesOf_append]; rfl⟩
  have hfree : lineFeed ∉ bytesOf left := by
    rw [← List.count_eq_zero, count_bytesOf, List.count_eq_zero]
    exact h.left_free
  rw [slice, lineStart_of_take_eq h.take_encode hended hfree, h.take_encode, List.drop_left]

/-- The lines before and behind stay as they are, whatever comes between them. -/
theorem exists_pieces (h : LineCut text offset before left right behind) :
    ∃ above below : List (List Char), above.length = rowOf (encode text) offset ∧
      ∀ middle,
        pieces '\n' (before ++ middle ++ behind) = above ++ pieces '\n' middle ++ below := by
  obtain ⟨above, hlength, habove⟩ := h.before_ended.exists_pieces_append
  obtain ⟨below, hbelow⟩ := exists_pieces_append_begun h.behind_begun
  refine ⟨above, below, hlength.trans h.rowOf_eq.symm, fun middle => ?_⟩
  rw [hbelow, habove]

theorem pieces_line (h : LineCut text offset before left right behind) :
    pieces '\n' (left ++ right) = [left ++ right] :=
  pieces_eq_singleton (by simp [h.left_free, h.right_free])

/-- Only the line of the offset changes if something else comes in its place. -/
theorem pieces_eq (h : LineCut text offset before left right behind) (middle : List Char) :
    pieces '\n' (before ++ middle ++ behind) =
      (pieces '\n' text.toList).take (rowOf (encode text) offset) ++ pieces '\n' middle ++
        (pieces '\n' text.toList).drop (rowOf (encode text) offset + 1) := by
  obtain ⟨above, below, hlength, hpieces⟩ := h.exists_pieces
  rw [hpieces, h.text_eq, hpieces, h.pieces_line, ← hlength]
  simp

/-- From the row of the offset on come its line and the lines behind. -/
theorem drop_pieces (h : LineCut text offset before left right behind) :
    (pieces '\n' text.toList).drop (rowOf (encode text) offset) =
      (left ++ right) :: (pieces '\n' text.toList).drop (rowOf (encode text) offset + 1) := by
  obtain ⟨above, below, hlength, hpieces⟩ := h.exists_pieces
  rw [h.text_eq, hpieces, h.pieces_line, ← hlength]
  simp

/-- The line of the offset. -/
theorem getElem?_pieces (h : LineCut text offset before left right behind) :
    (pieces '\n' text.toList)[rowOf (encode text) offset]? = some (left ++ right) := by
  rw [← List.head?_drop, h.drop_pieces, List.head?_cons]

/-- There is one way only to cut a text at an offset. -/
theorem unique {before' left' right' behind' : List Char}
    (h : LineCut text offset before left right behind)
    (h' : LineCut text offset before' left' right' behind') :
    before = before' ∧ left = left' ∧ right = right' ∧ behind = behind' := by
  have hleft : left = left' :=
    bytesOf_injective (h.slice_lineStart.symm.trans h'.slice_lineStart)
  subst hleft
  have hfront : bytesOf before ++ bytesOf left = bytesOf before' ++ bytesOf left :=
    h.take_encode.symm.trans h'.take_encode
  have hbefore : before = before' := bytesOf_injective (List.append_cancel_right hfront)
  have hline : left ++ right = left ++ right' :=
    Option.some.inj (h.getElem?_pieces.symm.trans h'.getElem?_pieces)
  have hright : right = right' := List.append_cancel_left hline
  subst hbefore hright
  exact ⟨rfl, rfl, rfl, List.append_cancel_left (h.text_eq.symm.trans h'.text_eq)⟩

end LineCut

end Arborist.Text
