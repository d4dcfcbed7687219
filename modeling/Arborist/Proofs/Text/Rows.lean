import Arborist.Proofs.Text.Utf8
import Arborist.Text.Lines

/-!
# Rows and lines

Where a line of a source starts is found by looking back from an offset for a line feed, and where
the next one starts by looking ahead. The row of an offset is a number: how many line feeds stand
before it. The first half of this module turns questions about the two ends of a line into questions
about rows (`lineStart_le_iff`, `lt_nextLineStart_iff`), so that nobody else has to look for line
feeds.

The second half is about the lines of a text as a list. What is left of a source if only the bytes
on some rows stay is what is left of that list, joined again (`map_fst_filter_row`,
`pickedWithEnds_eq`). Characters and bytes have the same lines (`pieces_bytesOf`).
-/

namespace Arborist.Text

/-! ## The first piece and the last one -/

section Ends

variable {α : Type} [DecidableEq α]

/-- The first piece is what stands before the first separator. -/
theorem exists_firstPiece (separator : α) (xs : List α) :
    ∃ piece rest, xs.takeWhile (· != separator) = piece ∧ xs = piece ++ rest ∧
      separator ∉ piece ∧ (rest = [] ∨ ∃ later, rest = separator :: later) := by
  induction xs with
  | nil => exact ⟨[], [], rfl, rfl, List.not_mem_nil, .inl rfl⟩
  | cons x xs ih =>
      by_cases hx : x = separator
      · subst hx
        exact ⟨[], x :: xs, by simp, rfl, List.not_mem_nil, .inr ⟨xs, rfl⟩⟩
      · obtain ⟨piece, rest, htake, hsplit, hfree, hrest⟩ := ih
        refine ⟨x :: piece, rest, ?_, congrArg (x :: ·) hsplit, ?_, hrest⟩
        · rw [List.takeWhile_cons_of_pos (by simpa using hx), htake]
        · simp [hfree, Ne.symm hx]

/-- The last piece is what stands behind the last separator. -/
theorem exists_lastPiece (separator : α) (xs : List α) :
    ∃ before piece, xs.reverse.takeWhile (· != separator) = piece.reverse ∧ xs = before ++ piece ∧
      separator ∉ piece ∧ (before = [] ∨ ∃ earlier, before = earlier ++ [separator]) := by
  obtain ⟨piece, rest, htake, hsplit, hfree, hrest⟩ := exists_firstPiece separator xs.reverse
  refine ⟨rest.reverse, piece.reverse, ?_, ?_, by simpa using hfree, ?_⟩
  · rw [htake, List.reverse_reverse]
  · rw [← List.reverse_append, ← hsplit, List.reverse_reverse]
  · rcases hrest with rfl | ⟨later, rfl⟩
    · exact .inl rfl
    · exact .inr ⟨later.reverse, List.reverse_cons⟩

end Ends

/-! ## The two ends of a line -/

section Rows

variable {bytes : Bytes} {offset start stop : Nat}

theorem rowOf_mono (h : start ≤ stop) : rowOf bytes start ≤ rowOf bytes stop := by
  have hprefix : bytes.take start <+: bytes.take stop := List.take_prefix_take_left h
  exact hprefix.sublist.count_le lineFeed

/-- The row at the end of the first part of a source is the number of line feeds in that part. -/
theorem rowOf_of_eq_append {before after : Bytes} (h : bytes = before ++ after) :
    rowOf bytes before.length = before.count lineFeed := by
  rw [rowOf, h, List.take_left]

/-- Before an offset stands what comes before its line, then the line up to the offset. What comes
before the line is nothing, or ends in a line feed. -/
theorem exists_lineStart (bytes : Bytes) (offset : Nat) :
    ∃ before line, bytes.take offset = before ++ line ∧ before.length = lineStart bytes offset ∧
      lineFeed ∉ line ∧ (before = [] ∨ ∃ earlier, before = earlier ++ [lineFeed]) := by
  obtain ⟨before, line, hline, hsplit, hfree, hbefore⟩ :=
    exists_lastPiece lineFeed (bytes.take offset)
  refine ⟨before, line, hsplit, ?_, hfree, hbefore⟩
  rw [lineStart, hline, hsplit]
  simp

/-- Behind an offset comes the rest of its line, up to a line feed or to the end of the source. -/
theorem nextLineStart_cases (bytes : Bytes) (offset : Nat) :
    (lineFeed ∉ bytes.drop offset ∧ nextLineStart bytes offset = bytes.length) ∨
      ∃ line rest, bytes.drop offset = line ++ lineFeed :: rest ∧ lineFeed ∉ line ∧
        nextLineStart bytes offset = offset + line.length + 1 := by
  obtain ⟨line, rest, hline, hsplit, hfree, hrest⟩ := exists_firstPiece lineFeed (bytes.drop offset)
  unfold nextLineStart
  dsimp only
  rw [hline]
  rcases hrest with rfl | ⟨later, rfl⟩
  · rw [List.append_nil] at hsplit
    left
    exact ⟨hsplit ▸ hfree, by simp [hsplit]⟩
  · right
    exact ⟨line, later, hsplit, hfree, by simp [hsplit]⟩

theorem lineStart_le (bytes : Bytes) (offset : Nat) :
    lineStart bytes offset ≤ offset ∧ lineStart bytes offset ≤ bytes.length := by
  obtain ⟨before, line, hsplit, hlength, -⟩ := exists_lineStart bytes offset
  have htake := congrArg List.length hsplit
  rw [List.length_take, List.length_append] at htake
  omega

/-- The start of a line is on the row of every offset of the line. -/
theorem rowOf_lineStart (bytes : Bytes) (offset : Nat) :
    rowOf bytes (lineStart bytes offset) = rowOf bytes offset := by
  obtain ⟨before, line, hsplit, hlength, hfree, -⟩ := exists_lineStart bytes offset
  have hbytes : bytes = before ++ (line ++ bytes.drop offset) := by
    rw [← List.append_assoc, ← hsplit, List.take_append_drop]
  rw [← hlength, rowOf_of_eq_append hbytes, rowOf, hsplit, List.count_append,
    List.count_eq_zero_of_not_mem hfree, Nat.add_zero]

/-- A line starts at or before an offset exactly if its row is not behind that of the offset. -/
theorem lineStart_le_iff :
    lineStart bytes start ≤ offset ↔ rowOf bytes start ≤ rowOf bytes offset := by
  constructor
  · intro h
    rw [← rowOf_lineStart]
    exact rowOf_mono h
  · intro h
    refine Nat.le_of_not_lt fun hlt => ?_
    obtain ⟨before, line, hsplit, hlength, hfree, rfl | ⟨earlier, rfl⟩⟩ :=
      exists_lineStart bytes start
    · rw [List.length_nil] at hlength
      omega
    · -- The line feed before the line is counted for the line and not for the offset.
      rw [List.length_append, List.length_singleton] at hlength
      have hbytes : bytes = earlier ++ (lineFeed :: line ++ bytes.drop start) := by
        have hwhole := List.take_append_drop start bytes
        rw [hsplit] at hwhole
        simpa using hwhole.symm
      have hend := rowOf_of_eq_append hbytes
      have hrow : rowOf bytes start = earlier.count lineFeed + 1 := by
        rw [rowOf, hsplit, List.count_append, List.count_append,
          List.count_eq_zero_of_not_mem hfree, List.count_singleton_self]
      have hbefore : rowOf bytes offset ≤ rowOf bytes earlier.length := rowOf_mono (by omega)
      omega

/-- The next line starts behind an offset exactly if the row of the offset is not behind. -/
theorem lt_nextLineStart_iff (hoffset : offset < bytes.length) :
    offset < nextLineStart bytes stop ↔ rowOf bytes offset ≤ rowOf bytes stop := by
  rcases nextLineStart_cases bytes stop with ⟨hfree, hnext⟩ | ⟨line, rest, hsplit, hfree, hnext⟩
  · rw [hnext]
    refine iff_of_true hoffset ?_
    -- There are no line feeds behind `stop`, so its row is the last one.
    calc rowOf bytes offset
      _ ≤ bytes.count lineFeed := (List.take_sublist offset bytes).count_le lineFeed
      _ = rowOf bytes stop + (bytes.drop stop).count lineFeed := by
        rw [rowOf, ← List.count_append, List.take_append_drop]
      _ = rowOf bytes stop := by rw [List.count_eq_zero_of_not_mem hfree, Nat.add_zero]
  · have hbytes : bytes = (bytes.take stop ++ line) ++ lineFeed :: rest := by
      rw [List.append_assoc, ← hsplit, List.take_append_drop]
    have hstop : (bytes.take stop ++ line).length = stop + line.length := by
      have hlength := congrArg List.length hsplit
      rw [List.length_drop, List.length_append, List.length_cons] at hlength
      rw [List.length_append, List.length_take]
      omega
    have hcount : (bytes.take stop ++ line).count lineFeed = rowOf bytes stop := by
      rw [List.count_append, List.count_eq_zero_of_not_mem hfree, Nat.add_zero, rowOf]
    have hlast : rowOf bytes (stop + line.length) = rowOf bytes stop := by
      rw [← hstop, rowOf_of_eq_append hbytes, hcount]
    have hlater : rowOf bytes (stop + line.length + 1) = rowOf bytes stop + 1 := by
      rw [List.append_cons] at hbytes
      have hrow := rowOf_of_eq_append hbytes
      rwa [List.length_append, hstop, List.count_append, hcount, List.count_singleton_self] at hrow
    rw [hnext]
    constructor
    · intro h
      rw [← hlast]
      exact rowOf_mono (by omega)
    · intro h
      refine Nat.lt_of_not_le fun hle => ?_
      have hbehind : rowOf bytes (stop + line.length + 1) ≤ rowOf bytes offset := rowOf_mono hle
      omega

theorem le_nextLineStart (h : offset ≤ bytes.length) :
    offset ≤ nextLineStart bytes offset ∧ nextLineStart bytes offset ≤ bytes.length := by
  rcases nextLineStart_cases bytes offset with ⟨-, hnext⟩ | ⟨line, rest, hsplit, -, hnext⟩
  · rw [hnext]
    exact ⟨h, Nat.le_refl _⟩
  · have hlength := congrArg List.length hsplit
    rw [List.length_drop, List.length_append, List.length_cons] at hlength
    omega

end Rows

/-! ## Lines as a list -/

section Pieces

variable {α : Type} {separator : α} {xs : List α}

theorem pieces_cons_separator [DecidableEq α] :
    pieces separator (separator :: xs) = [] :: pieces separator xs := by
  simp [pieces]

/-- There is always a first piece, and an element that does not separate joins it. -/
theorem exists_pieces_cons [DecidableEq α] (separator : α) (xs : List α) :
    ∃ piece rest, pieces separator xs = piece :: rest ∧
      ∀ x, x ≠ separator → pieces separator (x :: xs) = (x :: piece) :: rest := by
  have hcons : ∃ piece rest, pieces separator xs = piece :: rest := by
    cases xs with
    | nil => exact ⟨[], [], rfl⟩
    | cons y ys =>
        unfold pieces
        split
        · exact ⟨_, _, rfl⟩
        · split <;> exact ⟨_, _, rfl⟩
  obtain ⟨piece, rest, hpieces⟩ := hcons
  refine ⟨piece, rest, hpieces, fun x hx => ?_⟩
  rw [pieces, if_neg (by simpa using hx), hpieces]

/-- Elements that do not separate all join the first piece. -/
theorem exists_pieces_append [DecidableEq α] (h : separator ∉ xs) (ys : List α) :
    ∃ piece rest, pieces separator ys = piece :: rest ∧
      pieces separator (xs ++ ys) = (xs ++ piece) :: rest := by
  induction xs with
  | nil =>
      obtain ⟨piece, rest, hpieces, -⟩ := exists_pieces_cons separator ys
      exact ⟨piece, rest, hpieces, hpieces⟩
  | cons x xs ih =>
      rw [List.mem_cons, not_or] at h
      obtain ⟨piece, rest, hys, hxs⟩ := ih h.2
      obtain ⟨first, later, hpieces, hjoin⟩ := exists_pieces_cons separator (xs ++ ys)
      obtain ⟨rfl, rfl⟩ := List.cons.inj (hpieces.symm.trans hxs)
      exact ⟨piece, later, hys, hjoin x (Ne.symm h.1)⟩

/-- The pieces whose numbers, counted from a first one on, satisfy a predicate. -/
def picked (keep : Nat → Bool) (first : Nat) (lines : List (List α)) : List (List α) :=
  ((lines.zipIdx first).filter fun line => keep line.2).map Prod.fst

/-- The same pieces one after the other, each with the separator that ends it. The last piece of all
has none. -/
def pickedWithEnds (separator : α) (keep : Nat → Bool) (first : Nat) : List (List α) → List α
  | [] => []
  | [last] => if keep first then last else []
  | line :: rest =>
    (if keep first then line ++ [separator] else []) ++
      pickedWithEnds separator keep (first + 1) rest

theorem picked_cons (keep : Nat → Bool) (first : Nat) (line : List α) (rest : List (List α)) :
    picked keep first (line :: rest) =
      if keep first then line :: picked keep (first + 1) rest
      else picked keep (first + 1) rest := by
  unfold picked
  rw [List.zipIdx_cons, List.filter_cons]
  dsimp only
  split <;> rfl

theorem pickedWithEnds_singleton (separator : α) (keep : Nat → Bool) (first : Nat)
    (last : List α) :
    pickedWithEnds separator keep first [last] = if keep first then last else [] := rfl

theorem pickedWithEnds_cons_cons (separator : α) (keep : Nat → Bool) (first : Nat)
    (line next : List α) (rest : List (List α)) :
    pickedWithEnds separator keep first (line :: next :: rest) =
      (if keep first then line ++ [separator] else []) ++
        pickedWithEnds separator keep (first + 1) (next :: rest) := rfl

/-- If nothing is picked, the last piece is not. -/
theorem not_keep_of_picked_eq_nil {keep : Nat → Bool} {first : Nat} {line : List α}
    {rest : List (List α)} (h : picked keep first (line :: rest) = []) :
    keep (first + rest.length) = false := by
  induction rest generalizing first line with
  | nil =>
      cases hkeep : keep first with
      | true => simp [picked_cons, hkeep] at h
      | false => rfl
  | cons next rest ih =>
      cases hkeep : keep first with
      | true => simp [picked_cons, hkeep] at h
      | false =>
          rw [picked_cons, hkeep] at h
          have hlast := ih h
          rwa [Nat.add_assoc, Nat.add_comm 1] at hlast

/-- Picked pieces with their ends are the picked pieces joined, with one more separator at the end
if the last piece of all is not among them. -/
theorem pickedWithEnds_eq (separator : α) (keep : Nat → Bool) (first : Nat) (line : List α)
    (rest : List (List α)) :
    pickedWithEnds separator keep first (line :: rest) =
      joinPieces [separator] (picked keep first (line :: rest)) ++
        if keep (first + rest.length) = false ∧ picked keep first (line :: rest) ≠ [] then
          [separator]
        else [] := by
  induction rest generalizing first line with
  | nil =>
      rw [pickedWithEnds_singleton, picked_cons]
      cases hkeep : keep first <;> simp [picked, joinPieces]
  | cons next rest ih =>
      have hnumber : first + (next :: rest).length = first + 1 + rest.length := by
        simp only [List.length_cons]
        omega
      rw [pickedWithEnds_cons_cons, ih, picked_cons keep first line, hnumber]
      cases hkeep : keep first with
      | false => simp
      | true =>
          by_cases hnone : picked keep (first + 1) (next :: rest) = []
          · have hlast := not_keep_of_picked_eq_nil hnone
            simp [hnone, hlast, joinPieces]
          · obtain ⟨second, others, hpicked⟩ := List.exists_cons_of_ne_nil hnone
            simp [hpicked, joinPieces]

/-- Picking lines goes through their elements one by one, and counts the separators. -/
theorem pickedWithEnds_pieces_cons [DecidableEq α] (separator : α) (keep : Nat → Bool)
    (first : Nat) (x : α) (xs : List α) :
    pickedWithEnds separator keep first (pieces separator (x :: xs)) =
      (if keep first then [x] else []) ++
        pickedWithEnds separator keep (if x = separator then first + 1 else first)
          (pieces separator xs) := by
  obtain ⟨line, rest, hpieces, hcons⟩ := exists_pieces_cons separator xs
  by_cases hx : x = separator
  · subst hx
    rw [pieces_cons_separator, hpieces, pickedWithEnds_cons_cons, List.nil_append, if_pos rfl]
  · rw [hcons x hx, hpieces, if_neg hx]
    cases rest with
    | nil =>
        rw [pickedWithEnds_singleton, pickedWithEnds_singleton]
        split <;> rfl
    | cons next rest =>
        rw [pickedWithEnds_cons_cons, pickedWithEnds_cons_cons]
        split <;> rfl

end Pieces

/-! ## Lines of bytes -/

section Bytes

theorem utf8EncodeChar_lineFeed : String.utf8EncodeChar '\n' = [lineFeed] := by
  decide

/-- A byte that is a character by itself occurs in no other character. -/
theorem eq_of_mem_utf8EncodeChar {c d : Char} {byte : UInt8}
    (hd : String.utf8EncodeChar d = [byte]) (hascii : byte.toNat < 0x80)
    (h : byte ∈ String.utf8EncodeChar c) : c = d := by
  obtain ⟨lead, tail, hc, -, htail⟩ := utf8EncodeChar_eq_lead_cons c
  rw [hc, List.mem_cons] at h
  rcases h with rfl | h
  · rw [eq_nil_of_utf8EncodeChar_eq_cons hc hascii, ← hd] at hc
    have hbytes : bytesOf [c] = bytesOf [d] := by simp [hc]
    exact List.singleton_inj.mp (bytesOf_injective hbytes)
  · have hcontinues := isContinuation_iff.mp (htail byte h)
    omega

/-- No other character is written with the byte of the line feed. -/
theorem lineFeed_notMem_utf8EncodeChar {c : Char} (h : c ≠ '\n') :
    lineFeed ∉ String.utf8EncodeChar c :=
  fun hmem => h (eq_of_mem_utf8EncodeChar utf8EncodeChar_lineFeed (by decide) hmem)

/-- The lines of a text are those of its bytes. -/
theorem pieces_bytesOf (cs : List Char) :
    pieces lineFeed (bytesOf cs) = (pieces '\n' cs).map bytesOf := by
  induction cs with
  | nil => rfl
  | cons c cs ih =>
      by_cases hc : c = '\n'
      · subst hc
        rw [bytesOf_cons, utf8EncodeChar_lineFeed, List.singleton_append, pieces_cons_separator,
          pieces_cons_separator, ih]
        rfl
      · obtain ⟨first, later, hbytes, hjoined⟩ :=
          exists_pieces_append (lineFeed_notMem_utf8EncodeChar hc) (bytesOf cs)
        obtain ⟨line, rest, hlines, hcons⟩ := exists_pieces_cons '\n' cs
        rw [hbytes, hlines, List.map_cons] at ih
        obtain ⟨rfl, rfl⟩ := List.cons.inj ih
        rw [bytesOf_cons, hjoined, hcons c hc]
        rfl

theorem bytesOf_pickedWithEnds (keep : Nat → Bool) (first : Nat) (lines : List (List Char)) :
    bytesOf (pickedWithEnds '\n' keep first lines) =
      pickedWithEnds lineFeed keep first (lines.map bytesOf) := by
  induction lines generalizing first with
  | nil => rfl
  | cons line rest ih =>
      cases rest with
      | nil =>
          rw [List.map_singleton, pickedWithEnds_singleton, pickedWithEnds_singleton]
          split <;> rfl
      | cons next rest =>
          have hend : bytesOf (line ++ ['\n']) = bytesOf line ++ [lineFeed] := by
            rw [bytesOf_append]
            rfl
          simp only [List.map_cons] at ih ⊢
          rw [pickedWithEnds_cons_cons, bytesOf_append, ih, pickedWithEnds_cons_cons]
          split
          · rw [hend]
          · rfl

theorem rowOf_cons_succ (b : UInt8) (bytes : Bytes) (offset : Nat) :
    rowOf (b :: bytes) (offset + 1) = rowOf bytes offset + if b = lineFeed then 1 else 0 := by
  rw [rowOf, List.take_succ_cons, List.count_cons, rowOf]
  simp

/-- The bytes on the rows that satisfy a predicate are the lines of these rows with their ends. -/
theorem map_fst_filter_row (keep : Nat → Bool) (first offset : Nat) (bytes : Bytes) :
    (((bytes.zipIdx offset).filter fun byte =>
        keep (first + rowOf bytes (byte.2 - offset))).map Prod.fst) =
      pickedWithEnds lineFeed keep first (pieces lineFeed bytes) := by
  induction bytes generalizing first offset with
  | nil => simp [pieces, pickedWithEnds]
  | cons b bytes ih =>
      have htail : (bytes.zipIdx (offset + 1)).filter (fun byte =>
            keep (first + rowOf (b :: bytes) (byte.2 - offset))) =
          (bytes.zipIdx (offset + 1)).filter (fun byte =>
            keep ((if b = lineFeed then first + 1 else first) +
              rowOf bytes (byte.2 - (offset + 1)))) := by
        refine List.filter_congr fun byte hbyte => ?_
        have hbounds := List.mem_zipIdx hbyte
        obtain ⟨further, hfurther⟩ : ∃ further, byte.2 = offset + 1 + further :=
          ⟨byte.2 - (offset + 1), by omega⟩
        have hstep : byte.2 - offset = further + 1 := by omega
        rw [hstep, rowOf_cons_succ, hfurther, Nat.add_sub_cancel_left]
        congr 1
        split <;> omega
      rw [pickedWithEnds_pieces_cons, ← ih _ (offset + 1), List.zipIdx_cons, List.filter_cons,
        htail]
      dsimp only
      rw [Nat.sub_self]
      change List.map Prod.fst (if keep first then _ else _) = _
      split <;> rfl

end Bytes

end Arborist.Text
