import Arborist.Proofs.Selector.Grammar
import Mathlib.Data.List.TakeWhile

/-!
# Cursors, quoted text and arguments

The lexical layer of reading patterns. A reader turns a cursor into a later one; `Cursor.Reads` says
which characters lie between the two, and composes (`Reads.trans`, `Reads.split`), so that what a
reader consumed can be matched piece by piece with a derivation of the grammar.

Two scanners are written independently of each other and of the grammar. `quotedBody` decodes quoted
values, `argument` only passes over quoted text while it looks for the closing parenthesis. Both are
shown to follow `QuotedText`, in both directions:

* `quotedText_of_quotedBody`, `quotedBody_of_quotedText`;
* `balanced_of_argument`, `argument_of_balanced`.
-/

namespace Arborist

open Text Selector.Grammar

/-! ## Characters between two cursors -/

/-- `cursor.Reads cs after`: from `cursor` to `after` the characters `cs` are passed over. -/
structure Cursor.Reads (cursor : Cursor) (cs : List Char) (after : Cursor) : Prop where
  rest : cursor.rest = cs ++ after.rest
  position : after.position = cursor.position + cs.length

namespace Cursor.Reads

variable {cursor middle after : Cursor} {cs ds : List Char}

theorem refl (cursor : Cursor) : cursor.Reads [] cursor := ⟨rfl, rfl⟩

theorem trans (h : cursor.Reads cs middle) (h' : middle.Reads ds after) :
    cursor.Reads (cs ++ ds) after := by
  refine ⟨?_, ?_⟩
  · rw [h.rest, h'.rest, List.append_assoc]
  · rw [h'.position, h.position, List.length_append]
    omega

/-- Between two cursors there is one for every division of the characters. -/
theorem split (h : cursor.Reads (cs ++ ds) after) :
    ∃ middle, cursor.Reads cs middle ∧ middle.Reads ds after := by
  refine ⟨⟨ds ++ after.rest, cursor.position + cs.length⟩, ⟨?_, rfl⟩, ⟨rfl, ?_⟩⟩
  · rw [h.rest, List.append_assoc]
  · change after.position = cursor.position + cs.length + ds.length
    rw [h.position, List.length_append]
    omega

theorem length_le (h : cursor.Reads cs after) : cs.length ≤ cursor.rest.length := by
  rw [h.rest, List.length_append]
  exact Nat.le_add_right _ _

/-- The characters determine where reading ends. -/
theorem unique {other : Cursor} (h : cursor.Reads cs after) (h' : cursor.Reads cs other) :
    after = other := by
  have hrest : after.rest = other.rest := List.append_cancel_left (h.rest.symm.trans h'.rest)
  have hposition : after.position = other.position := h.position.trans h'.position.symm
  cases after
  cases other
  simp_all

end Cursor.Reads

theorem stops_dropWhile (p : Char → Bool) (cs : List Char) : Stops p (cs.dropWhile p) := by
  intro c hc
  have h := List.head?_dropWhile_not p cs
  rw [Option.mem_def.mp hc] at h
  simpa using h

/-- A run of characters is taken to its end. -/
theorem takeWhile_append_of_stops {p : Char → Bool} {cs ds : List Char}
    (hcs : ∀ c ∈ cs, p c = true) (hds : Stops p ds) : (cs ++ ds).takeWhile p = cs := by
  rw [List.takeWhile_append_of_pos hcs]
  cases ds with
  | nil => simp
  | cons d ds => rw [List.takeWhile_cons_of_neg (by simp [hds d rfl]), List.append_nil]

namespace Cursor

variable {cursor after : Cursor} {cs : List Char} {p : Char → Bool}

/-- Passing over a run reads it. -/
theorem reads_passWhile (cursor : Cursor) (p : Char → Bool) :
    cursor.Reads (cursor.rest.takeWhile p) (cursor.passWhile p) :=
  ⟨List.takeWhile_append_dropWhile.symm, rfl⟩

/-- Advancing by the length of what comes next reads it. -/
theorem reads_advance (h : cs <+: cursor.rest) : cursor.Reads cs (cursor.advance cs.length) := by
  obtain ⟨ds, hds⟩ := h
  refine ⟨?_, rfl⟩
  change cursor.rest = cs ++ cursor.rest.drop cs.length
  rw [← hds, List.drop_left]

theorem Reads.advance_eq (h : cursor.Reads cs after) : cursor.advance cs.length = after :=
  (reads_advance (h.rest ▸ List.prefix_append cs after.rest)).unique h

/-- A run that cannot be continued is what is passed over. -/
theorem Reads.takeWhile_eq (h : cursor.Reads cs after) (hcs : ∀ c ∈ cs, p c = true)
    (hstops : Stops p after.rest) : cursor.rest.takeWhile p = cs := by
  rw [h.rest, takeWhile_append_of_stops hcs hstops]

theorem Reads.passWhile_eq (h : cursor.Reads cs after) (hcs : ∀ c ∈ cs, p c = true)
    (hstops : Stops p after.rest) : cursor.passWhile p = after := by
  have hread := cursor.reads_passWhile p
  rw [h.takeWhile_eq hcs hstops] at hread
  exact hread.unique h

/-- Blanks that cannot be continued are skipped. -/
theorem Reads.skipBlanks_eq (h : cursor.Reads cs after) (hcs : Selector.Grammar.Blanks cs)
    (hstops : Stops isBlank after.rest) : cursor.skipBlanks = after :=
  h.passWhile_eq hcs hstops

/-- Only blanks are skipped. -/
theorem exists_reads_skipBlanks (cursor : Cursor) :
    ∃ cs, Selector.Grammar.Blanks cs ∧ cursor.Reads cs cursor.skipBlanks :=
  ⟨_, fun _ hc => List.mem_takeWhile_imp hc, cursor.reads_passWhile isBlank⟩

/-- After blanks are skipped, there are no more of them. -/
theorem stops_skipBlanks (cursor : Cursor) : Stops isBlank cursor.skipBlanks.rest :=
  stops_dropWhile isBlank cursor.rest

theorem skipBlanks_skipBlanks (cursor : Cursor) :
    cursor.skipBlanks.skipBlanks = cursor.skipBlanks :=
  (Reads.refl cursor.skipBlanks).skipBlanks_eq Blanks.nil cursor.stops_skipBlanks

end Cursor

namespace Selector

open Grammar

/-- A required character is read exactly if it is next. -/
theorem expect_eq_ok_iff {pattern : String} {wanted : Char} {cursor after : Cursor} :
    expect pattern wanted cursor = .ok after ↔ cursor.Reads [wanted] after := by
  obtain ⟨rest, position⟩ := cursor
  obtain ⟨rest', position'⟩ := after
  unfold expect Cursor.advance
  cases rest with
  | nil =>
      refine iff_of_false (by simp) fun h => ?_
      exact absurd h.rest (by simp)
  | cons c cs =>
      by_cases hc : c = wanted
      · subst hc
        simp only [List.head?_cons, beq_self_eq_true, if_true, List.drop_succ_cons, List.drop_zero,
          Except.ok.injEq, Cursor.mk.injEq]
        constructor
        · rintro ⟨rfl, rfl⟩
          exact ⟨rfl, rfl⟩
        · intro h
          exact ⟨(List.cons.inj h.rest).2, h.position.symm⟩
      · refine iff_of_false (by simp [hc]) fun h => ?_
        exact hc (List.cons.inj h.rest).1

/-- A name that cannot be continued is read as it is. -/
theorem readName_eq {cursor after : Cursor} {name : String} (h : cursor.Reads name.toList after)
    (hname : ∀ c ∈ name.toList, isNameChar c = true) (hstops : Stops isNameChar after.rest) :
    readName cursor = (name, after) := by
  unfold readName
  rw [h.takeWhile_eq hname hstops, h.passWhile_eq hname hstops, String.ofList_toList]

/-- What is read as a name are characters of names. -/
theorem reads_readName (cursor : Cursor) :
    cursor.Reads (readName cursor).1.toList (readName cursor).2 ∧
      ∀ c ∈ (readName cursor).1.toList, isNameChar c = true := by
  unfold readName
  rw [String.toList_ofList]
  exact ⟨cursor.reads_passWhile isNameChar, fun _ hc => List.mem_takeWhile_imp hc⟩

/-! ## Quoted text -/

/-- A backslash and the character after it can be put before quoted text. -/
theorem Grammar.QuotedText.exists_pair {quote : Char} {written value : List Char}
    (h : QuotedText quote written value) (c : Char) :
    ∃ value', QuotedText quote (['\\', c] ++ written) value' := by
  by_cases hc : c = quote
  · subst hc
    exact ⟨_, .escapedQuote h⟩
  · exact ⟨_, .pair hc h⟩

/-- What lies between two quotes is decoded, whatever follows the second one. -/
theorem quotedBody_of_quotedText {quote : Char} {written value : List Char}
    (hquote : IsQuote quote) (h : QuotedText quote written value) (rest : List Char) :
    quotedBody quote (written ++ quote :: rest) = (value, quote :: rest) := by
  induction h with
  | nil =>
      rw [List.nil_append, quotedBody]
      · simp
      · intro c cs hbackslash
        exact absurd hbackslash hquote.ne_backslash
  | escapedQuote _ ih =>
      rw [List.cons_append, List.cons_append, quotedBody, ih]
      simp
  | pair hc _ ih =>
      rw [List.cons_append, List.cons_append, quotedBody, ih]
      simp [hc]
  | plain hc hbackslash _ ih =>
      rw [List.cons_append, quotedBody, ih]
      · simp [hc]
      · intro d ds h
        exact absurd h hbackslash

/-- If decoding stops at the closing quote, what it passed over is quoted text. -/
theorem quotedText_of_quotedBody {quote : Char} {cs rest : List Char} (hquote : IsQuote quote)
    (h : (quotedBody quote cs).2 = quote :: rest) :
    ∃ written, cs = written ++ quote :: rest ∧
      QuotedText quote written (quotedBody quote cs).1 := by
  fun_induction quotedBody quote cs with
  | case1 => cases h
  | case2 c cs body rest' hbody ih =>
      rw [hbody] at ih
      obtain ⟨written, rfl, hwritten⟩ := ih h
      refine ⟨'\\' :: c :: written, rfl, ?_⟩
      split
      · next hc =>
        obtain rfl := eq_of_beq hc
        exact .escapedQuote hwritten
      · next hc => exact .pair (by simpa using hc) hwritten
  | case3 c cs hpair hc =>
      obtain rfl := eq_of_beq hc
      obtain ⟨-, rfl⟩ := List.cons.inj h
      exact ⟨[], rfl, .nil⟩
  | case4 c cs hpair hc body rest' hbody ih =>
      rw [hbody] at ih
      obtain ⟨written, hcs, hwritten⟩ := ih h
      refine ⟨c :: written, by rw [hcs, List.cons_append], .plain (by simpa using hc) ?_ hwritten⟩
      -- A backslash would have been read together with what follows it.
      rintro rfl
      cases written with
      | nil => exact hpair _ _ rfl (by rw [hcs]; rfl)
      | cons d ds => exact hpair _ _ rfl (by rw [hcs]; rfl)

/-! ## Arguments -/

/-- Put characters before an argument. -/
def Argument.prepend (cs : List Char) (found : Argument) : Argument :=
  ⟨cs ++ found.text, found.rest, cs.length + found.width⟩

theorem Argument.prepend_nil (found : Argument) : found.prepend [] = found := by
  simp [Argument.prepend]

theorem Argument.cons_prepend (c : Char) (cs : List Char) (found : Argument) :
    (found.prepend cs).cons c = found.prepend (c :: cs) := by
  simp only [Argument.prepend, Argument.cons, List.cons_append, List.length_cons,
    Argument.mk.injEq, true_and]
  omega

theorem Argument.prepend_prepend (cs ds : List Char) (found : Argument) :
    (found.prepend ds).prepend cs = found.prepend (cs ++ ds) := by
  simp only [Argument.prepend, List.append_assoc, List.length_append, Argument.mk.injEq, true_and]
  omega

section Argument

variable {depth : Nat} {quote c d : Char} {cs : List Char}

/-- Inside quotes a backslash goes with the character after it. -/
theorem argument_pair :
    argument depth (some quote) ('\\' :: d :: cs)
      = ((argument depth (some quote) cs).cons d).cons '\\' := rfl

/-- Inside quotes any other character is passed over alone. -/
theorem argument_inside (h : c ≠ '\\') :
    argument depth (some quote) (c :: cs)
      = (argument depth (if c = quote then none else some quote) cs).cons c := by
  simp only [← beq_iff_eq (a := c) (b := quote)]
  have hother : ¬(c == '\\') = true := by simpa using h
  cases cs with
  | nil => exact if_neg hother
  | cons d cs => exact if_neg hother

/-- Outside quotes a quote opens quoted text. -/
theorem argument_quote (h : IsQuote c) :
    argument depth none (c :: cs) = (argument depth (some c) cs).cons c :=
  if_pos (isQuote_iff.mpr h)

theorem argument_open :
    argument depth none ('(' :: cs) = (argument (depth + 1) none cs).cons '(' := rfl

theorem argument_close :
    argument (depth + 1) none (')' :: cs) = (argument depth none cs).cons ')' := rfl

/-- The parenthesis that closes the argument is not part of it. -/
theorem argument_end : argument 0 none (')' :: cs) = ⟨[], ')' :: cs, 0⟩ := rfl

theorem argument_plain (hopen : c ≠ '(') (hclose : c ≠ ')') (hquote : ¬IsQuote c) :
    argument depth none (c :: cs) = (argument depth none cs).cons c := by
  rw [← isQuote_iff] at hquote
  have hopen' : ¬(c == '(') = true := by simpa using hopen
  have hclose' : ¬(c == ')') = true := by simpa using hclose
  exact (if_neg hquote).trans ((if_neg hopen').trans (if_neg hclose'))

end Argument

/-- Inside quotes quoted text is passed over, whatever follows it. -/
theorem argument_append_of_quotedText {quote : Char} {written value : List Char}
    (h : QuotedText quote written value) (depth : Nat) (rest : List Char) :
    argument depth (some quote) (written ++ rest)
      = (argument depth (some quote) rest).prepend written := by
  induction h with
  | nil => rw [List.nil_append, Argument.prepend_nil]
  | escapedQuote _ ih =>
      simp only [List.cons_append, argument_pair, ih, Argument.cons_prepend]
  | pair _ _ ih =>
      simp only [List.cons_append, argument_pair, ih, Argument.cons_prepend]
  | plain hc hbackslash _ ih =>
      rw [List.cons_append, argument_inside hbackslash, if_neg hc, ih, Argument.cons_prepend]

/-- Inside quotes the scan goes to the closing quote. -/
theorem argument_of_quotedText {quote : Char} {written value : List Char}
    (hquote : IsQuote quote) (h : QuotedText quote written value) (depth : Nat)
    (rest : List Char) :
    argument depth (some quote) (written ++ quote :: rest)
      = (argument depth none rest).prepend (written ++ [quote]) := by
  rw [argument_append_of_quotedText h, argument_inside hquote.ne_backslash, if_pos rfl,
    ← Argument.prepend_prepend, ← Argument.cons_prepend, Argument.prepend_nil]

/-- Balanced characters are passed over at every depth. -/
theorem argument_append_of_balanced {cs : List Char} (h : Balanced cs) (depth : Nat)
    (rest : List Char) :
    argument depth none (cs ++ rest) = (argument depth none rest).prepend cs := by
  induction h generalizing depth rest with
  | nil => rw [List.nil_append, Argument.prepend_nil]
  | plain hopen hclose hquote _ ih =>
      rw [List.cons_append, argument_plain hopen hclose hquote, ih, Argument.cons_prepend]
  | @quoted quote written value cs hquote hwritten _ ih =>
      have happend : quote :: written ++ quote :: cs ++ rest
          = quote :: (written ++ quote :: (cs ++ rest)) := by simp
      rw [happend, argument_quote hquote, argument_of_quotedText hquote hwritten, ih,
        Argument.prepend_prepend, Argument.cons_prepend]
      simp
  | @nested inner cs _ _ ihInner ih =>
      have happend : '(' :: inner ++ ')' :: cs ++ rest
          = '(' :: (inner ++ ')' :: (cs ++ rest)) := by simp
      rw [happend, argument_open, ihInner, argument_close, ih]
      simp only [Argument.cons_prepend, Argument.prepend_prepend, List.cons_append]

/-- Balanced characters before a closing parenthesis are the argument. -/
theorem argument_of_balanced {cs : List Char} (h : Balanced cs) (rest : List Char) :
    argument 0 none (cs ++ ')' :: rest) = ⟨cs, ')' :: rest, cs.length⟩ := by
  rw [argument_append_of_balanced h, argument_end]
  simp [Argument.prepend]

/-- Characters that close a number of open parentheses and are balanced otherwise. -/
inductive Closes : Nat → List Char → Prop
  | done {cs : List Char} : Balanced cs → Closes 0 cs
  | close {depth : Nat} {cs ds : List Char} :
      Balanced cs → Closes depth ds → Closes (depth + 1) (cs ++ ')' :: ds)

/-- What may stand before balanced characters may stand before closing ones. -/
theorem Closes.append {depth : Nat} {cs ds : List Char} (h : Closes depth ds)
    (hcs : ∀ balanced, Balanced balanced → Balanced (cs ++ balanced)) :
    Closes depth (cs ++ ds) := by
  cases h with
  | done hds => exact .done (hcs _ hds)
  | close hds hrest =>
      rw [← List.append_assoc]
      exact .close (hcs _ hds) hrest

/-- An opening parenthesis takes up one that closes. -/
theorem Closes.nested {depth : Nat} {cs : List Char} (h : Closes (depth + 1) cs) :
    Closes depth ('(' :: cs) := by
  cases h with
  | @close _ inner ds hinner hds =>
      have happend : '(' :: (inner ++ ')' :: ds) = '(' :: inner ++ [')'] ++ ds := by simp
      rw [happend]
      refine hds.append fun balanced hbalanced => ?_
      rw [List.append_assoc]
      exact .nested hinner hbalanced

/-- What the scan passes over, given how many parentheses are open and which quote. -/
def Scanned (depth : Nat) : Option Char → List Char → Prop
  | none, cs => Closes depth cs
  | some quote, cs => ∃ written value ds,
      cs = written ++ quote :: ds ∧ QuotedText quote written value ∧ Closes depth ds

/-- What may stand before quoted text may be scanned inside quotes. -/
theorem Scanned.append {depth : Nat} {quote : Char} {cs ds : List Char}
    (h : Scanned depth (some quote) ds)
    (hcs : ∀ written value, QuotedText quote written value →
      ∃ value', QuotedText quote (cs ++ written) value') :
    Scanned depth (some quote) (cs ++ ds) := by
  obtain ⟨written, value, rest, rfl, hwritten, hrest⟩ := h
  obtain ⟨value', hwritten'⟩ := hcs written value hwritten
  exact ⟨cs ++ written, value', rest, (List.append_assoc ..).symm, hwritten', hrest⟩

/-- What was found divides the characters into text and rest, and counts the text right. -/
structure Argument.Divides (found : Argument) (cs : List Char) : Prop where
  append : cs = found.text ++ found.rest
  width : found.width = found.text.length

theorem Argument.Divides.cons {found : Argument} {cs : List Char} (h : found.Divides cs)
    (c : Char) : (found.cons c).Divides (c :: cs) :=
  ⟨congrArg (List.cons c) h.append, congrArg (· + 1) h.width⟩

/-- The text is read from the place where the scan starts. -/
theorem Argument.Divides.reads {found : Argument} {cursor : Cursor}
    (h : found.Divides cursor.rest) :
    cursor.Reads found.text ⟨found.rest, cursor.position + found.width⟩ :=
  ⟨h.append, congrArg (cursor.position + ·) h.width⟩

/-- If the scan stops at a parenthesis, it has passed over the text of the argument, which closes
what was open. -/
theorem scanned_of_argument {depth : Nat} {quote : Option Char} {cs rest : List Char}
    (hquote : ∀ q ∈ quote, IsQuote q) (h : (argument depth quote cs).rest = ')' :: rest) :
    (argument depth quote cs).Divides cs ∧ Scanned depth quote (argument depth quote cs).text := by
  -- The state of the scan is what is open: each character opens, closes or leaves it alone.
  fun_induction argument depth quote cs with
  | case1 => cases h
  | case2 => cases h
  | case3 depth quote c hc d ds ih =>
      obtain rfl := eq_of_beq hc
      obtain ⟨hdivides, hscanned⟩ := ih hquote h
      have hpair := hscanned.append fun _ _ hwritten => hwritten.exists_pair d
      exact ⟨(hdivides.cons d).cons '\\', hpair⟩
  | case4 depth quote c cs hbackslash ih =>
      by_cases hc : c = quote
      · subst hc
        rw [if_pos (beq_self_eq_true c)] at ih h ⊢
        obtain ⟨hdivides, hscanned⟩ := ih (by simp) h
        exact ⟨hdivides.cons c, [], [], _, rfl, .nil, hscanned⟩
      · rw [if_neg (by simpa using hc)] at ih h ⊢
        obtain ⟨hdivides, hscanned⟩ := ih hquote h
        have hplain : ∀ written value, QuotedText quote written value →
            ∃ value', QuotedText quote ([c] ++ written) value' :=
          fun _ _ hwritten => ⟨_, .plain hc (by simpa using hbackslash) hwritten⟩
        exact ⟨hdivides.cons c, hscanned.append hplain⟩
  | case5 depth c cs hc ih =>
      have hc := isQuote_iff.mp hc
      obtain ⟨hdivides, written, value, ds, hds, hwritten, hcloses⟩ := ih (by simpa using hc) h
      refine ⟨hdivides.cons c, ?_⟩
      have happend : ((argument depth (some c) cs).cons c).text = c :: written ++ [c] ++ ds := by
        simp [Argument.cons, hds]
      rw [happend]
      refine hcloses.append fun balanced hbalanced => ?_
      rw [List.append_assoc]
      exact .quoted hc hwritten hbalanced
  | case6 depth c cs hc hopen ih =>
      obtain rfl := eq_of_beq hopen
      obtain ⟨hdivides, hscanned⟩ := ih (by simp) h
      exact ⟨hdivides.cons '(', hscanned.nested⟩
  | case7 c cs hc hopen hclose => exact ⟨⟨rfl, rfl⟩, .done .nil⟩
  | case8 c cs hc hopen hclose depth ih =>
      obtain rfl := eq_of_beq hclose
      obtain ⟨hdivides, hscanned⟩ := ih (by simp) h
      exact ⟨hdivides.cons ')', .close .nil hscanned⟩
  | case9 depth c cs hc hopen hclose ih =>
      obtain ⟨hdivides, hscanned⟩ := ih (by simp) h
      have hplain : ∀ balanced, Balanced balanced → Balanced ([c] ++ balanced) :=
        fun _ hbalanced => .plain (by simpa using hopen) (by simpa using hclose)
          (mt isQuote_iff.mpr hc) hbalanced
      exact ⟨hdivides.cons c, Closes.append hscanned hplain⟩

/-- What is found before a closing parenthesis is balanced. -/
theorem balanced_of_argument {cs rest : List Char}
    (h : (argument 0 none cs).rest = ')' :: rest) :
    (argument 0 none cs).Divides cs ∧ Balanced (argument 0 none cs).text := by
  obtain ⟨hdivides, hscanned⟩ := scanned_of_argument (by simp) h
  cases hscanned with
  | done hbalanced => exact ⟨hdivides, hbalanced⟩

end Selector

end Arborist
