import Arborist.Proofs.Selector.Composition
import Mathlib.Algebra.Ring.Parity

/-!
# Writing selectors

`Selector.print` writes a selector as a pattern. Different patterns stand for the same selector: the
blanks around and inside them are free, and a value can be written in three ways. Printing settles
on one pattern for each, and `parse_print` says that for everything that can be read it is a pattern
for the same selector.

Only values are a matter of choice. Between two quotes a backslash is kept, unless the quote comes
next; then it is dropped. So a quote can be written by putting a backslash before it, but a
backslash before it cannot be written, nor one at the end, except in pairs. `quotedText_iff` says
exactly which values can be written between two quotes, and how: there is one way at most.
-/

namespace Arborist.Selector

open Text Grammar

/-! ## Values between quotes -/

/-- Put a backslash before every quote. -/
def escaped (quote : Char) (value : List Char) : List Char :=
  value.flatMap fun c => if c = quote then ['\\', c] else [c]

/-- How many backslashes a text ends in. -/
def backslashesAtEnd (cs : List Char) : Nat := (cs.reverse.takeWhile (· == '\\')).length

/-- Directly before a quote, or at the end, stands a run of backslashes of odd length. -/
def OddRun (quote : Char) (value : List Char) : Prop :=
  ∃ before after, value = before ++ after ∧ (after = [] ∨ after.head? = some quote) ∧
    Odd (backslashesAtEnd before)

/-- Whether there is an odd run in a text, given whether an odd number of backslashes stands
before it. -/
def hasOddRun (quote : Char) : Bool → List Char → Bool
  | odd, [] => odd
  | odd, c :: cs => (odd && c == quote) || hasOddRun quote (c == '\\' && !odd) cs

section OddRun

variable {quote c : Char} {cs before written value : List Char}

theorem backslashesAtEnd_concat (cs : List Char) (c : Char) :
    backslashesAtEnd (cs ++ [c]) = if c = '\\' then backslashesAtEnd cs + 1 else 0 := by
  unfold backslashesAtEnd
  rw [List.reverse_append, List.reverse_singleton, List.singleton_append, List.takeWhile_cons]
  by_cases hc : c = '\\'
  · simp [hc]
  · simp [hc]

theorem odd_backslashesAtEnd_concat (cs : List Char) (c : Char) :
    decide (Odd (backslashesAtEnd (cs ++ [c]))) =
      (c == '\\' && !decide (Odd (backslashesAtEnd cs))) := by
  rw [backslashesAtEnd_concat]
  by_cases hc : c = '\\'
  · simp [hc, Nat.odd_add_one, ← decide_not]
  · simp [hc]

/-- Behind `before` a run ends at the first character, if that is the quote, or further on. -/
theorem exists_oddRun_cons_iff :
    (∃ middle after, c :: cs = middle ++ after ∧ (after = [] ∨ after.head? = some quote) ∧
      Odd (backslashesAtEnd (before ++ middle))) ↔
    (Odd (backslashesAtEnd before) ∧ c = quote) ∨
      ∃ middle after, cs = middle ++ after ∧ (after = [] ∨ after.head? = some quote) ∧
        Odd (backslashesAtEnd (before ++ [c] ++ middle)) := by
  constructor
  · rintro ⟨middle, after, hcs, hafter, hodd⟩
    cases middle with
    | nil =>
        rw [List.append_nil] at hodd
        rw [List.nil_append] at hcs
        subst hcs
        exact .inl ⟨hodd, by simpa using hafter⟩
    | cons d middle =>
        obtain ⟨rfl, rfl⟩ := List.cons.inj hcs
        exact .inr ⟨middle, after, rfl, hafter, by simpa using hodd⟩
  · rintro (⟨hodd, rfl⟩ | ⟨middle, after, rfl, hafter, hodd⟩)
    · exact ⟨[], c :: cs, rfl, .inr rfl, by rwa [List.append_nil]⟩
    · exact ⟨c :: middle, after, rfl, hafter, by simpa using hodd⟩

/-- The scan has passed over the text `before`, and knows the parity of the backslashes at its
end. -/
theorem hasOddRun_iff (before : List Char) :
    hasOddRun quote (decide (Odd (backslashesAtEnd before))) value = true ↔
      ∃ middle after, value = middle ++ after ∧ (after = [] ∨ after.head? = some quote) ∧
        Odd (backslashesAtEnd (before ++ middle)) := by
  induction value generalizing before with
  | nil =>
      rw [hasOddRun, decide_eq_true_iff]
      constructor
      · intro hodd
        exact ⟨[], [], rfl, .inl rfl, by rwa [List.append_nil]⟩
      · rintro ⟨middle, after, hnil, -, hodd⟩
        obtain ⟨rfl, rfl⟩ := List.nil_eq_append_iff.mp hnil
        rwa [List.append_nil] at hodd
  | cons c cs ih =>
      rw [exists_oddRun_cons_iff, ← ih, odd_backslashesAtEnd_concat, hasOddRun, Bool.or_eq_true,
        Bool.and_eq_true, beq_iff_eq, decide_eq_true_iff]

theorem hasOddRun_false_iff : hasOddRun quote false value = true ↔ OddRun quote value :=
  hasOddRun_iff []

instance (quote : Char) (value : List Char) : Decidable (OddRun quote value) :=
  decidable_of_iff _ hasOddRun_false_iff

/-- After an even number of backslashes a character other than a backslash is passed over. -/
theorem hasOddRun_plain (hc : c ≠ '\\') :
    hasOddRun quote false (c :: cs) = hasOddRun quote false cs := by
  simp [hasOddRun, beq_eq_false_iff_ne.mpr hc]

/-- A backslash leaves the parity as it was together with the character after it, unless that is
the quote. -/
theorem hasOddRun_pair :
    hasOddRun quote false ('\\' :: c :: cs) = (c == quote || hasOddRun quote false cs) := by
  simp [hasOddRun]

theorem escaped_quote : escaped quote (quote :: cs) = '\\' :: quote :: escaped quote cs := by
  simp [escaped]

theorem escaped_cons (hc : c ≠ quote) : escaped quote (c :: cs) = c :: escaped quote cs := by
  simp [escaped, hc]

/-- What is written between two quotes is the value with its quotes escaped, and in the value
backslashes stand before a quote and at the end only in pairs. -/
theorem escaped_of_quotedText (hquote : IsQuote quote) (h : QuotedText quote written value) :
    written = escaped quote value ∧ hasOddRun quote false value = false := by
  have hbackslash := hquote.ne_backslash
  induction h with
  | nil => exact ⟨rfl, rfl⟩
  | escapedQuote _ ih => rw [escaped_quote, hasOddRun_plain hbackslash, ← ih.1]; exact ⟨rfl, ih.2⟩
  | pair hc _ ih =>
      rw [escaped_cons hbackslash.symm, escaped_cons hc, hasOddRun_pair, ← ih.1, ih.2]
      exact ⟨rfl, by simpa using hc⟩
  | plain hc hplain _ ih =>
      rw [escaped_cons hc, hasOddRun_plain hplain, ← ih.1]
      exact ⟨rfl, ih.2⟩

/-- One more character before what can be written. -/
theorem quotedText_escaped_cons (hc : c ≠ '\\') (h : QuotedText quote (escaped quote cs) cs) :
    QuotedText quote (escaped quote (c :: cs)) (c :: cs) := by
  by_cases hquote : c = quote
  · subst hquote
    rw [escaped_quote]
    exact .escapedQuote h
  · rw [escaped_cons hquote]
    exact .plain hquote hc h

/-- A value in which they stand so can be written. -/
theorem quotedText_escaped (hquote : IsQuote quote) :
    ∀ value, hasOddRun quote false value = false → QuotedText quote (escaped quote value) value
  | [], _ => .nil
  | c :: cs, h => by
      by_cases hc : c = '\\'
      · subst hc
        -- A backslash goes with what follows it, and something does: it is not the last one.
        cases cs with
        | nil => cases h
        | cons d ds =>
            rw [hasOddRun_pair, Bool.or_eq_false_iff, beq_eq_false_iff_ne] at h
            rw [escaped_cons hquote.ne_backslash.symm, escaped_cons h.1]
            exact .pair h.1 (quotedText_escaped hquote ds h.2)
      · rw [hasOddRun_plain hc] at h
        exact quotedText_escaped_cons hc (quotedText_escaped hquote cs h)

/-- What can be written between two quotes, and how. -/
theorem quotedText_iff (hquote : IsQuote quote) :
    QuotedText quote written value ↔ written = escaped quote value ∧ ¬OddRun quote value := by
  rw [← hasOddRun_false_iff, Bool.not_eq_true]
  constructor
  · exact escaped_of_quotedText hquote
  · rintro ⟨rfl, h⟩
    exact quotedText_escaped hquote value h

end OddRun

/-! ## Printing -/

/-- The quotes in which a value is written: double ones if they can be used. -/
def quoteFor (value : String) : Char := if OddRun '"' value.toList then '\'' else '"'

/-- A value between quotes. -/
def quotedValue (value : String) : String :=
  let quote := quoteFor value
  String.ofList (quote :: escaped quote value.toList ++ [quote])

mutual

/-- A selector as a pattern. Arguments are written as they were kept. -/
def print : Selector → String
  | .kind name => name
  | .attr name _ none => "[" ++ name ++ "]"
  | .attr name operator (some value) =>
    "[" ++ name ++ operator.symbol ++ quotedValue value ++ "]"
  | .pseudo name none _ => ":" ++ name
  | .pseudo name (some argument) _ => pseudoText name argument
  | .child left right => left.print ++ " > " ++ right.print
  | .descendant left right => left.print ++ " " ++ right.print
  | .all parts => printAll parts
  | .never => ""

/-- Selectors as patterns, one directly behind the other. -/
def printAll : List Selector → String
  | [] => ""
  | part :: rest => part.print ++ printAll rest

end

namespace Grammar

variable {Inner : List Char → Selector → Prop} {cs : List Char} {s : Selector}
  {parts : List Selector} {value : String}

theorem isQuote_quoteFor (value : String) : IsQuote (quoteFor value) := by
  unfold quoteFor
  split
  · exact .inr rfl
  · exact .inl rfl

/-- If either kind of quotes can be used for a value, the kind that is chosen can. -/
theorem not_oddRun_quoteFor {quote : Char} (hquote : IsQuote quote)
    (h : ¬OddRun quote value.toList) : ¬OddRun (quoteFor value) value.toList := by
  unfold quoteFor
  split
  · next hdouble =>
    rcases hquote with rfl | rfl
    · exact absurd hdouble h
    · exact h
  · next hdouble => exact hdouble

theorem IsName.not_oddRun (h : IsName cs) (quote : Char) : ¬OddRun quote cs := by
  have hbackslash : isNameChar '\\' = false := by decide +kernel
  obtain ⟨-, hname⟩ := h
  rw [← hasOddRun_false_iff, Bool.not_eq_true]
  induction cs with
  | nil => rfl
  | cons c cs ih =>
      obtain ⟨hc, hcs⟩ := List.forall_mem_cons.mp hname
      rw [hasOddRun_plain, ih hcs]
      rintro rfl
      cases hc.symm.trans hbackslash

/-- Every value that can be read can be written between quotes of the chosen kind. -/
theorem Value.print (h : Value cs value) : Value (quotedValue value).toList value := by
  have hwritable : ∃ quote, IsQuote quote ∧ ¬OddRun quote value.toList := by
    cases h with
    | name hname => exact ⟨'"', .inl rfl, hname.not_oddRun '"'⟩
    | quoted hquote htext => exact ⟨_, hquote, ((quotedText_iff hquote).mp htext).2⟩
  obtain ⟨quote, hquote, hrun⟩ := hwritable
  have hchosen := isQuote_quoteFor value
  rw [quotedValue, String.toList_ofList]
  exact .quoted hchosen ((quotedText_iff hchosen).mpr ⟨rfl, not_oddRun_quoteFor hquote hrun⟩)

theorem OperatorText.eq_symbol {operator : Operator} (h : OperatorText cs operator) :
    cs = operator.symbol.toList := by
  cases h <;> rfl

theorem Attribute.print (h : Attribute cs s) : Attribute s.print.toList s := by
  cases h with
  | @present before after name _ hname _ =>
      have h : Attribute ('[' :: [] ++ name.toList ++ [] ++ [']']) (.attr name .equals none) :=
        .present Blanks.nil hname Blanks.nil
      simpa [Selector.print] using h
  | @compared _ _ _ _ symbol written name value operator _ hname _ hoperator _ hvalue _ =>
      have h : Attribute ('[' :: [] ++ name.toList ++ [] ++ symbol ++ [] ++
          (quotedValue value).toList ++ [] ++ [']']) (.attr name operator (some value)) :=
        .compared Blanks.nil hname Blanks.nil hoperator Blanks.nil hvalue.print Blanks.nil
      simpa [Selector.print, hoperator.eq_symbol] using h

theorem Part.print (h : Part Inner cs s) : Part Inner s.print.toList s := by
  cases h with
  | bracketed h => exact .bracketed h.print
  | bare hname =>
      rw [Selector.print, String.toList_append]
      exact .bare hname
  | verbatim hname hhas hnot hargument =>
      rw [Selector.print, toList_pseudoText]
      exact .verbatim hname hhas hnot hargument
  | pattern hname hargument hinner =>
      rw [Selector.print, toList_pseudoText]
      exact .pattern hname hargument hinner

theorem Parts.print (h : Parts Inner cs parts) : Parts Inner (printAll parts).toList parts := by
  induction h with
  | nil => simpa [printAll] using Parts.nil
  | cons hpart _ ih =>
      rw [printAll, String.toList_append]
      exact .cons hpart.print ih

theorem Together.print (h : Together parts s) : s.print = printAll parts := by
  cases h with
  | one => simp [printAll]
  | several => rw [Selector.print]

theorem Compound.print (h : Compound Inner cs s) : Compound Inner s.print.toList s := by
  cases h with
  | kind hname hparts htogether =>
      rw [htogether.print, printAll, Selector.print, String.toList_append]
      exact .kind hname hparts.print htogether
  | parts hparts htogether =>
      rw [htogether.print]
      exact .parts hparts.print htogether

/-! ### Blanks and chains

What is printed for a compound neither begins nor ends in a blank, so nothing is dropped when it is
read, and it is not a chain, so it can stand behind another pattern. -/

theorem stops_of_forall {p : Char → Bool} (h : ∀ c ∈ cs, p c = false) : Stops p cs :=
  fun c hc => h c (List.mem_of_mem_head? hc)

theorem Stops.append_stops {p : Char → Bool} {ds : List Char} (hcs : Stops p cs)
    (hds : Stops p ds) : Stops p (cs ++ ds) := by
  cases cs with
  | nil => exact hds
  | cons c cs => exact stops_cons (hcs c rfl)

theorem IsName.stops_reverse (h : IsName cs) : Stops isBlank cs.reverse :=
  stops_of_forall fun c hc => isBlank_of_isNameChar (h.2 c (List.mem_reverse.mp hc))

theorem stops_reverse_concat {c : Char} (hc : c ∈ punctuation) (cs : List Char) :
    Stops isBlank (cs ++ [c]).reverse := by
  rw [List.reverse_concat]
  exact stops_cons (isBlank_of_mem_punctuation c hc)

theorem Part.stops_reverse (h : Part Inner cs s) : Stops isBlank cs.reverse := by
  cases h with
  | bracketed h =>
      cases h with
      | present => exact stops_reverse_concat (by decide) _
      | compared => exact stops_reverse_concat (by decide) _
  | bare hname =>
      rw [List.reverse_cons]
      exact hname.stops_reverse.append_stops (stops_cons (by decide))
  | verbatim => exact stops_reverse_concat (by decide) _
  | pattern => exact stops_reverse_concat (by decide) _

theorem Parts.stops_reverse (h : Parts Inner cs parts) : Stops isBlank cs.reverse := by
  induction h with
  | nil => exact stops_nil
  | cons hpart _ ih =>
      rw [List.reverse_append]
      exact ih.append_stops hpart.stops_reverse

theorem Compound.stops_reverse (h : Compound Inner cs s) : Stops isBlank cs.reverse := by
  cases h with
  | kind hname hparts _ =>
      rw [List.reverse_append]
      exact hparts.stops_reverse.append_stops hname.isName.stops_reverse
  | parts hparts _ => exact hparts.stops_reverse

theorem Part.isChain_eq_false (h : Part Inner cs s) : s.isChain = false := by
  cases h with
  | bracketed h => cases h <;> rfl
  | bare => rfl
  | verbatim => rfl
  | pattern => rfl

theorem Compound.isChain_eq_false (h : Compound Inner cs s) : s.isChain = false := by
  cases h with
  | kind _ _ htogether => cases htogether <;> rfl
  | parts hparts htogether =>
      cases htogether with
      | several => rfl
      | one =>
          cases hparts with
          | cons hpart _ => exact hpart.isChain_eq_false

theorem Compound.isPattern_print (h : Compound Pattern cs s) : Pattern s.print.toList s :=
  h.print.isPattern h.print.stops_reverse

theorem Chain.isPattern_print (h : Chain Pattern cs s) : Pattern s.print.toList s := by
  induction h with
  | compound h => exact h.isPattern_print
  | child _ _ _ hright ih =>
      rw [Selector.print, String.toList_append, String.toList_append]
      exact ih.child hright.isPattern_print hright.isChain_eq_false
  | descendant _ _ _ hright ih =>
      rw [Selector.print, String.toList_append, String.toList_append]
      exact ih.descendant hright.isPattern_print hright.isChain_eq_false

end Grammar

/-- Whatever a pattern is read as, printing it gives a pattern that is read as the same. -/
theorem parse_print {pattern : String} {s : Selector} (h : parse pattern = .ok s) :
    parse s.print = .ok s := by
  obtain ⟨hchain⟩ := pattern_of_parse h
  exact parse_of_pattern hchain.isPattern_print

/-- A backslash before a double quote can be written between single quotes only, an argument keeps
its blanks, and the blanks of the chain become one on each side. -/
theorem parse_print_single_quotes :
    ∃ s, parse " a[ text *= '\\\"' ] >b:has( c )" = .ok s ∧
      s.print = "a[text*='\\\"'] > b:has( c )" ∧ parse s.print = .ok s := by
  have hreads : parse " a[ text *= '\\\"' ] >b:has( c )" = .ok (.child
      (.all [.kind "a", .attr "text" .contains (some "\\\"")])
      (.all [.kind "b", .pseudo "has" (some " c ") (some (.kind "c"))])) := by
    rfl
  exact ⟨_, hreads, by decide +kernel, parse_print hreads⟩

end Arborist.Selector
