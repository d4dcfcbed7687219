import Arborist.Proofs.Selector.Reading
import Mathlib.Logic.Relation

/-!
# Where a flaw is

A text that is no pattern is refused with a flaw: a cause, the text that it is about, and a place in
that text. The text is the whole pattern or the argument of a `has` or `not`, at any depth. The
place is where the reader stood, so it lies in the text or at its end, with one exception. The scan
for the end of an argument takes a backslash inside quotes together with the character behind it,
and it counts that character even if the text ends at the backslash. A text that breaks off there
(`BreaksOff`) is refused one place behind its end.

The readers are followed from the start of the text. What stands before a reader is a piece of a
derivation: `Start`, before a compound, and `Lead`, before a part. Each reader that fails leaves one
of the three outcomes of `Misread`.

* `misread_of_readPattern`: the outcomes for a whole text, relative to how arguments are read.
* `readPattern_of_breaksOff`: a text that breaks off is refused for that, and for nothing before it.
* `placed_of_parseWithin`: the text and the place of a flaw, where arguments are read as patterns.
-/

namespace Arborist.Selector

open Text Grammar

/-! ## Arguments that break off -/

/-- `Dangling depth cs`: an argument in which `depth` parentheses are open goes on over `cs`, and
`cs` breaks off at a backslash inside quotes. -/
inductive Grammar.Dangling : Nat → List Char → Prop
  | escape {depth : Nat} {quote : Char} {written value : List Char} :
      IsQuote quote → QuotedText quote written value → Dangling depth (quote :: written ++ ['\\'])
  | plain {depth : Nat} {c : Char} {cs : List Char} :
      c ≠ '(' → c ≠ ')' → ¬IsQuote c → Dangling depth cs → Dangling depth (c :: cs)
  | quoted {depth : Nat} {quote : Char} {written value cs : List Char} :
      IsQuote quote → QuotedText quote written value → Dangling depth cs →
      Dangling depth (quote :: written ++ quote :: cs)
  | opening {depth : Nat} {cs : List Char} : Dangling (depth + 1) cs → Dangling depth ('(' :: cs)
  | closing {depth : Nat} {cs : List Char} : Dangling depth cs → Dangling (depth + 1) (')' :: cs)

/-- The scan goes to the end of an argument that breaks off, and counts one character more. -/
theorem argument_of_dangling {depth : Nat} {cs : List Char} (h : Dangling depth cs) :
    argument depth none cs = ⟨cs, [], cs.length + 1⟩ := by
  suffices hfound : argument depth none cs = Argument.prepend cs ⟨[], [], 1⟩ by
    rw [hfound]
    simp [Argument.prepend]
  induction h with
  | @escape depth quote written value hquote hwritten =>
      have hend : argument depth (some quote) ['\\'] = Argument.prepend ['\\'] ⟨[], [], 1⟩ := rfl
      rw [List.cons_append, argument_quote hquote, argument_append_of_quotedText hwritten, hend,
        Argument.prepend_prepend, Argument.cons_prepend]
  | plain hopen hclose hquote _ ih =>
      rw [argument_plain hopen hclose hquote, ih, Argument.cons_prepend]
  | quoted hquote hwritten _ ih =>
      rw [List.cons_append, argument_quote hquote, argument_of_quotedText hquote hwritten, ih,
        Argument.prepend_prepend, Argument.cons_prepend]
      simp
  | opening _ ih => rw [argument_open, ih, Argument.cons_prepend]
  | closing _ ih => rw [argument_close, ih, Argument.cons_prepend]

/-- What is left of an argument that breaks off, given the quote that is open. -/
def DanglingIn (depth : Nat) : Option Char → List Char → Prop
  | none, cs => Dangling depth cs
  | some quote, cs => ∃ written value ds, cs = written ++ ds ∧ QuotedText quote written value ∧
      (ds = ['\\'] ∨ ∃ es, ds = quote :: es ∧ Dangling depth es)

/-- What may stand before quoted text may be scanned inside quotes. -/
theorem DanglingIn.append {depth : Nat} {quote : Char} {cs ds : List Char}
    (h : DanglingIn depth (some quote) ds)
    (hcs : ∀ written value, QuotedText quote written value →
      ∃ value', QuotedText quote (cs ++ written) value') :
    DanglingIn depth (some quote) (cs ++ ds) := by
  obtain ⟨written, value, rest, rfl, hwritten, hrest⟩ := h
  obtain ⟨value', hwritten'⟩ := hcs written value hwritten
  exact ⟨cs ++ written, value', rest, (List.append_assoc ..).symm, hwritten', hrest⟩

/-- The scan counts what it passes over right, unless the argument breaks off. -/
theorem divides_or_danglingIn (depth : Nat) (quote : Option Char) (cs : List Char) :
    (argument depth quote cs).Divides cs ∨ DanglingIn depth quote cs := by
  fun_induction argument depth quote cs with
  | case1 => exact .inl ⟨rfl, rfl⟩
  | case2 depth quote c hc =>
      obtain rfl := eq_of_beq hc
      exact .inr ⟨[], [], ['\\'], rfl, .nil, .inl rfl⟩
  | case3 depth quote c hc d ds ih =>
      obtain rfl := eq_of_beq hc
      exact ih.imp (fun hdivides => (hdivides.cons d).cons '\\') fun hdangling =>
        hdangling.append fun _ _ hwritten => hwritten.exists_pair d
  | case4 depth quote c cs hbackslash ih =>
      by_cases hc : c = quote
      · subst hc
        rw [if_pos (beq_self_eq_true c)] at ih ⊢
        refine ih.imp (fun hdivides => hdivides.cons c) fun hdangling => ?_
        exact ⟨[], [], c :: cs, rfl, .nil, .inr ⟨cs, rfl, hdangling⟩⟩
      · rw [if_neg (by simpa using hc)] at ih ⊢
        have hplain : ∀ written value, QuotedText quote written value →
            ∃ value', QuotedText quote ([c] ++ written) value' :=
          fun _ _ hwritten => ⟨_, .plain hc (by simpa using hbackslash) hwritten⟩
        exact ih.imp (fun hdivides => hdivides.cons c) fun hdangling => hdangling.append hplain
  | case5 depth c cs hc ih =>
      have hc := isQuote_iff.mp hc
      refine ih.imp (fun hdivides => hdivides.cons c) fun hdangling => ?_
      obtain ⟨written, value, ds, rfl, hwritten, rfl | ⟨es, rfl, hes⟩⟩ := hdangling
      · exact .escape hc hwritten
      · exact .quoted hc hwritten hes
  | case6 depth c cs hc hopen ih =>
      obtain rfl := eq_of_beq hopen
      exact ih.imp (fun hdivides => hdivides.cons '(') .opening
  | case7 => exact .inl ⟨rfl, rfl⟩
  | case8 c cs hc hopen hclose depth ih =>
      obtain rfl := eq_of_beq hclose
      exact ih.imp (fun hdivides => hdivides.cons ')') .closing
  | case9 depth c cs hc hopen hclose ih =>
      exact ih.imp (fun hdivides => hdivides.cons c)
        (.plain (by simpa using hopen) (by simpa using hclose) (mt isQuote_iff.mpr hc))

/-! ## What stands before a reader -/

namespace Grammar

/-- What can stand before a compound: nothing, or a chain and what joins the compound to it. -/
inductive Start (Inner : List Char → Selector → Prop) : List Char → Prop
  | first : Start Inner []
  | child {cs before after : List Char} {left : Selector} :
      Chain Inner cs left → Blanks before → Blanks after →
      Start Inner (cs ++ before ++ '>' :: after)
  | descendant {cs between : List Char} {left : Selector} :
      Chain Inner cs left → Blanks between → between ≠ [] → Start Inner (cs ++ between)

/-- What can stand before a part: the start of a compound, its kind if it has one, and other
parts. -/
inductive Lead (Inner : List Char → Selector → Prop) : List Char → Prop
  | mk {start kind cs : List Char} {parts : List Selector} :
      Start Inner start → kind = [] ∨ IsKindName kind → Parts Inner cs parts →
      Lead Inner (start ++ kind ++ cs)

/-- `HasArgument Inner input argument`: a `has` or `not` in the input takes the argument. -/
inductive HasArgument (Inner : List Char → Selector → Prop) : List Char → List Char → Prop
  | mk {before argument after : List Char} {name : String} :
      Lead Inner before → name = "has" ∨ name = "not" → Balanced argument →
      HasArgument Inner (before ++ ':' :: name.toList ++ '(' :: argument ++ ')' :: after) argument

/-- The input breaks off in the argument of a pseudo-selector, at a backslash inside quotes. -/
inductive BreaksOff (Inner : List Char → Selector → Prop) : List Char → Prop
  | mk {before argument : List Char} {name : String} :
      Lead Inner before → IsName name.toList → Dangling 0 argument →
      BreaksOff Inner (before ++ ':' :: name.toList ++ '(' :: argument)

section Pieces

variable {Inner : List Char → Selector → Prop} {cs ds : List Char} {part : Selector}
  {parts : List Selector}

/-- Behind a part the next one can stand. -/
theorem Lead.concat (h : Lead Inner cs) (hpart : Part Inner ds part) : Lead Inner (cs ++ ds) := by
  obtain ⟨hstart, hkind, hparts⟩ := h
  rw [List.append_assoc]
  exact .mk hstart hkind (hparts.append hpart.parts)

/-- Where a compound can start, its first part can stand. -/
theorem Start.lead (h : Start Inner cs) : Lead Inner cs := by
  simpa using Lead.mk h (.inl rfl) .nil

theorem HasArgument.length_lt (h : HasArgument Inner cs ds) : ds.length < cs.length := by
  obtain ⟨-, -, -⟩ := h
  simp only [List.length_append, List.length_cons]
  omega

end Pieces

section Mono

variable {Inner Inner' : List Char → Selector → Prop} {bound : Nat} {cs : List Char}
  (hinner : ∀ argument s, argument.length < bound → Inner argument s → Inner' argument s)
include hinner

theorem Start.mono (h : Start Inner cs) (hbound : cs.length ≤ bound) : Start Inner' cs := by
  cases h with
  | first => exact .first
  | child hchain hbefore hafter =>
      simp only [List.length_append] at hbound
      exact .child (hchain.mono hinner (by omega)) hbefore hafter
  | descendant hchain hblanks hne =>
      rw [List.length_append] at hbound
      exact .descendant (hchain.mono hinner (by omega)) hblanks hne

theorem Lead.mono (h : Lead Inner cs) (hbound : cs.length ≤ bound) : Lead Inner' cs := by
  obtain ⟨hstart, hkind, hparts⟩ := h
  simp only [List.length_append] at hbound
  exact .mk (hstart.mono hinner (by omega)) hkind (hparts.mono hinner (by omega))

theorem HasArgument.mono {argument : List Char} (h : HasArgument Inner cs argument)
    (hbound : cs.length ≤ bound) : HasArgument Inner' cs argument := by
  obtain ⟨hlead, hname, hbalanced⟩ := h
  simp only [List.length_append] at hbound
  exact .mk (hlead.mono hinner (by omega)) hname hbalanced

theorem BreaksOff.mono (h : BreaksOff Inner cs) (hbound : cs.length ≤ bound) :
    BreaksOff Inner' cs := by
  obtain ⟨hlead, hname, hdangling⟩ := h
  simp only [List.length_append] at hbound
  exact .mk (hlead.mono hinner (by omega)) hname hdangling

end Mono

end Grammar

/-! ## Readers that fail -/

/-- A flaw of the pattern, at a place in its input or at the end. -/
structure Inside (pattern : String) (input : List Char) (flaw : Flaw) : Prop where
  pattern : flaw.pattern = pattern
  position : flaw.position ≤ input.length

/-- What a reader that fails leaves: a flaw inside the input, a flaw one place behind an input that
breaks off, or the flaw of an argument. -/
inductive Misread (pattern : String) (readInner : String → Except Flaw Selector)
    (input : List Char) (flaw : Flaw) : Prop
  | inside : Inside pattern input flaw → Misread pattern readInner input flaw
  | behind : BreaksOff (Accepted readInner) input → flaw.pattern = pattern →
      flaw.position = input.length + 1 → Misread pattern readInner input flaw
  | argument {argument : String} : HasArgument (Accepted readInner) input argument.toList →
      readInner argument = .error flaw → Misread pattern readInner input flaw

section Readers

variable {pattern : String} {readInner : String → Except Flaw Selector}
  {input before : List Char} {cursor : Cursor} {flaw : Flaw}

theorem inside_flawAt (hreads : Cursor.Reads ⟨input, 0⟩ before cursor) (cause : Flaw.Cause) :
    Inside pattern input (flawAt pattern cursor cause) := by
  refine ⟨rfl, ?_⟩
  show cursor.position ≤ input.length
  rw [hreads.position, Nat.zero_add]
  exact hreads.length_le

theorem expect_eq_error {wanted : Char} (h : expect pattern wanted cursor = .error flaw) :
    flaw = flawAt pattern cursor (.expected wanted cursor.rest.head?) := by
  unfold expect at h
  split at h
  · cases h
  · exact (Except.error.inj h).symm

theorem inside_of_expect {wanted : Char} (hreads : Cursor.Reads ⟨input, 0⟩ before cursor)
    (h : expect pattern wanted cursor = .error flaw) : Inside pattern input flaw := by
  rw [expect_eq_error h]
  exact inside_flawAt hreads _

/-- Decoding leaves an end of what it is given. -/
theorem quotedBody_suffix (quote : Char) (cs : List Char) : (quotedBody quote cs).2 <:+ cs := by
  fun_induction quotedBody quote cs with
  | case1 => exact List.suffix_refl _
  | case2 c cs body rest hbody ih =>
      rw [hbody] at ih
      exact ih.trans ⟨['\\', c], rfl⟩
  | case3 => exact List.suffix_refl _
  | case4 c cs hpair hc body rest hbody ih =>
      rw [hbody] at ih
      exact ih.trans (List.suffix_cons c cs)

theorem inside_of_readValue (hreads : Cursor.Reads ⟨input, 0⟩ before cursor)
    (h : readValue pattern cursor = .error flaw) : Inside pattern input flaw := by
  obtain ⟨blanks, -, hskip⟩ := cursor.exists_reads_skipBlanks
  have hstart := hreads.trans hskip
  have hnamed : readValue.named pattern cursor.skipBlanks = .error flaw →
      Inside pattern input flaw := by
    intro h
    unfold readValue.named at h
    dsimp only at h
    split at h
    · cases h
      exact inside_flawAt (hstart.trans (reads_readName cursor.skipBlanks).1) _
    · cases h
  unfold readValue at h
  dsimp only at h
  split at h
  · next c cs hrest =>
    split at h
    · rcases bind_eq_error_iff.mp h with h | ⟨closing, -, h⟩
      · obtain ⟨written, hwritten⟩ := quotedBody_suffix c cs
        have hbody : cursor.skipBlanks.Reads (c :: written)
            ⟨(quotedBody c cs).2, cursor.skipBlanks.position + 1
              + (cs.length - (quotedBody c cs).2.length)⟩ := by
          refine ⟨?_, ?_⟩
          · rw [hrest, List.cons_append, hwritten]
          · have hlength := congrArg List.length hwritten
            rw [List.length_append] at hlength
            show cursor.skipBlanks.position + 1 + _ = _
            rw [List.length_cons]
            omega
        exact inside_of_expect (hstart.trans hbody) h
      · cases h
    · exact hnamed h
  · exact hnamed h

theorem inside_of_readAttribute (hreads : Cursor.Reads ⟨input, 0⟩ before cursor)
    (h : readAttribute pattern cursor = .error flaw) : Inside pattern input flaw := by
  unfold readAttribute at h
  simp only [bind_eq_error_iff, expect_eq_ok_iff, refuse_eq_error_iff] at h
  rcases h with h | ⟨opened, hopen, h⟩
  · exact inside_of_expect hreads h
  obtain ⟨b₁, -, hskip₁⟩ := opened.exists_reads_skipBlanks
  have hnamed := ((hreads.trans hopen).trans hskip₁).trans (reads_readName opened.skipBlanks).1
  rcases h with ⟨-, rfl⟩ | ⟨-, h⟩
  · exact inside_flawAt hnamed _
  obtain ⟨b₂, -, hskip₂⟩ := (readName opened.skipBlanks).2.exists_reads_skipBlanks
  have hstart := hnamed.trans hskip₂
  split at h
  · rw [Cursor.skipBlanks_skipBlanks] at h
    rcases bind_eq_error_iff.mp h with h | ⟨closed, -, h⟩
    · exact inside_of_expect hstart h
    · cases h
  · next operator valued hsome =>
    obtain ⟨symbol, -, hreadSymbol⟩ := readOperator_eq_some_iff.mp hsome
    have hvalued := hstart.trans hreadSymbol
    simp only [bind_eq_error_iff] at h
    rcases h with h | ⟨⟨value, valueEnd⟩, hvalue, h⟩
    · exact inside_of_readValue hvalued h
    obtain ⟨b₃, written, hreadValue, -⟩ := value_of_readValue hvalue
    obtain ⟨b₄, -, hskip₄⟩ := valueEnd.exists_reads_skipBlanks
    rcases h with h | ⟨closed, -, h⟩
    · exact inside_of_expect ((hvalued.trans hreadValue).trans hskip₄) h
    · cases h

theorem misread_of_readPseudo (hlead : Lead (Accepted readInner) before)
    (hreads : Cursor.Reads ⟨input, 0⟩ before cursor)
    (h : readPseudo pattern readInner cursor = .error flaw) :
    Misread pattern readInner input flaw := by
  unfold readPseudo at h
  simp only [bind_eq_error_iff, expect_eq_ok_iff, refuse_eq_error_iff] at h
  rcases h with h | ⟨colon, hcolon, h⟩
  · exact .inside (inside_of_expect hreads h)
  have hnamed := (hreads.trans hcolon).trans (reads_readName colon).1
  rcases h with ⟨-, rfl⟩ | ⟨hname, h⟩
  · exact .inside (inside_flawAt hnamed _)
  have hname := isName_readName hname
  generalize (readName colon).1 = name at *
  generalize (readName colon).2 = named at *
  split at h
  · cases h
  · next hparenthesis =>
    have hopen : ['('] <+: named.rest := by
      rw [List.singleton_prefix_iff_head?_eq_some]
      simpa using hparenthesis
    have hopened : Cursor.Reads ⟨input, 0⟩ (before ++ [':'] ++ name.toList ++ ['('])
        (named.advance 1) := hnamed.trans (Cursor.reads_advance hopen)
    rcases bind_eq_error_iff.mp h with h | ⟨closed, hclosed, h⟩
    · -- No parenthesis closes the argument, because it breaks off or for another reason.
      rcases divides_or_danglingIn 0 none (named.advance 1).rest with hdivides | hdangling
      · exact .inside (inside_of_expect (hopened.trans hdivides.reads) h)
      · have hinput : input = before ++ ':' :: name.toList ++ '(' :: (named.advance 1).rest := by
          simpa using hopened.rest
        rw [expect_eq_error h]
        refine .behind ?_ rfl ?_
        · rw [hinput]
          exact .mk hlead hname hdangling
        · have hposition : (named.advance 1).position = 0 + _ := hopened.position
          rw [argument_of_dangling hdangling, hinput]
          show (named.advance 1).position + ((named.advance 1).rest.length + 1) = _
          simp only [List.length_append, List.length_cons, List.length_nil] at hposition ⊢
          omega
    · obtain ⟨hargument, hbalanced⟩ := reads_argument (expect_eq_ok_iff.mp hclosed)
      generalize (argument 0 none (named.advance 1).rest).text = text at *
      split at h
      · cases h
      · next hpattern =>
        simp only [refuse_eq_error_iff, bind_eq_error_iff] at h
        rcases h with ⟨-, rfl⟩ | ⟨-, h | ⟨inner, -, h⟩⟩
        · exact .inside (inside_flawAt (hopened.trans hargument) _)
        · have hname' : name = "has" ∨ name = "not" := by
            rw [← takesPattern_iff]
            simpa using hpattern
          have hinput : input
              = before ++ ':' :: name.toList ++ '(' :: text ++ ')' :: closed.rest := by
            simpa using (hopened.trans hargument).rest
          refine .argument ?_ h
          rw [hinput, String.toList_ofList]
          exact .mk hlead hname' hbalanced
        · cases h

/-- Every part that is read leads up to the next. -/
theorem misread_of_readParts {steps : Nat} (hlead : Lead (Accepted readInner) before)
    (hreads : Cursor.Reads ⟨input, 0⟩ before cursor)
    (h : readParts pattern readInner steps cursor = .error flaw) :
    Misread pattern readInner input flaw := by
  induction steps generalizing cursor before with
  | zero => cases h
  | succ steps ih =>
      rw [readParts] at h
      split at h
      · simp only [bind_eq_error_iff] at h
        rcases h with h | ⟨⟨part, middle⟩, hpart, h | ⟨rest, -, h⟩⟩
        · exact .inside (inside_of_readAttribute hreads h)
        · obtain ⟨cs, hreadPart, hattribute⟩ := attribute_of_readAttribute hpart
          exact ih (hlead.concat (.bracketed hattribute)) (hreads.trans hreadPart) h
        · cases h
      · simp only [bind_eq_error_iff] at h
        rcases h with h | ⟨⟨part, middle⟩, hpart, h | ⟨rest, -, h⟩⟩
        · exact misread_of_readPseudo hlead hreads h
        · obtain ⟨cs, hreadPart, hpseudo⟩ := part_of_readPseudo hpart
          exact ih (hlead.concat hpseudo) (hreads.trans hreadPart) h
        · cases h
      · cases h

theorem misread_of_readCompound (hstart : Start (Accepted readInner) before)
    (hreads : Cursor.Reads ⟨input, 0⟩ before cursor)
    (h : readCompound pattern readInner cursor = .error flaw) :
    Misread pattern readInner input flaw := by
  unfold readCompound at h
  simp only [bind_eq_error_iff, refuse_eq_error_iff] at h
  rcases h with h | ⟨⟨parts, after⟩, hparts, ⟨-, rfl⟩ | ⟨-, h⟩⟩
  · split at h
    · next hkind =>
      have hlead := Lead.mk hstart (.inr (isKindName_readName hkind)) .nil
      rw [List.append_nil] at hlead
      exact misread_of_readParts hlead (hreads.trans (reads_readName cursor).1) h
    · exact misread_of_readParts hstart.lead hreads h
  · split at hparts
    · obtain ⟨cs, hreadParts, -⟩ := parts_of_readParts hparts
      exact .inside (inside_flawAt ((hreads.trans (reads_readName cursor).1).trans hreadParts) _)
    · obtain ⟨cs, hreadParts, -⟩ := parts_of_readParts hparts
      exact .inside (inside_flawAt (hreads.trans hreadParts) _)
  · cases h

theorem misread_of_readChain {steps : Nat} {left : Selector}
    (hleft : Chain (Accepted readInner) before left)
    (hreads : Cursor.Reads ⟨input, 0⟩ before cursor)
    (h : readChain pattern readInner left steps cursor = .error flaw) :
    Misread pattern readInner input flaw := by
  induction steps generalizing cursor before left with
  | zero => cases h
  | succ steps ih =>
      rcases readChain_succ_cases pattern readInner left steps cursor with
        ⟨-, hstep⟩ | ⟨blanks, blanks', start, hblanks, hblanks', hlink, hstep⟩ |
          ⟨blanks, start, hblanks, hne, hlink, hstep⟩ | ⟨c, hstep⟩
      · cases hstep.symm.trans h
      · have hjoined := hreads.trans hlink
        rw [← List.append_assoc] at hjoined
        rcases bind_eq_error_iff.mp (hstep.symm.trans h) with h | ⟨⟨right, next⟩, hright, h⟩
        · exact misread_of_readCompound (.child hleft hblanks hblanks') hjoined h
        · obtain ⟨es, hreadRight, hcompound⟩ := compound_of_readCompound hright
          exact ih (.child hleft hblanks hblanks' hcompound) (hjoined.trans hreadRight) h
      · have hjoined := hreads.trans hlink
        rcases bind_eq_error_iff.mp (hstep.symm.trans h) with h | ⟨⟨right, next⟩, hright, h⟩
        · exact misread_of_readCompound (.descendant hleft hblanks hne) hjoined h
        · obtain ⟨es, hreadRight, hcompound⟩ := compound_of_readCompound hright
          exact ih (.descendant hleft hblanks hne hcompound) (hjoined.trans hreadRight) h
      · cases hstep.symm.trans h
        obtain ⟨blanks, -, hskip⟩ := cursor.exists_reads_skipBlanks
        exact .inside (inside_flawAt (hreads.trans hskip) _)

/-- What reading a whole text can fail for. -/
theorem misread_of_readPattern (h : readPattern pattern readInner = .error flaw) :
    Misread pattern readInner (strip pattern.toList) flaw := by
  unfold readPattern at h
  rcases refuse_eq_error_iff.mp h with ⟨-, rfl⟩ | ⟨-, h⟩
  · exact .inside ⟨rfl, Nat.zero_le _⟩
  · rcases bind_eq_error_iff.mp h with h | ⟨⟨left, next⟩, hleft, h⟩
    · exact misread_of_readCompound .first (.refl _) h
    · obtain ⟨cs, hreads, hcompound⟩ := compound_of_readCompound hleft
      exact misread_of_readChain (.compound hcompound) hreads h

end Readers

/-! ## Texts that break off -/

section BreakingOff

variable {pattern : String} {readInner : String → Except Flaw Selector} {flaw : Flaw}
  {cursor middle opened : Cursor} {cs kind : List Char} {parts : List Selector} {name : String}

variable (pattern readInner) in
/-- The flaw of an argument that breaks off. -/
theorem readPseudo_of_dangling (hreads : cursor.Reads (':' :: name.toList ++ ['(']) opened)
    (hname : IsName name.toList) (hdangling : Dangling 0 opened.rest) :
    readPseudo pattern readInner cursor
      = .error ⟨.expected ')' none, pattern, opened.position + (opened.rest.length + 1)⟩ := by
  obtain ⟨colon, named, hcolon, hreadName, hhead, hadvance⟩ := readName_of_parenthesis hreads hname
  unfold readPseudo
  rw [expect_eq_ok_iff.mpr hcolon]
  simp only [ok_bind, hreadName, not_isEmpty_of_isName hname, hhead, hadvance,
    argument_of_dangling hdangling, Bool.false_eq_true, if_false]
  rfl

/-- Parts are read up to a pseudo-selector that fails. -/
theorem readParts_of_readPseudo (hparts : Parts (Accepted readInner) cs parts)
    (hreads : cursor.Reads cs middle) (hhead : middle.rest.head? = some ':')
    (h : readPseudo pattern readInner middle = .error flaw) {steps : Nat}
    (hsteps : cs.length < steps) : readParts pattern readInner steps cursor = .error flaw := by
  have hends : EndsPart middle.rest := by
    intro c hc
    exact .inr (.inl (Option.some.inj (hc.symm.trans hhead)))
  obtain ⟨spare, hspare, hread⟩ :=
    readParts_append pattern hparts hreads hends (Nat.le_of_lt hsteps)
  obtain ⟨spare, rfl⟩ : ∃ n, spare = n + 1 := ⟨spare - 1, by omega⟩
  rw [hread, readParts]
  simp only [hhead, h]
  rfl

/-- A compound fails where one of its pseudo-selectors does. -/
theorem readCompound_of_readPseudo (hkind : kind = [] ∨ IsKindName kind)
    (hparts : Parts (Accepted readInner) cs parts) (hreads : cursor.Reads (kind ++ cs) middle)
    (hhead : middle.rest.head? = some ':') (h : readPseudo pattern readInner middle = .error flaw) :
    readCompound pattern readInner cursor = .error flaw := by
  obtain ⟨ds, hmiddle⟩ : ∃ ds, middle.rest = ':' :: ds := List.head?_eq_some_iff.mp hhead
  have hsteps : ∀ {start : Cursor}, start.Reads cs middle → cs.length < start.rest.length := by
    intro start hstart
    rw [hstart.rest, hmiddle, List.length_append, List.length_cons]
    omega
  unfold readCompound
  simp only [bind_eq_error_iff, refuse_eq_error_iff]
  refine .inl ?_
  rcases hkind with rfl | hkind
  · have hnone : ¬(cursor.rest.head?.map isNameStart).getD false = true := by
      rw [hreads.rest, hmiddle]
      rcases hparts.eq_nil_or_exists_eq_cons with ⟨rfl, -⟩ | ⟨c, es, rfl, hc⟩
      · exact Bool.eq_false_iff.mp (isNameStart_of_startsPart (.inr rfl))
      · exact Bool.eq_false_iff.mp (isNameStart_of_startsPart hc)
    rw [if_neg hnone]
    exact readParts_of_readPseudo hparts hreads hhead h (hsteps hreads)
  · obtain ⟨named, hreadName, hreadParts⟩ := hreads.split
    have hsome : (cursor.rest.head?.map isNameStart).getD false = true := by
      obtain ⟨c, es, rfl, hc⟩ := hkind.exists_eq_cons
      rw [hreadName.rest]
      exact hc
    have hstops : Stops isNameChar named.rest := by
      refine EndsPart.stops_isNameChar ?_
      rw [hreadParts.rest, hmiddle]
      exact hparts.endsPart_append fun c hc => .inr (.inl (by simpa using hc.symm))
    rw [← String.toList_ofList (l := kind)] at hreadName hkind
    rw [if_pos hsome, readName_eq hreadName hkind.isName.2 hstops]
    exact readParts_of_readPseudo hparts hreadParts hhead h (hsteps hreadParts)

/-- Up to the argument of its last pseudo-selector a compound is complete. -/
theorem exists_compound (hkind : kind = [] ∨ IsKindName kind)
    (hparts : Parts (Accepted readInner) cs parts) (hname : IsName name.toList) :
    ∃ s, Compound (Accepted readInner) (kind ++ (cs ++ ':' :: name.toList)) s := by
  have hlonger := hparts.append (Part.parts (.bare hname))
  rcases hkind with rfl | hkind
  · exact ⟨_, .parts hlonger (together_iff.mpr ⟨by simp, rfl⟩)⟩
  · rw [← String.toList_ofList (l := kind)] at hkind ⊢
    exact ⟨_, .kind hkind hlonger (together_iff.mpr ⟨by simp, rfl⟩)⟩

/-- A chain is read up to a compound that fails. -/
theorem readFrom_of_readCompound {c : Char} {rest : List Char}
    (hstart : Start (Accepted readInner) cs) (hreads : cursor.Reads cs middle)
    (hrest : middle.rest = c :: rest) (hblank : isBlank c = false) (hc : c ≠ '>')
    (h : readCompound pattern readInner middle = .error flaw) :
    readFrom pattern readInner cursor = .error flaw := by
  cases hstart with
  | first =>
      obtain rfl := hreads.unique (.refl cursor)
      exact bind_eq_error_iff.mpr (.inl h)
  | @child cs blanks blanks' left hchain hblanks hblanks' =>
      rw [List.append_assoc] at hreads
      obtain ⟨leftEnd, hreadLeft, hlink⟩ := hreads.split
      have hleftEnd : EndsCompound leftEnd.rest := by
        rw [hlink.rest, List.append_assoc]
        refine hblanks.endsCompound fun _ d hd => .inl ?_
        simpa using hd.symm
      have hstops : Stops isBlank middle.rest := by
        rw [hrest]
        exact stops_cons hblank
      obtain ⟨steps, hsteps, hread⟩ := readFrom_of_chain pattern hchain hreadLeft hleftEnd
      obtain ⟨steps, rfl⟩ : ∃ n, steps = n + 1 := ⟨steps - 1, by omega⟩
      rw [hread, readChain_succ_arrow hlink hblanks hblanks' hstops, h]
      rfl
  | @descendant cs blanks left hchain hblanks hne =>
      obtain ⟨leftEnd, hreadLeft, hlink⟩ := hreads.split
      have hleftEnd : EndsCompound leftEnd.rest := by
        rw [hlink.rest]
        exact hblanks.endsCompound fun hnil => absurd hnil hne
      obtain ⟨steps, hsteps, hread⟩ := readFrom_of_chain pattern hchain hreadLeft hleftEnd
      obtain ⟨steps, rfl⟩ : ∃ n, steps = n + 1 := ⟨steps - 1, by omega⟩
      rw [hread, readChain_succ_blanks hlink hblanks hne hrest hblank hc, h]
      rfl

/-- A text that breaks off is refused for it, one place behind its end. -/
theorem readPattern_of_breaksOff (h : BreaksOff (Accepted readInner) (strip pattern.toList)) :
    readPattern pattern readInner
      = .error ⟨.expected ')' none, pattern, (strip pattern.toList).length + 1⟩ := by
  generalize hinput : strip pattern.toList = input at h ⊢
  obtain @⟨_, argument, name, hlead, hname, hdangling⟩ := h
  obtain @⟨start, kind, cs, parts, hstart, hkind, hparts⟩ := hlead
  have hreads : Cursor.Reads ⟨start ++ kind ++ cs ++ ':' :: name.toList ++ '(' :: argument, 0⟩
      (start ++ (kind ++ cs ++ (':' :: name.toList ++ ['('])))
      ⟨argument, (start ++ (kind ++ cs ++ (':' :: name.toList ++ ['(']))).length⟩ :=
    ⟨by simp, by simp⟩
  obtain ⟨first, hreadStart, hreads⟩ := hreads.split
  obtain ⟨colon, hreadParts, hreadName⟩ := hreads.split
  have hpseudo := readPseudo_of_dangling pattern readInner hreadName hname hdangling
  have hcolon : colon.rest.head? = some ':' := by
    rw [hreadName.rest]
    rfl
  have hcompound := readCompound_of_readPseudo hkind hparts hreadParts hcolon hpseudo
  obtain ⟨s, hcomplete⟩ := exists_compound hkind hparts hname
  obtain ⟨c, ds, hcs, hblank, hc⟩ := hcomplete.exists_eq_cons
  have hrest : first.rest = c :: (ds ++ '(' :: argument) := by
    rw [hreadParts.rest, hreadName.rest, ← List.cons_append, ← hcs]
    simp
  have hfrom := readFrom_of_readCompound hstart hreadStart hrest hblank hc hcompound
  unfold readPattern
  rw [hinput]
  refine refuse_eq_error_iff.mpr (.inr ⟨by simp, hfrom.trans ?_⟩)
  congr 2
  simp only [List.length_append, List.length_cons, List.length_nil]
  omega

end BreakingOff

/-! ## The flaw of a pattern -/

/-- The texts in a pattern that are read as patterns: itself and the arguments of `has` and `not`,
at any depth. -/
def Subpattern (pattern text : List Char) : Prop :=
  Relation.ReflTransGen (fun outer argument => HasArgument Pattern (strip outer) argument)
    pattern text

/-- A flaw lies in a text that is read as a pattern, or one place behind it if it breaks off. -/
structure Placed (pattern : String) (flaw : Flaw) : Prop where
  subpattern : Subpattern pattern.toList flaw.pattern.toList
  position : flaw.position ≤ (strip flaw.pattern.toList).length + 1
  behind_iff : flaw.position = (strip flaw.pattern.toList).length + 1 ↔
    BreaksOff Pattern (strip flaw.pattern.toList)

theorem placed_of_parseWithin {depth : Nat} {pattern : String} {flaw : Flaw}
    (hdepth : pattern.length < depth) (h : parseWithin depth pattern = .error flaw) :
    Placed pattern flaw := by
  induction depth generalizing pattern with
  | zero => exact absurd hdepth (Nat.not_lt_zero _)
  | succ depth ih =>
      -- Arguments are short enough for the bound that is left, so they are read as patterns.
      have hstrip : (strip pattern.toList).length ≤ depth := by
        have hlength := length_strip_le pattern.toList
        rw [String.length_toList] at hlength
        omega
      have hinner : ∀ cs s, cs.length < (strip pattern.toList).length →
          (Accepted (parseWithin depth) cs s ↔ Pattern cs s) := by
        intro cs s hcs
        refine accepted_iff ?_
        rw [parseWithin_eq_ok_iff (by rw [String.length_ofList]; omega), String.toList_ofList]
      rw [parseWithin] at h
      cases misread_of_readPattern h with
      | inside hinside =>
          obtain ⟨rfl, hposition⟩ := hinside
          refine ⟨.refl, by omega, iff_of_false (by omega) fun hbreaks => ?_⟩
          have hbreaks' := hbreaks.mono (fun cs s hcs => (hinner cs s hcs).mpr) (Nat.le_refl _)
          have hflaw := Except.error.inj (h.symm.trans (readPattern_of_breaksOff hbreaks'))
          have hbehind := congrArg Flaw.position hflaw
          exact Nat.not_succ_le_self _ (hbehind ▸ hposition)
      | behind hbreaks hpattern hposition =>
          subst hpattern
          have hbreaks' := hbreaks.mono (fun cs s hcs => (hinner cs s hcs).mp) (Nat.le_refl _)
          exact ⟨.refl, by omega, iff_of_true hposition hbreaks'⟩
      | @argument argument hargument hread =>
          have hlength := hargument.length_lt
          rw [String.length_toList] at hlength
          obtain ⟨hsubpattern, hposition, hbehind⟩ := ih (by omega) hread
          have hargument' := hargument.mono (fun cs s hcs => (hinner cs s hcs).mp) (Nat.le_refl _)
          exact ⟨.head hargument' hsubpattern, hposition, hbehind⟩

/-- The flaw of a pattern is about the pattern or an argument of `has` or `not` in it, at any depth.
Its place is in that text or at its end, unless the text breaks off in an argument at a backslash
inside quotes: then, and only then, the place is one behind the end. -/
theorem parse_flaw_place {pattern : String} {flaw : Flaw} (h : parse pattern = .error flaw) :
    Subpattern pattern.toList flaw.pattern.toList ∧
      flaw.position ≤ (strip flaw.pattern.toList).length + 1 ∧
      (flaw.position = (strip flaw.pattern.toList).length + 1 ↔
        BreaksOff Pattern (strip flaw.pattern.toList)) := by
  obtain ⟨hsubpattern, hposition, hbehind⟩ :=
    placed_of_parseWithin (Nat.lt_succ_self pattern.length) h
  exact ⟨hsubpattern, hposition, hbehind⟩

theorem parse_flaw_place_in_argument :
    parse "a :has([x)" = .error ⟨.expected ']' none, "[x", 2⟩ ∧
      Subpattern "a :has([x)".toList "[x".toList ∧
      ¬BreaksOff Pattern (strip "[x".toList) := by
  have h : parse "a :has([x)" = .error ⟨.expected ']' none, "[x", 2⟩ := rfl
  obtain ⟨hsubpattern, -, hbehind⟩ := parse_flaw_place h
  exact ⟨h, hsubpattern, fun hbreaks => absurd (hbehind.mpr hbreaks) (by decide)⟩

/-- The place can be outside the text. -/
theorem parse_places_flaw_behind_end :
    ∃ flaw, parse ":has(\"\\" = .error flaw ∧ flaw.pattern = ":has(\"\\" ∧
      (strip flaw.pattern.toList).length < flaw.position := by
  have hinput : strip ":has(\"\\".toList
      = [] ++ ':' :: "has".toList ++ '(' :: ('"' :: [] ++ ['\\']) := rfl
  have hbreaks : ∀ Inner, BreaksOff Inner (strip ":has(\"\\".toList) := by
    intro Inner
    rw [hinput]
    exact .mk Start.first.lead (isName_of_takesPattern (.inl rfl)) (.escape (.inl rfl) .nil)
  unfold parse
  rw [parseWithin, readPattern_of_breaksOff (hbreaks _)]
  exact ⟨_, rfl, rfl, Nat.lt_succ_self _⟩

end Arborist.Selector
