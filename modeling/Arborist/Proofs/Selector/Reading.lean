import Arborist.Proofs.Computation
import Arborist.Proofs.Selector.Lexical

/-!
# Reading follows the grammar

Every reader is matched with its part of the grammar, in both directions: what it consumes is
derivable, and what is derivable it consumes and nothing more, provided that what comes next cannot
be taken for more of the same. The arguments of `has` and `not` are whatever `readInner` accepts
(`Accepted`) until the last step, where an induction on the length of the pattern puts `Pattern` in
its place.

* `readPattern_eq_ok_iff`: a whole pattern, relative to how arguments are read.
* `parseWithin_eq_ok_iff`: a bound above the length of the pattern does not matter.
* `parse_eq_ok_iff`: reading succeeds exactly on the patterns of the grammar, with the selector
  that the grammar gives.
-/

namespace Arborist.Selector

open Text Grammar

section Readers

variable {pattern : String} {readInner : String → Except Flaw Selector}
  {cursor middle after : Cursor} {cs : List Char} {s : Selector}

/-! ## Values, operators and attributes -/

/-- A name that is not empty is a name of the grammar. -/
theorem isName_readName (h : ¬(readName cursor).1.isEmpty = true) :
    IsName (readName cursor).1.toList := by
  refine ⟨fun hnil => h ?_, (reads_readName cursor).2⟩
  rw [String.isEmpty_iff, ← String.toList_eq_nil_iff]
  exact hnil

theorem not_isEmpty_of_isName {name : String} (h : IsName name.toList) :
    ¬name.isEmpty = true := by
  rw [String.isEmpty_iff, ← String.toList_eq_nil_iff]
  exact h.1

theorem named_eq_ok_iff {value : String} :
    readValue.named pattern cursor = .ok (value, after) ↔
      ¬value.isEmpty = true ∧ readName cursor = (value, after) := by
  unfold readValue.named
  rcases readName cursor with ⟨name, rest⟩
  dsimp only
  by_cases hname : name.isEmpty = true
  · rw [if_pos hname]
    refine iff_of_false (by rintro ⟨⟩) ?_
    rintro ⟨hvalue, ⟨⟩⟩
    exact hvalue hname
  · rw [if_neg hname]
    constructor
    · rintro ⟨⟩
      exact ⟨hname, rfl⟩
    · rintro ⟨-, ⟨⟩⟩
      rfl

/-- What is read as a value is one, behind blanks. -/
theorem value_of_readValue {value : String}
    (h : readValue pattern cursor = .ok (value, after)) :
    ∃ blanks written, cursor.Reads (blanks ++ written) after ∧
      Blanks blanks ∧ Value written value := by
  obtain ⟨blanks, hblanks, hskip⟩ := cursor.exists_reads_skipBlanks
  suffices hwritten : ∃ written, cursor.skipBlanks.Reads written after ∧ Value written value by
    obtain ⟨written, hreads, hvalue⟩ := hwritten
    exact ⟨blanks, written, hskip.trans hreads, hblanks, hvalue⟩
  have hnamed : readValue.named pattern cursor.skipBlanks = .ok (value, after) →
      ∃ written, cursor.skipBlanks.Reads written after ∧ Value written value := by
    intro h
    obtain ⟨hvalue, hname⟩ := named_eq_ok_iff.mp h
    have hreads := reads_readName cursor.skipBlanks
    have hisName : IsName (readName cursor.skipBlanks).1.toList :=
      isName_readName (by rwa [hname])
    rw [hname] at hreads hisName
    exact ⟨value.toList, hreads.1, .name hisName⟩
  unfold readValue at h
  dsimp only at h
  split at h
  · next c cs hrest =>
    split at h
    · next hquote =>
      have hquote := isQuote_iff.mp hquote
      simp only [bind_eq_ok_iff, expect_eq_ok_iff, pure_eq_ok_iff, Prod.mk.injEq] at h
      obtain ⟨closing, hclosing, rfl, rfl⟩ := h
      have hbody : (quotedBody c cs).2 = c :: closing.rest := hclosing.rest
      obtain ⟨written, hcs, hwritten⟩ := quotedText_of_quotedBody hquote hbody
      refine ⟨c :: written ++ [c], ⟨?_, ?_⟩, .quoted hquote (by simpa using hwritten)⟩
      · rw [hrest, hcs]
        simp
      · have hposition := hclosing.position
        have hlength : cs.length = written.length + (closing.rest.length + 1) := by
          rw [hcs, List.length_append, List.length_cons]
        rw [hbody] at hposition
        simp only [List.length_append, List.length_cons, List.length_nil] at hposition ⊢
        omega
    · exact hnamed h
  · exact hnamed h

/-- A value behind blanks is read, if no name goes on behind it. -/
theorem readValue_of_value {blanks written : List Char} {value : String}
    (hreads : cursor.Reads (blanks ++ written) after) (hblanks : Blanks blanks)
    (hvalue : Value written value) (hstops : Stops isNameChar after.rest) :
    readValue pattern cursor = .ok (value, after) := by
  obtain ⟨start, hskip, hwritten⟩ := hreads.split
  have hstart : Stops isBlank start.rest := by
    rw [hwritten.rest]
    exact hvalue.stops_isBlank after.rest
  unfold readValue
  rw [hskip.skipBlanks_eq hblanks hstart]
  cases hvalue with
  | name hname =>
      have hnamed : readValue.named pattern start = .ok (value, after) :=
        named_eq_ok_iff.mpr ⟨not_isEmpty_of_isName hname, readName_eq hwritten hname.2 hstops⟩
      obtain ⟨c, cs, hcs, hc⟩ := hname.exists_eq_cons
      have hrest : start.rest = c :: (cs ++ after.rest) := by
        rw [hwritten.rest, hcs, List.cons_append]
      have hquotes : ¬(c == '"' || c == '\'') = true := by
        rw [isQuote_iff]
        exact fun hquote => ne_of_isNameChar hc hquote.mem_punctuation rfl
      simp only [hrest, if_neg hquotes, hnamed]
  | @quoted quote written _ hquote hquoted =>
      have hrest : start.rest = quote :: (written ++ quote :: after.rest) := by
        simpa using hwritten.rest
      have hquotes := isQuote_iff.mpr hquote
      have hposition := hwritten.position
      simp only [hrest, if_pos hquotes, quotedBody_of_quotedText hquote hquoted, bind_eq_ok_iff,
        expect_eq_ok_iff, pure_eq_ok_iff, Prod.mk.injEq, String.ofList_toList, true_and]
      refine ⟨after, ⟨rfl, ?_⟩, rfl⟩
      simp only [List.length_append, List.length_cons, List.length_nil] at hposition ⊢
      omega

theorem operatorText_symbol : ∀ operator ∈ Operator.all,
    OperatorText operator.symbol.toList operator := by
  simp only [Operator.all, List.forall_mem_cons, List.not_mem_nil, false_imp_iff, implies_true,
    and_true]
  exact ⟨.hasWord, .startsWith, .endsWith, .contains, .equals⟩

/-- The operator that is read is the one whose symbol comes next. -/
theorem readOperator_eq_some_iff {operator : Operator} :
    readOperator cursor = some (operator, after) ↔
      ∃ symbol, OperatorText symbol operator ∧ cursor.Reads symbol after := by
  unfold readOperator
  constructor
  · intro h
    obtain ⟨found, hfound, heq⟩ := Option.map_eq_some_iff.mp h
    obtain ⟨rfl, rfl⟩ := Prod.mk.inj heq
    have hnext : found.symbol.toList <+: cursor.rest := by
      have hmatch := List.find?_some hfound
      exact List.isPrefixOf_iff_prefix.mp hmatch
    refine ⟨_, operatorText_symbol found (List.mem_of_find?_eq_some hfound), ?_⟩
    rw [← String.length_toList]
    exact Cursor.reads_advance hnext
  · rintro ⟨symbol, hsymbol, hreads⟩
    have hfind : Operator.all.find? (fun operator => operator.symbol.toList.isPrefixOf cursor.rest)
        = some operator := by
      rw [hreads.rest]
      cases hsymbol <;> simp [Operator.all, Operator.symbol]
    have hlength : operator.symbol.length = symbol.length := by
      cases hsymbol <;> rfl
    rw [hfind, Option.map_some, hlength, hreads.advance_eq]

/-- What is read as an attribute is one. -/
theorem attribute_of_readAttribute (h : readAttribute pattern cursor = .ok (s, after)) :
    ∃ cs, cursor.Reads cs after ∧ Attribute cs s := by
  unfold readAttribute at h
  simp only [bind_eq_ok_iff, expect_eq_ok_iff, refuse_eq_ok_iff] at h
  obtain ⟨opened, hopen, hname, h⟩ := h
  obtain ⟨b₁, hb₁, hskip₁⟩ := opened.exists_reads_skipBlanks
  obtain ⟨hreadName, -⟩ := reads_readName opened.skipBlanks
  obtain ⟨b₂, hb₂, hskip₂⟩ := (readName opened.skipBlanks).2.exists_reads_skipBlanks
  have hstart := ((hopen.trans hskip₁).trans hreadName).trans hskip₂
  split at h
  · next hnone =>
    simp only [Cursor.skipBlanks_skipBlanks, bind_eq_ok_iff, expect_eq_ok_iff, pure_eq_ok_iff,
      Prod.mk.injEq] at h
    obtain ⟨closed, hclose, rfl, rfl⟩ := h
    exact ⟨_, hstart.trans hclose, .present hb₁ (isName_readName hname) hb₂⟩
  · next operator valued hsome =>
    simp only [bind_eq_ok_iff, expect_eq_ok_iff, pure_eq_ok_iff, Prod.mk.injEq] at h
    obtain ⟨⟨value, valueEnd⟩, hvalue, closed, hclose, rfl, rfl⟩ := h
    obtain ⟨symbol, hsymbol, hreadSymbol⟩ := readOperator_eq_some_iff.mp hsome
    obtain ⟨b₃, written, hreadValue, hb₃, hwritten⟩ := value_of_readValue hvalue
    obtain ⟨b₄, hb₄, hskip₄⟩ := valueEnd.exists_reads_skipBlanks
    refine ⟨_, ?_, .compared hb₁ (isName_readName hname) hb₂ hsymbol hb₃ hwritten hb₄⟩
    have hall := (((hstart.trans hreadSymbol).trans hreadValue).trans hskip₄).trans hclose
    rw [← List.append_assoc] at hall
    exact hall

/-- No operator starts with a bracket. -/
theorem readOperator_eq_none (h : cursor.Reads [']'] after) : readOperator cursor = none := by
  rw [Option.eq_none_iff_forall_ne_some]
  rintro ⟨operator, operatorEnd⟩ hsome
  obtain ⟨symbol, hsymbol, hreads⟩ := readOperator_eq_some_iff.mp hsome
  obtain ⟨c, cs, rfl, -, hc⟩ := hsymbol.exists_eq_cons
  have hhead : c :: (cs ++ operatorEnd.rest) = ']' :: after.rest := hreads.rest.symm.trans h.rest
  exact hc (List.cons.inj hhead).1

/-- How the two forms of an attribute begin is read up to the second run of blanks. -/
theorem readName_of_bracket {b₁ b₂ : List Char} {name : String} {start : Cursor}
    (hreads : cursor.Reads ('[' :: b₁ ++ name.toList ++ b₂) start) (hb₁ : Blanks b₁)
    (hname : IsName name.toList) (hb₂ : Blanks b₂) (hblank : Stops isBlank start.rest)
    (hstops : Stops isNameChar start.rest) :
    ∃ opened named, cursor.Reads ['['] opened ∧
      readName opened.skipBlanks = (name, named) ∧ named.skipBlanks = start := by
  obtain ⟨named, hreads, hskip₂⟩ := hreads.split
  obtain ⟨nameStart, hreads, hreadName⟩ := hreads.split
  rw [← List.singleton_append] at hreads
  obtain ⟨opened, hopen, hskip₁⟩ := hreads.split
  have hnameStart : opened.skipBlanks = nameStart := by
    refine hskip₁.skipBlanks_eq hb₁ ?_
    rw [hreadName.rest]
    exact hname.stops_isBlank named.rest
  refine ⟨opened, named, hopen, ?_, hskip₂.skipBlanks_eq hb₂ hblank⟩
  rw [hnameStart]
  refine readName_eq hreadName hname.2 ?_
  rw [hskip₂.rest]
  exact hb₂.stops_isNameChar hstops

/-- An attribute is read, whatever follows it. -/
theorem readAttribute_of_attribute (hreads : cursor.Reads cs after) (h : Attribute cs s) :
    readAttribute pattern cursor = .ok (s, after) := by
  unfold readAttribute
  simp only [bind_eq_ok_iff, expect_eq_ok_iff, refuse_eq_ok_iff]
  cases h with
  | present hb₁ hname hb₂ =>
      obtain ⟨closing, hreads, hclose⟩ := hreads.split
      have hstops : Stops isBlank closing.rest ∧ Stops isNameChar closing.rest := by
        rw [hclose.rest]
        exact stops_punctuation (by decide)
      obtain ⟨opened, named, hopen, hreadName, hskip⟩ :=
        readName_of_bracket hreads hb₁ hname hb₂ hstops.1 hstops.2
      have hclosing : closing.skipBlanks = closing :=
        (Cursor.Reads.refl closing).skipBlanks_eq Blanks.nil hstops.1
      refine ⟨opened, hopen, ?_⟩
      simp only [hreadName, hskip, readOperator_eq_none hclose, hclosing, bind_eq_ok_iff,
        expect_eq_ok_iff, pure_eq_ok_iff, Prod.mk.injEq, true_and]
      exact ⟨not_isEmpty_of_isName hname, after, hclose, rfl⟩
  | @compared b₁ b₂ b₃ b₄ symbol written name value operator hb₁ hname hb₂ hsymbol hb₃ hvalue hb₄ =>
      -- From the right: the bracket, blanks, the value with the blanks before it, the operator.
      obtain ⟨closing, hreads, hclose⟩ := hreads.split
      obtain ⟨valueEnd, hreads, hskip₄⟩ := hreads.split
      rw [List.append_assoc _ b₃] at hreads
      obtain ⟨symbolEnd, hreads, hreadValue⟩ := hreads.split
      obtain ⟨start, hreads, hreadSymbol⟩ := hreads.split
      have hstops : Stops isBlank start.rest ∧ Stops isNameChar start.rest := by
        obtain ⟨c, cs, rfl, hc, -⟩ := hsymbol.exists_eq_cons
        rw [hreadSymbol.rest]
        exact stops_punctuation hc
      have hstops' : Stops isBlank closing.rest ∧ Stops isNameChar closing.rest := by
        rw [hclose.rest]
        exact stops_punctuation (by decide)
      obtain ⟨opened, named, hopen, hreadName, hskip⟩ :=
        readName_of_bracket hreads hb₁ hname hb₂ hstops.1 hstops.2
      have hoperator := readOperator_eq_some_iff.mpr ⟨symbol, hsymbol, hreadSymbol⟩
      have hvalueEnd : Stops isNameChar valueEnd.rest := by
        rw [hskip₄.rest]
        exact hb₄.stops_isNameChar hstops'.2
      refine ⟨opened, hopen, ?_⟩
      simp only [hreadName, hskip, hoperator, bind_eq_ok_iff, expect_eq_ok_iff, pure_eq_ok_iff,
        readValue_of_value hreadValue hb₃ hvalue hvalueEnd]
      refine ⟨not_isEmpty_of_isName hname, (value, valueEnd), rfl, after, ?_, rfl⟩
      rw [hskip₄.skipBlanks_eq hb₄ hstops'.1]
      exact hclose

/-! ## Pseudo-selectors -/

/-- What `readInner` makes of an argument that is not blank. -/
def Accepted (readInner : String → Except Flaw Selector) (cs : List Char) (s : Selector) : Prop :=
  allBlank (String.ofList cs) = false ∧ readInner (String.ofList cs) = .ok s

theorem takesPattern_iff {name : String} :
    takesPattern name = true ↔ name = "has" ∨ name = "not" := by
  simp [takesPattern]

theorem isName_of_takesPattern {name : String} (h : name = "has" ∨ name = "not") :
    IsName name.toList := by
  rcases h with rfl | rfl
  · exact ⟨by decide, List.all_eq_true.mp (by decide +kernel)⟩
  · exact ⟨by decide, List.all_eq_true.mp (by decide +kernel)⟩

/-- If a parenthesis is found behind an argument, the argument and the parenthesis were read. -/
theorem reads_argument {opened closed : Cursor}
    (h : Cursor.Reads ⟨(argument 0 none opened.rest).rest,
      opened.position + (argument 0 none opened.rest).width⟩ [')'] closed) :
    opened.Reads ((argument 0 none opened.rest).text ++ [')']) closed ∧
      Balanced (argument 0 none opened.rest).text := by
  obtain ⟨hdivides, hbalanced⟩ := balanced_of_argument h.rest
  exact ⟨hdivides.reads.trans h, hbalanced⟩

/-- What is read as a pseudo-selector is one. -/
theorem part_of_readPseudo (h : readPseudo pattern readInner cursor = .ok (s, after)) :
    ∃ cs, cursor.Reads cs after ∧ Part (Accepted readInner) cs s := by
  unfold readPseudo at h
  simp only [bind_eq_ok_iff, expect_eq_ok_iff, refuse_eq_ok_iff] at h
  obtain ⟨colon, hcolon, hname, h⟩ := h
  have hname := isName_readName hname
  have hstart := hcolon.trans (reads_readName colon).1
  generalize (readName colon).1 = name at *
  generalize (readName colon).2 = named at *
  split at h
  · obtain ⟨rfl, rfl⟩ := Prod.mk.inj (pure_eq_ok_iff.mp h)
    exact ⟨_, hstart, .bare hname⟩
  · next hparenthesis =>
    have hopen : ['('] <+: named.rest := by
      rw [List.singleton_prefix_iff_head?_eq_some]
      simpa using hparenthesis
    have hstart := hstart.trans (Cursor.reads_advance hopen)
    simp only [bind_eq_ok_iff, expect_eq_ok_iff] at h
    obtain ⟨closed, hclose, h⟩ := h
    obtain ⟨hargument, hbalanced⟩ := reads_argument hclose
    have hreads := hstart.trans hargument
    generalize (argument 0 none (named.advance 1).rest).text = text at *
    have hform : [':'] ++ name.toList ++ ['('] ++ (text ++ [')'])
        = ':' :: name.toList ++ '(' :: (String.ofList text).toList ++ [')'] := by simp
    rw [hform] at hreads
    rw [← String.toList_ofList (l := text)] at hbalanced
    split at h
    · next hverbatim =>
      obtain ⟨rfl, rfl⟩ := Prod.mk.inj (pure_eq_ok_iff.mp h)
      have hname' : ¬(name = "has" ∨ name = "not") := by
        rw [← takesPattern_iff]
        simpa using hverbatim
      obtain ⟨hhas, hnot⟩ := not_or.mp hname'
      exact ⟨_, hreads, .verbatim hname hhas hnot hbalanced⟩
    · next hpattern =>
      simp only [refuse_eq_ok_iff, bind_eq_ok_iff, pure_eq_ok_iff, Prod.mk.injEq] at h
      obtain ⟨hblank, inner, hinner, rfl, rfl⟩ := h
      have hname' : name = "has" ∨ name = "not" := by
        rw [← takesPattern_iff]
        simpa using hpattern
      refine ⟨_, hreads, .pattern hname' hbalanced ⟨?_, ?_⟩⟩
      · rw [String.ofList_toList]
        simpa using hblank
      · rw [String.ofList_toList]
        exact hinner

/-- A pseudo-selector without an argument is read, if none can start behind it. -/
theorem readPseudo_of_bare {name : String} (hreads : cursor.Reads (':' :: name.toList) after)
    (hname : IsName name.toList) (hends : EndsPart after.rest) :
    readPseudo pattern readInner cursor = .ok (.pseudo name none none, after) := by
  rw [← List.singleton_append] at hreads
  obtain ⟨colon, hcolon, hreadName⟩ := hreads.split
  unfold readPseudo
  simp only [bind_eq_ok_iff, expect_eq_ok_iff, refuse_eq_ok_iff]
  refine ⟨colon, hcolon, ?_⟩
  have hhead : (after.rest.head? != some '(') = true := by simpa using hends.head?_ne_parenthesis
  rw [readName_eq hreadName hname.2 hends.stops_isNameChar]
  simp only [hhead, if_true]
  exact ⟨not_isEmpty_of_isName hname, rfl⟩

/-- The name of a pseudo-selector is read up to the parenthesis that opens its argument. -/
theorem readName_of_parenthesis {name : String} {opened : Cursor}
    (hreads : cursor.Reads (':' :: name.toList ++ ['(']) opened) (hname : IsName name.toList) :
    ∃ colon named, cursor.Reads [':'] colon ∧ readName colon = (name, named) ∧
      (named.rest.head? != some '(') = false ∧ named.advance 1 = opened := by
  obtain ⟨named, hreads, hopen⟩ := hreads.split
  rw [← List.singleton_append] at hreads
  obtain ⟨colon, hcolon, hreadName⟩ := hreads.split
  have hrest : named.rest = '(' :: opened.rest := hopen.rest
  refine ⟨colon, named, hcolon, readName_eq hreadName hname.2 ?_, ?_, hopen.advance_eq⟩
  · rw [hrest]
    exact (stops_punctuation (by decide)).2
  · rw [hrest]
    rfl

/-- A pseudo-selector with an argument is read up to its parenthesis. -/
theorem readPseudo_of_argument {name argument : String}
    (hreads : cursor.Reads (':' :: name.toList ++ '(' :: argument.toList ++ [')']) after)
    (hname : IsName name.toList) (hbalanced : Balanced argument.toList) :
    readPseudo pattern readInner cursor =
      if takesPattern name then
        if allBlank argument then .error (flawAt pattern after (.emptyArgument name))
        else (readInner argument).map fun inner =>
          (.pseudo name (some argument) (some inner), after)
      else .ok (.pseudo name (some argument) none, after) := by
  have hform : ':' :: name.toList ++ '(' :: argument.toList ++ [')']
      = (':' :: name.toList ++ ['(']) ++ (argument.toList ++ [')']) := by simp
  rw [hform] at hreads
  obtain ⟨opened, hreads, hargument⟩ := hreads.split
  obtain ⟨colon, named, hcolon, hreadName, hhead, hadvance⟩ := readName_of_parenthesis hreads hname
  have hfound : Selector.argument 0 none opened.rest
      = ⟨argument.toList, ')' :: after.rest, argument.toList.length⟩ := by
    rw [hargument.rest, List.append_assoc]
    exact argument_of_balanced hbalanced after.rest
  have hclose : Cursor.Reads ⟨')' :: after.rest, opened.position + argument.toList.length⟩ [')']
      after := by
    refine ⟨rfl, ?_⟩
    rw [hargument.position, List.length_append, Nat.add_assoc]
  unfold readPseudo
  rw [expect_eq_ok_iff.mpr hcolon]
  simp only [ok_bind, hreadName, not_isEmpty_of_isName hname, hhead, hadvance, hfound,
    expect_eq_ok_iff.mpr hclose, String.ofList_toList, Bool.false_eq_true, if_false]
  cases takesPattern name with
  | false => rfl
  | true =>
      cases allBlank argument with
      | true => rfl
      | false => cases readInner argument <;> rfl

/-! ## Parts and compounds -/

/-- What is read as parts are parts. -/
theorem parts_of_readParts {steps : Nat} {parts : List Selector}
    (h : readParts pattern readInner steps cursor = .ok (parts, after)) :
    ∃ cs, cursor.Reads cs after ∧ Parts (Accepted readInner) cs parts := by
  induction steps generalizing cursor parts with
  | zero =>
      obtain ⟨rfl, rfl⟩ := Prod.mk.inj (Except.ok.inj h)
      exact ⟨[], .refl cursor, .nil⟩
  | succ steps ih =>
      have hcons : ∀ {middle : Cursor} {part : Selector} {cs : List Char} {rest : List Selector},
          cursor.Reads cs middle → Part (Accepted readInner) cs part →
          readParts pattern readInner steps middle = .ok (rest, after) →
          ∃ cs, cursor.Reads cs after ∧ Parts (Accepted readInner) cs (part :: rest) := by
        intro middle part cs rest hreads hpart hrest
        obtain ⟨ds, hreads', hparts⟩ := ih hrest
        exact ⟨cs ++ ds, hreads.trans hreads', .cons hpart hparts⟩
      rw [readParts] at h
      split at h
      · simp only [bind_eq_ok_iff, pure_eq_ok_iff, Prod.mk.injEq] at h
        obtain ⟨⟨part, middle⟩, hpart, ⟨rest, _⟩, hrest, rfl, rfl⟩ := h
        obtain ⟨cs, hreads, hattribute⟩ := attribute_of_readAttribute hpart
        exact hcons hreads (.bracketed hattribute) hrest
      · simp only [bind_eq_ok_iff, pure_eq_ok_iff, Prod.mk.injEq] at h
        obtain ⟨⟨part, middle⟩, hpart, ⟨rest, _⟩, hrest, rfl, rfl⟩ := h
        obtain ⟨cs, hreads, hpseudo⟩ := part_of_readPseudo hpart
        exact hcons hreads hpseudo hrest
      · obtain ⟨rfl, rfl⟩ := Prod.mk.inj (pure_eq_ok_iff.mp h)
        exact ⟨[], .refl cursor, .nil⟩

/-- There are no parts where a compound ends. -/
theorem readParts_of_endsCompound (h : EndsCompound cursor.rest) (steps : Nat) :
    readParts pattern readInner steps cursor = .ok ([], cursor) := by
  cases steps with
  | zero => rfl
  | succ steps =>
      rw [readParts]
      split
      · next hhead =>
        rcases h '[' hhead with hc | hc
        · cases hc
        · cases hc.symm.trans (isBlank_of_mem_punctuation '[' (by decide))
      · next hhead =>
        rcases h ':' hhead with hc | hc
        · cases hc
        · cases hc.symm.trans (isBlank_of_mem_punctuation ':' (by decide))
      · rfl

/-- A part is read by the reader that its first character calls for. -/
theorem read_of_part (pattern : String) {part : Selector} (hreads : cursor.Reads cs middle)
    (hpart : Part (Accepted readInner) cs part) (hends : EndsPart middle.rest) :
    (cursor.rest.head? = some '[' ∧ readAttribute pattern cursor = .ok (part, middle)) ∨
      (cursor.rest.head? = some ':' ∧
        readPseudo pattern readInner cursor = .ok (part, middle)) := by
  have hhead : cursor.rest.head? = (cs ++ middle.rest).head? := by rw [hreads.rest]
  cases hpart with
  | bracketed hattribute =>
      obtain ⟨ds, rfl⟩ := hattribute.exists_eq_cons
      exact .inl ⟨hhead, readAttribute_of_attribute hreads hattribute⟩
  | bare hname => exact .inr ⟨hhead, readPseudo_of_bare hreads hname hends⟩
  | verbatim hname hhas hnot hbalanced =>
      refine .inr ⟨hhead, ?_⟩
      rw [readPseudo_of_argument hreads hname hbalanced, if_neg]
      rw [takesPattern_iff]
      exact not_or.mpr ⟨hhas, hnot⟩
  | pattern hname hbalanced hinner =>
      refine .inr ⟨hhead, ?_⟩
      obtain ⟨hblank, hread⟩ := hinner
      rw [String.ofList_toList] at hblank hread
      rw [readPseudo_of_argument hreads (isName_of_takesPattern hname) hbalanced,
        if_pos (takesPattern_iff.mpr hname), if_neg (Bool.eq_false_iff.mp hblank), hread]
      rfl

/-- Parts are read one after the other, and a step is left for each character behind them. -/
theorem readParts_append (pattern : String) {parts : List Selector}
    (hparts : Parts (Accepted readInner) cs parts) (hreads : cursor.Reads cs after)
    (hends : EndsPart after.rest) {steps : Nat} (hsteps : cs.length ≤ steps) :
    ∃ spare, steps ≤ cs.length + spare ∧
      readParts pattern readInner steps cursor = (readParts pattern readInner spare after).map
        fun found => (parts ++ found.1, found.2) := by
  induction hparts generalizing cursor steps with
  | nil =>
      obtain rfl := hreads.unique (.refl cursor)
      refine ⟨steps, Nat.le_add_left _ _, ?_⟩
      cases readParts pattern readInner steps after <;> rfl
  | @cons cs ds part parts hpart hparts ih =>
      obtain ⟨middle, hreadPart, hreadParts⟩ := hreads.split
      have hmiddle : EndsPart middle.rest := by
        rw [hreadParts.rest]
        exact hparts.endsPart_append hends
      -- A part takes at least one of the steps.
      obtain ⟨c, es, rfl, -⟩ := hpart.exists_eq_cons
      rw [List.length_append, List.length_cons] at hsteps
      obtain ⟨steps, rfl⟩ : ∃ n, steps = n + 1 := ⟨steps - 1, by omega⟩
      have hrest : ds.length ≤ steps := by omega
      obtain ⟨spare, hspare, hread⟩ := ih hreadParts hrest
      refine ⟨spare, by rw [List.length_append, List.length_cons]; omega, ?_⟩
      rw [readParts]
      rcases read_of_part pattern hreadPart hpart hmiddle with ⟨hhead, hpart⟩ | ⟨hhead, hpart⟩
      · simp only [hhead, hpart, hread, ok_bind]
        cases readParts pattern readInner spare after <;> rfl
      · simp only [hhead, hpart, hread, ok_bind]
        cases readParts pattern readInner spare after <;> rfl

/-- Parts are read to the end of the compound. -/
theorem readParts_of_parts {parts : List Selector} (hparts : Parts (Accepted readInner) cs parts)
    (hreads : cursor.Reads cs after) (hends : EndsCompound after.rest) {steps : Nat}
    (hsteps : cs.length ≤ steps) :
    readParts pattern readInner steps cursor = .ok (parts, after) := by
  obtain ⟨spare, -, hread⟩ := readParts_append pattern hparts hreads hends.endsPart hsteps
  rw [hread, readParts_of_endsCompound hends]
  simp [Except.map]

theorem together_iff {parts : List Selector} :
    Together parts s ↔ parts ≠ [] ∧ together parts = s := by
  constructor
  · rintro (⟨⟩ | ⟨⟩)
    · exact ⟨List.cons_ne_nil _ _, rfl⟩
    · exact ⟨List.cons_ne_nil _ _, rfl⟩
  · rintro ⟨hne, rfl⟩
    match parts, hne with
    | [part], _ => exact .one
    | first :: second :: rest, _ => exact .several

/-- The name that is read is a kind, if its first character may start one. -/
theorem isKindName_readName (h : (cursor.rest.head?.map isNameStart).getD false = true) :
    IsKindName (readName cursor).1.toList := by
  unfold readName
  rw [String.toList_ofList]
  cases hrest : cursor.rest with
  | nil =>
      rw [hrest] at h
      cases h
  | cons c cs =>
      rw [hrest] at h
      rw [List.takeWhile_cons_of_pos (isNameChar_of_isNameStart h)]
      exact .cons h fun d hd => List.mem_takeWhile_imp hd

/-- What is read as a compound is one. -/
theorem compound_of_readCompound (h : readCompound pattern readInner cursor = .ok (s, after)) :
    ∃ cs, cursor.Reads cs after ∧ Compound (Accepted readInner) cs s := by
  unfold readCompound at h
  simp only [bind_eq_ok_iff, refuse_eq_ok_iff, pure_eq_ok_iff, Prod.mk.injEq] at h
  obtain ⟨⟨parts, _⟩, hparts, hne, htogether, rfl⟩ := h
  have htogether := together_iff.mpr ⟨by simpa using hne, htogether⟩
  split at hparts
  · next hkind =>
    rw [if_pos hkind] at htogether
    obtain ⟨cs, hreads, hparts⟩ := parts_of_readParts hparts
    have hname := isKindName_readName hkind
    exact ⟨_, (reads_readName cursor).1.trans hreads, .kind hname hparts htogether⟩
  · next hkind =>
    rw [if_neg hkind] at htogether
    obtain ⟨cs, hreads, hparts⟩ := parts_of_readParts hparts
    exact ⟨cs, hreads, .parts hparts htogether⟩

/-- A compound is read to its end. -/
theorem readCompound_of_compound (hcompound : Compound (Accepted readInner) cs s)
    (hreads : cursor.Reads cs after) (hends : EndsCompound after.rest) :
    readCompound pattern readInner cursor = .ok (s, after) := by
  unfold readCompound
  simp only [bind_eq_ok_iff, refuse_eq_ok_iff, pure_eq_ok_iff, Prod.mk.injEq]
  cases hcompound with
  | @kind name ds parts _ hname hparts htogether =>
      obtain ⟨named, hreadName, hreadParts⟩ := hreads.split
      have hstops : Stops isNameChar named.rest := by
        rw [hreadParts.rest]
        exact (hparts.endsPart_append hends.endsPart).stops_isNameChar
      have hkind : (cursor.rest.head?.map isNameStart).getD false = true := by
        obtain ⟨c, es, hcs, hc⟩ := hname.exists_eq_cons
        rw [hreadName.rest, hcs]
        exact hc
      obtain ⟨hne, htogether⟩ := together_iff.mp htogether
      rw [readName_eq hreadName hname.isName.2 hstops, if_pos hkind]
      exact ⟨(parts, after), readParts_of_parts hparts hreadParts hends hreadParts.length_le,
        by simp, htogether, rfl⟩
  | @parts _ parts _ hparts htogether =>
      obtain ⟨hne, htogether⟩ := together_iff.mp htogether
      have hkind : ¬(cursor.rest.head?.map isNameStart).getD false = true := by
        rcases hparts.eq_nil_or_exists_eq_cons with ⟨-, rfl⟩ | ⟨c, ds, rfl, hc⟩
        · exact absurd rfl hne
        · rw [hreads.rest]
          exact Bool.eq_false_iff.mp (isNameStart_of_startsPart hc)
      rw [if_neg hkind]
      exact ⟨(parts, after), readParts_of_parts hparts hreads hends hreads.length_le,
        by simpa using hne, htogether, rfl⟩

/-! ## Chains -/

/-- Blanks at the end of a text that does not end in one are none. -/
theorem eq_nil_of_blanks {blanks : List Char} (hblanks : Blanks blanks)
    (h : Stops isBlank blanks.reverse) : blanks = [] := by
  rcases List.eq_nil_or_concat blanks with rfl | ⟨cs, c, rfl⟩
  · rfl
  · have hc := h c (by simp)
    rw [hblanks c (by simp)] at hc
    cases hc

section Links

variable {left right : Selector} {blanks blanks' ds : List Char}

/-- A step of a chain goes over `>` to the next compound. -/
theorem readChain_succ_arrow {start : Cursor}
    (hreads : cursor.Reads (blanks ++ '>' :: blanks') start) (hblanks : Blanks blanks)
    (hblanks' : Blanks blanks') (hstart : Stops isBlank start.rest) (steps : Nat) :
    readChain pattern readInner left (steps + 1) cursor
      = (readCompound pattern readInner start >>= fun found =>
          readChain pattern readInner (.child left found.1) steps found.2) := by
  have hform : blanks ++ '>' :: blanks' = blanks ++ (['>'] ++ blanks') := by simp
  rw [hform] at hreads
  obtain ⟨arrow, hskip, hreads⟩ := hreads.split
  obtain ⟨behind, harrow, hskip'⟩ := hreads.split
  have hrest : arrow.rest = '>' :: behind.rest := harrow.rest
  have hstops : Stops isBlank arrow.rest := by
    rw [hrest]
    exact (stops_punctuation (by decide)).1
  have hadvance : arrow.advance 1 = behind := harrow.advance_eq
  rw [readChain, hskip.skipBlanks_eq hblanks hstops]
  simp only [hrest, hadvance, hskip'.skipBlanks_eq hblanks' hstart, beq_self_eq_true, if_true]

/-- A step of a chain goes over blanks to the next compound. -/
theorem readChain_succ_blanks {start : Cursor} {c : Char} (hreads : cursor.Reads blanks start)
    (hblanks : Blanks blanks) (hne : blanks ≠ []) (hrest : start.rest = c :: cs)
    (hblank : isBlank c = false) (hc : c ≠ '>') (steps : Nat) :
    readChain pattern readInner left (steps + 1) cursor
      = (readCompound pattern readInner start >>= fun found =>
          readChain pattern readInner (.descendant left found.1) steps found.2) := by
  have hstops : Stops isBlank start.rest := by
    rw [hrest]
    exact stops_cons hblank
  have hposition : cursor.position < start.position := by
    rw [hreads.position]
    exact Nat.lt_add_of_pos_right (List.length_pos_iff.mpr hne)
  rw [readChain, hreads.skipBlanks_eq hblanks hstops]
  simp only [hrest, beq_iff_eq, hc, if_false, hposition, if_true]

variable (pattern readInner left) in
/-- What a step of a chain can do: end the chain, go over `>` or over blanks to the next compound,
or refuse what comes next. -/
theorem readChain_succ_cases (steps : Nat) (cursor : Cursor) :
    (cursor.skipBlanks.rest = [] ∧
      readChain pattern readInner left (steps + 1) cursor = .ok left) ∨
    (∃ blanks blanks' start, Blanks blanks ∧ Blanks blanks' ∧
      cursor.Reads (blanks ++ '>' :: blanks') start ∧
      readChain pattern readInner left (steps + 1) cursor
        = (readCompound pattern readInner start >>= fun found =>
            readChain pattern readInner (.child left found.1) steps found.2)) ∨
    (∃ blanks start, Blanks blanks ∧ blanks ≠ [] ∧ cursor.Reads blanks start ∧
      readChain pattern readInner left (steps + 1) cursor
        = (readCompound pattern readInner start >>= fun found =>
            readChain pattern readInner (.descendant left found.1) steps found.2)) ∨
    ∃ c, readChain pattern readInner left (steps + 1) cursor
      = .error (flawAt pattern cursor.skipBlanks (.unexpected c)) := by
  obtain ⟨blanks, hblanks, hskip⟩ := cursor.exists_reads_skipBlanks
  cases hrest : cursor.skipBlanks.rest with
  | nil =>
      refine .inl ⟨rfl, ?_⟩
      rw [readChain]
      simp only [hrest]
      rfl
  | cons c cs =>
      by_cases hc : c = '>'
      · subst hc
        obtain ⟨blanks', hblanks', hskip'⟩ :=
          (cursor.skipBlanks.advance 1).exists_reads_skipBlanks
        have harrow : cursor.skipBlanks.Reads ['>'] (cursor.skipBlanks.advance 1) := by
          refine Cursor.reads_advance ?_
          rw [hrest]
          exact List.prefix_append ['>'] cs
        have hreads := hskip.trans (harrow.trans hskip')
        exact .inr (.inl ⟨blanks, blanks', _, hblanks, hblanks', hreads,
          readChain_succ_arrow hreads hblanks hblanks' (Cursor.stops_skipBlanks _) steps⟩)
      · by_cases hne : blanks = []
        · -- Without blanks before it, the character continues nothing.
          have hposition : ¬cursor.position < cursor.skipBlanks.position := by
            rw [hskip.position, hne]
            exact Nat.lt_irrefl _
          refine .inr (.inr (.inr ⟨c, ?_⟩))
          rw [readChain]
          simp only [hrest, beq_iff_eq, hc, hposition, if_false]
          rfl
        · have hblank : isBlank c = false := cursor.stops_skipBlanks c (by rw [hrest]; rfl)
          exact .inr (.inr (.inl ⟨blanks, _, hblanks, hne, hskip,
            readChain_succ_blanks hskip hblanks hne hrest hblank hc steps⟩))

/-- What is read as the rest of a chain continues it, to the end of the text. -/
theorem chain_of_readChain {steps : Nat} (h : readChain pattern readInner left steps cursor = .ok s)
    (hsteps : cursor.rest.length < steps) (hend : Stops isBlank cursor.rest.reverse)
    (hleft : Chain (Accepted readInner) cs left) :
    Chain (Accepted readInner) (cs ++ cursor.rest) s := by
  induction steps generalizing cursor left cs with
  | zero => exact absurd hsteps (Nat.not_lt_zero _)
  | succ steps ih =>
      -- A link of the chain takes at least one character, so the steps suffice for what is left.
      have hcontinue : ∀ {next : Cursor} {longer : Selector} {link : List Char},
          cursor.Reads link next → link ≠ [] → Chain (Accepted readInner) (cs ++ link) longer →
          readChain pattern readInner longer steps next = .ok s →
          Chain (Accepted readInner) (cs ++ cursor.rest) s := by
        intro next longer link hreads hlink hlonger hnext
        have hpositive := List.length_pos_iff.mpr hlink
        rw [hreads.rest, List.length_append] at hsteps
        rw [hreads.rest, List.reverse_append] at hend
        rw [hreads.rest, ← List.append_assoc]
        exact ih hnext (by omega) hend.of_append hlonger
      rcases readChain_succ_cases pattern readInner left steps cursor with
        ⟨hrest, hstep⟩ | ⟨blanks, blanks', start, hblanks, hblanks', hlink, hstep⟩ |
          ⟨blanks, start, hblanks, hne, hlink, hstep⟩ | ⟨c, hstep⟩
      · cases hstep.symm.trans h
        obtain ⟨blanks, hblanks, hskip⟩ := cursor.exists_reads_skipBlanks
        rw [hskip.rest, hrest, List.append_nil] at hend ⊢
        rw [eq_nil_of_blanks hblanks hend, List.append_nil]
        exact hleft
      · obtain ⟨⟨right, next⟩, hright, h⟩ := bind_eq_ok_iff.mp (hstep.symm.trans h)
        obtain ⟨es, hreadRight, hcompound⟩ := compound_of_readCompound hright
        refine hcontinue (hlink.trans hreadRight) (by simp) ?_ h
        rw [← List.append_assoc, ← List.append_assoc]
        exact .child hleft hblanks hblanks' hcompound
      · obtain ⟨⟨right, next⟩, hright, h⟩ := bind_eq_ok_iff.mp (hstep.symm.trans h)
        obtain ⟨es, hreadRight, hcompound⟩ := compound_of_readCompound hright
        refine hcontinue (hlink.trans hreadRight) (by simp [hne]) ?_ h
        rw [← List.append_assoc]
        exact .descendant hleft hblanks hne hcompound
      · cases hstep.symm.trans h

/-- A step of a chain goes over `>` and a compound. -/
theorem readChain_succ_child (hreads : cursor.Reads (blanks ++ '>' :: blanks' ++ ds) after)
    (hblanks : Blanks blanks) (hblanks' : Blanks blanks')
    (hright : Compound (Accepted readInner) ds right) (hends : EndsCompound after.rest)
    (steps : Nat) :
    readChain pattern readInner left (steps + 1) cursor
      = readChain pattern readInner (.child left right) steps after := by
  obtain ⟨start, harrow, hreadRight⟩ := hreads.split
  have hstart : Stops isBlank start.rest := by
    obtain ⟨c, es, rfl, hc, -⟩ := hright.exists_eq_cons
    rw [hreadRight.rest]
    exact stops_cons hc
  rw [readChain_succ_arrow harrow hblanks hblanks' hstart,
    readCompound_of_compound hright hreadRight hends, ok_bind]

/-- A step of a chain goes over blanks and a compound. -/
theorem readChain_succ_descendant (hreads : cursor.Reads (blanks ++ ds) after)
    (hblanks : Blanks blanks) (hne : blanks ≠ [])
    (hright : Compound (Accepted readInner) ds right) (hends : EndsCompound after.rest)
    (steps : Nat) :
    readChain pattern readInner left (steps + 1) cursor
      = readChain pattern readInner (.descendant left right) steps after := by
  obtain ⟨start, hskip, hreadRight⟩ := hreads.split
  obtain ⟨c, es, hcs, hblank, hc⟩ := hright.exists_eq_cons
  have hrest : start.rest = c :: (es ++ after.rest) := by
    rw [hreadRight.rest, hcs, List.cons_append]
  rw [readChain_succ_blanks hskip hblanks hne hrest hblank hc,
    readCompound_of_compound hright hreadRight hends, ok_bind]

end Links

variable (pattern readInner) in
/-- A chain from its first compound on. -/
def readFrom (cursor : Cursor) : Except Flaw Selector := do
  let (left, next) ← readCompound pattern readInner cursor
  readChain pattern readInner left (next.rest.length + 1) next

/-- A step over a link of the chain keeps enough steps for what follows. -/
theorem readFrom_link {leftEnd : Cursor} {link : List Char} {left longer : Selector}
    (hlink : leftEnd.Reads link after) (hne : link ≠ [])
    (hread : ∃ steps, leftEnd.rest.length < steps ∧
      readFrom pattern readInner cursor = readChain pattern readInner left steps leftEnd)
    (hstep : ∀ steps, readChain pattern readInner left (steps + 1) leftEnd
      = readChain pattern readInner longer steps after) :
    ∃ steps, after.rest.length < steps ∧
      readFrom pattern readInner cursor = readChain pattern readInner longer steps after := by
  obtain ⟨steps, hsteps, hread⟩ := hread
  have hpositive := List.length_pos_iff.mpr hne
  rw [hlink.rest, List.length_append] at hsteps
  obtain ⟨steps, rfl⟩ : ∃ n, steps = n + 1 := ⟨steps - 1, by omega⟩
  exact ⟨steps, by omega, hread.trans (hstep steps)⟩

/-- A chain is read to its end, with steps to spare for what follows it. -/
theorem readFrom_of_chain (pattern : String) (hchain : Chain (Accepted readInner) cs s)
    (hreads : cursor.Reads cs after) (hends : EndsCompound after.rest) :
    ∃ steps, after.rest.length < steps ∧
      readFrom pattern readInner cursor = readChain pattern readInner s steps after := by
  induction hchain generalizing after with
  | compound hcompound =>
      refine ⟨after.rest.length + 1, Nat.lt_succ_self _, ?_⟩
      unfold readFrom
      rw [readCompound_of_compound hcompound hreads hends, ok_bind]
  | @child cs blanks blanks' ds left right _ hblanks hblanks' hright ih =>
      have hform : cs ++ blanks ++ '>' :: blanks' ++ ds
          = cs ++ (blanks ++ '>' :: blanks' ++ ds) := by simp
      rw [hform] at hreads
      obtain ⟨leftEnd, hreadLeft, hlink⟩ := hreads.split
      have hleftEnd : EndsCompound leftEnd.rest := by
        rw [hlink.rest, List.append_assoc, List.append_assoc]
        refine hblanks.endsCompound fun _ c hc => .inl ?_
        simpa using hc.symm
      exact readFrom_link hlink (by simp) (ih hreadLeft hleftEnd)
        (readChain_succ_child hlink hblanks hblanks' hright hends)
  | @descendant cs blanks ds left right _ hblanks hne hright ih =>
      rw [List.append_assoc] at hreads
      obtain ⟨leftEnd, hreadLeft, hlink⟩ := hreads.split
      have hleftEnd : EndsCompound leftEnd.rest := by
        rw [hlink.rest, List.append_assoc]
        exact hblanks.endsCompound fun hnil => absurd hnil hne
      exact readFrom_link hlink (by simp [hne]) (ih hreadLeft hleftEnd)
        (readChain_succ_descendant hlink hblanks hne hright hends)

end Readers

/-! ## Patterns -/

theorem stops_reverse_strip (cs : List Char) : Stops isBlank (strip cs).reverse := by
  unfold strip trimBoth
  rw [List.reverse_reverse]
  exact stops_dropWhile isBlank _

theorem length_strip_le (cs : List Char) : (strip cs).length ≤ cs.length := by
  unfold strip trimBoth
  rw [List.length_reverse]
  calc ((cs.dropWhile isBlank).reverse.dropWhile isBlank).length
    _ ≤ (cs.dropWhile isBlank).reverse.length := (List.dropWhile_suffix _).length_le
    _ = (cs.dropWhile isBlank).length := List.length_reverse
    _ ≤ cs.length := (List.dropWhile_suffix _).length_le

/-- There is nothing left of blanks. -/
theorem strip_eq_nil {cs : List Char} (h : Blanks cs) : strip cs = [] := by
  unfold strip trimBoth
  rw [List.dropWhile_eq_nil_iff.mpr h]
  rfl

/-- A pattern is read exactly if it is a chain, where arguments are what `readInner` accepts. -/
theorem readPattern_eq_ok_iff {pattern : String} {readInner : String → Except Flaw Selector}
    {s : Selector} :
    readPattern pattern readInner = .ok s ↔
      Chain (Accepted readInner) (strip pattern.toList) s := by
  have hread : readPattern pattern readInner = .ok s ↔ strip pattern.toList ≠ [] ∧
      readFrom pattern readInner ⟨strip pattern.toList, 0⟩ = .ok s := by
    unfold readPattern
    rw [refuse_eq_ok_iff, List.isEmpty_iff]
    rfl
  rw [hread]
  constructor
  · rintro ⟨-, h⟩
    obtain ⟨⟨left, next⟩, hleft, h⟩ := bind_eq_ok_iff.mp h
    obtain ⟨cs, hreads, hcompound⟩ := compound_of_readCompound hleft
    have hrest : strip pattern.toList = cs ++ next.rest := hreads.rest
    -- What is left behind the first compound does not end in a blank either.
    have hend := stops_reverse_strip pattern.toList
    rw [hrest, List.reverse_append] at hend
    rw [hrest]
    exact chain_of_readChain h (Nat.lt_succ_self _) hend.of_append (.compound hcompound)
  · intro h
    have hreads : Cursor.Reads ⟨strip pattern.toList, 0⟩ (strip pattern.toList)
        ⟨[], (strip pattern.toList).length⟩ := ⟨(List.append_nil _).symm, (Nat.zero_add _).symm⟩
    obtain ⟨steps, hsteps, hread⟩ := readFrom_of_chain pattern h hreads (fun c hc => by cases hc)
    obtain ⟨steps, rfl⟩ : ∃ n, steps = n + 1 := ⟨steps - 1, by omega⟩
    exact ⟨h.ne_nil, hread⟩

/-- A pattern of the grammar is not blank. -/
theorem allBlank_of_pattern {cs : List Char} {s : Selector} (h : Pattern cs s) :
    allBlank (String.ofList cs) = false := by
  obtain ⟨hchain⟩ := h
  refine Bool.eq_false_iff.mpr fun hblank => hchain.ne_nil (strip_eq_nil ?_)
  simpa [allBlank, Blanks] using hblank

/-- Where arguments are read by the grammar, those that are accepted are its patterns. -/
theorem accepted_iff {readInner : String → Except Flaw Selector} {cs : List Char} {s : Selector}
    (h : readInner (String.ofList cs) = .ok s ↔ Pattern cs s) :
    Accepted readInner cs s ↔ Pattern cs s := by
  unfold Accepted
  rw [h]
  constructor
  · exact fun haccepted => haccepted.2
  · exact fun hpattern => ⟨allBlank_of_pattern hpattern, hpattern⟩

/-- With a bound above its length a pattern is read exactly if it is one of the grammar. The
arguments are shorter, so by induction they are read with the bound that is left. -/
theorem parseWithin_eq_ok_iff {depth : Nat} {pattern : String} {s : Selector}
    (h : pattern.length < depth) :
    parseWithin depth pattern = .ok s ↔ Pattern pattern.toList s := by
  induction depth generalizing pattern s with
  | zero => exact absurd h (Nat.not_lt_zero _)
  | succ depth ih =>
      have hinner : ∀ cs t, cs.length < (strip pattern.toList).length →
          (Accepted (parseWithin depth) cs t ↔ Pattern cs t) := by
        intro cs t hcs
        have hlength : (String.ofList cs).length < depth := by
          have hstrip := length_strip_le pattern.toList
          rw [String.length_toList] at hstrip
          rw [String.length_ofList]
          omega
        refine accepted_iff ?_
        rw [ih hlength, String.toList_ofList]
      rw [parseWithin, readPattern_eq_ok_iff]
      constructor
      · intro hchain
        exact .mk (hchain.mono (fun cs t hcs => (hinner cs t hcs).mp) le_rfl)
      · rintro ⟨hchain⟩
        exact hchain.mono (fun cs t hcs => (hinner cs t hcs).mpr) le_rfl

/-- What is read is a pattern of the grammar. -/
theorem pattern_of_parse {pattern : String} {s : Selector} (h : parse pattern = .ok s) :
    Pattern pattern.toList s :=
  (parseWithin_eq_ok_iff (Nat.lt_succ_self pattern.length)).mp h

/-- A pattern of the grammar is read. -/
theorem parse_of_pattern {pattern : String} {s : Selector} (h : Pattern pattern.toList s) :
    parse pattern = .ok s :=
  (parseWithin_eq_ok_iff (Nat.lt_succ_self pattern.length)).mpr h

/-- Reading a pattern gives a selector exactly if the grammar derives it from the pattern. -/
theorem parse_eq_ok_iff (pattern : String) (s : Selector) :
    parse pattern = .ok s ↔ Pattern pattern.toList s :=
  parseWithin_eq_ok_iff (Nat.lt_succ_self pattern.length)

end Arborist.Selector
