import Arborist.Proofs.Revision.Removal
import Arborist.Proofs.Selector.Printing

/-!
# Calls named for short

In a removal a text can name calls: `console.log` and `debug()` stand for the calls whose text
contains them. The text is put between double quotes in a pattern, with a backslash before each of
its own double quotes, and the pattern is then read like any other. Writing and reading do not treat
backslashes alike, so not every text comes back.

A text in which backslashes stand before a double quote or at the end in even numbers only is read
as what was meant. Any other makes a pattern that cannot be read at all, and in particular not as
something else (`Draft.parse_removalPattern`). The reason is that reading has no choice. The pattern
ends in a quote and a bracket, so it ends in an attribute with a value in double quotes
(`Chain.exists_attribute`, `Attribute.exists_quoted`). The quote that opens this value does not
follow a backslash, and among those that were written before the last one, only the first does not
(`Selector.quote_after_backslash`).
-/

namespace Arborist

open Text

/-! ## Escaped quotes -/

namespace Selector

variable {quote : Char} {before after value other : List Char}

/-- In an escaped text every quote directly follows a backslash. -/
theorem quote_after_backslash (hquote : quote ≠ '\\')
    (h : escaped quote value = before ++ quote :: after) :
    ∃ earlier, before = earlier ++ ['\\'] := by
  induction value generalizing before with
  | nil => simp [escaped] at h
  | cons c cs ih =>
      by_cases hc : c = quote
      · subst hc
        rw [escaped_quote] at h
        cases before with
        | nil => exact absurd (List.cons.inj h).1.symm hquote
        | cons b before =>
            obtain ⟨rfl, htail⟩ := List.cons.inj h
            cases before with
            | nil => exact ⟨[], rfl⟩
            | cons b before =>
                obtain ⟨earlier, rfl⟩ := ih (List.cons.inj htail).2
                exact ⟨'\\' :: b :: earlier, rfl⟩
      · rw [escaped_cons hc] at h
        cases before with
        | nil => exact absurd (List.cons.inj h).1 hc
        | cons b before =>
            obtain ⟨earlier, rfl⟩ := ih (List.cons.inj h).2
            exact ⟨b :: earlier, rfl⟩

/-- A text is known from its escaped form: before a quote a backslash has to go. -/
theorem escaped_injective (hquote : quote ≠ '\\') (h : escaped quote value = escaped quote other) :
    value = other := by
  -- A quote of one text cannot meet another character of the other.
  have hmixed : ∀ {c : Char} {cs ds : List Char}, c ≠ quote →
      escaped quote (quote :: cs) ≠ escaped quote (c :: ds) := by
    intro c cs ds hc h
    rw [escaped_quote, escaped_cons hc] at h
    have hfirst : escaped quote ds = [] ++ quote :: escaped quote cs := (List.cons.inj h).2.symm
    obtain ⟨earlier, hnil⟩ := quote_after_backslash hquote hfirst
    simp at hnil
  induction value generalizing other with
  | nil =>
      cases other with
      | nil => rfl
      | cons d ds =>
          by_cases hd : d = quote
          · simp [escaped, hd] at h
          · simp [escaped, hd] at h
  | cons c cs ih =>
      cases other with
      | nil =>
          by_cases hc : c = quote
          · simp [escaped, hc] at h
          · simp [escaped, hc] at h
      | cons d ds =>
          by_cases hc : c = quote <;> by_cases hd : d = quote
          · rw [hc, hd] at h ⊢
            rw [escaped_quote, escaped_quote] at h
            rw [ih (List.cons.inj (List.cons.inj h).2).2]
          · rw [hc] at h
            exact absurd h (hmixed hd)
          · rw [hd] at h
            exact absurd h.symm (hmixed hc)
          · rw [escaped_cons hc, escaped_cons hd] at h
            obtain ⟨rfl, htail⟩ := List.cons.inj h
            rw [ih htail]

/-- Behind the first quote of a text stands an escaped one. What stands behind any quote is then the
same, unless that quote follows a backslash. -/
theorem eq_of_quote_append_eq {lead : List Char} (hquote : quote ≠ '\\') (hlead : quote ∉ lead)
    (hbefore : before.getLast? ≠ some '\\')
    (h : before ++ quote :: after = lead ++ quote :: escaped quote value) :
    after = escaped quote value := by
  rcases List.append_eq_append_iff.mp h with ⟨more, rfl, hmore⟩ | ⟨more, rfl, hmore⟩
  · cases more with
    | nil => exact (List.cons.inj hmore).2
    | cons m more =>
        obtain ⟨rfl, -⟩ := List.cons.inj hmore
        simp at hlead
  · cases more with
    | nil => exact (List.cons.inj hmore).2.symm
    | cons m more =>
        obtain ⟨rfl, hescaped⟩ := List.cons.inj hmore
        obtain ⟨earlier, rfl⟩ := quote_after_backslash hquote hescaped
        rw [← List.cons_append, ← List.append_assoc, List.getLast?_concat] at hbefore
        exact absurd rfl hbefore

end Selector

/-! ## Patterns that end in a quoted value -/

namespace Selector.Grammar

variable {Inner : List Char → Selector → Prop} {cs : List Char} {s : Selector}
  {parts : List Selector}

/-- A part that ends in a bracket is an attribute. -/
theorem Part.attribute_of_getLast? (h : Part Inner cs s) (hlast : cs.getLast? = some ']') :
    Attribute cs s := by
  cases h with
  | bracketed h => exact h
  | @bare name hname =>
      have hmem := List.mem_of_getLast? hlast
      rcases List.mem_cons.mp hmem with hcolon | hmem
      · cases hcolon
      · exact absurd rfl (ne_of_isNameChar (hname.2 ']' hmem) (by decide))
  | verbatim =>
      rw [List.getLast?_concat] at hlast
      cases hlast
  | pattern =>
      rw [List.getLast?_concat] at hlast
      cases hlast

theorem Parts.exists_attribute (h : Parts Inner cs parts) (hlast : cs.getLast? = some ']') :
    ∃ before written part, cs = before ++ written ∧ Attribute written part := by
  induction h with
  | nil => cases hlast
  | @cons cs ds part parts hpart hparts ih =>
      rw [List.getLast?_append] at hlast
      cases hds : ds.getLast? with
      | none =>
          rw [hds, Option.none_or] at hlast
          rw [List.getLast?_eq_none_iff.mp hds, List.append_nil]
          exact ⟨[], cs, part, rfl, hpart.attribute_of_getLast? hlast⟩
      | some last =>
          rw [hds, Option.some_or] at hlast
          obtain ⟨before, written, found, rfl, hfound⟩ := ih (hds.trans hlast)
          exact ⟨cs ++ before, written, found, (List.append_assoc _ _ _).symm, hfound⟩

theorem Compound.exists_attribute (h : Compound Inner cs s) (hlast : cs.getLast? = some ']') :
    ∃ before written part, cs = before ++ written ∧ Attribute written part := by
  cases h with
  | @kind name cs parts _ hname hparts _ =>
      rw [List.getLast?_append] at hlast
      cases hcs : cs.getLast? with
      | none =>
          -- A kind alone ends in a character of its name.
          rw [hcs, Option.none_or] at hlast
          have hmem := List.mem_of_getLast? hlast
          exact absurd rfl (ne_of_isNameChar (hname.isName.2 ']' hmem) (by decide))
      | some last =>
          rw [hcs, Option.some_or] at hlast
          obtain ⟨before, written, part, rfl, hpart⟩ := hparts.exists_attribute (hcs.trans hlast)
          exact ⟨name.toList ++ before, written, part, (List.append_assoc _ _ _).symm, hpart⟩
  | parts hparts _ => exact hparts.exists_attribute hlast

/-- What ends in a bracket ends in an attribute. -/
theorem Chain.exists_attribute (h : Chain Inner cs s) (hlast : cs.getLast? = some ']') :
    ∃ before written part, cs = before ++ written ∧ Attribute written part := by
  have hright : ∀ {before ds : List Char} {right : Selector}, Compound Inner ds right →
      (before ++ ds).getLast? = some ']' →
      ∃ earlier written part, before ++ ds = earlier ++ written ∧ Attribute written part := by
    intro before ds right hcompound hlast
    rw [List.getLast?_append_of_ne_nil _ hcompound.ne_nil] at hlast
    obtain ⟨earlier, written, part, rfl, hpart⟩ := hcompound.exists_attribute hlast
    exact ⟨before ++ earlier, written, part, (List.append_assoc _ _ _).symm, hpart⟩
  cases h with
  | compound h => exact h.exists_attribute hlast
  | child _ _ _ h => exact hright h hlast
  | descendant _ _ _ h => exact hright h hlast

theorem Blanks.notMem (h : Blanks cs) {c : Char} (hc : isBlank c = false) : c ∉ cs := by
  intro hmem
  cases (h c hmem).symm.trans hc

theorem IsName.notMem (h : IsName cs) {c : Char} (hc : isNameChar c = false) : c ∉ cs := by
  intro hmem
  cases (h.2 c hmem).symm.trans hc

/-- If an attribute ends in a quote and a bracket, the quote closes a value. No backslash stands
before such a value. -/
theorem Attribute.exists_quoted {before body : List Char} (h : Attribute cs s)
    (hcs : before ++ cs = body ++ ['"'] ++ [']']) :
    ∃ lead written value, body = before ++ lead ++ '"' :: written ∧ lead ≠ [] ∧ '\\' ∉ lead ∧
      QuotedText '"' written value := by
  have hblank : isBlank '"' = false ∧ isBlank '\\' = false := by decide +kernel
  have hname : isNameChar '"' = false ∧ isNameChar '\\' = false := by decide +kernel
  -- What stands between the brackets is not empty, so the quote is its last character.
  have hlast : ∀ core : List Char, core ≠ [] → cs = core ++ [']'] → core.getLast? = some '"' := by
    intro core hne hcore
    rw [hcore, ← List.append_assoc] at hcs
    rw [← List.getLast?_append_of_ne_nil before hne, (List.append_inj' hcs rfl).1,
      List.getLast?_concat]
  cases h with
  | present hbefore hword hafter =>
      have hmem := List.mem_of_getLast? (hlast _ (by simp) rfl)
      simp [hbefore.notMem hblank.1, hword.notMem hname.1, hafter.notMem hblank.1] at hmem
  | @compared b₁ b₂ b₃ b₄ symbol written name value operator h₁ hword h₂ hoperator h₃ hvalue h₄ =>
      have hlast := hlast _ (by simp) rfl
      obtain rfl : b₄ = [] := by
        rw [← List.getLast?_eq_none_iff, Option.eq_none_iff_forall_ne_some]
        intro c hc
        rw [List.getLast?_append, hc, Option.some_or] at hlast
        exact h₄.notMem hblank.1 (Option.some.inj hlast ▸ List.mem_of_getLast? hc)
      rw [List.append_nil] at hlast hcs
      cases hvalue with
      | name hword' =>
          rw [List.getLast?_append_of_ne_nil _ hword'.1] at hlast
          exact absurd (List.mem_of_getLast? hlast) (hword'.notMem hname.1)
      | @quoted quote written _ _ htext =>
          rw [← List.append_assoc, List.getLast?_concat] at hlast
          obtain rfl := Option.some.inj hlast
          refine ⟨'[' :: b₁ ++ name.toList ++ b₂ ++ symbol ++ b₃, written, value.toList, ?_, ?_, ?_,
            htext⟩
          · simp only [← List.append_assoc] at hcs
            have hbody := (List.append_inj' (List.append_inj' hcs rfl).1 rfl).1
            simpa using hbody.symm
          · simp
          · have hsymbol : '\\' ∉ symbol := by cases hoperator <;> decide
            simp [h₁.notMem hblank.2, hword.notMem hname.2, h₂.notMem hblank.2, hsymbol,
              h₃.notMem hblank.2]

end Selector.Grammar

/-! ## Reading the pattern of calls -/

namespace Draft

open Selector Grammar

variable {value : List Char} {s : Selector}

theorem escapeQuotes_eq (cs : List Char) : escapeQuotes cs = escaped '"' cs := by
  have hone : ∀ c : Char, (if c == '"' then ['\\', '"'] else [c]) =
      if c = '"' then ['\\', c] else [c] := by
    intro c
    by_cases hc : c = '"'
    · subst hc
      rfl
    · simp [hc]
  unfold escapeQuotes escaped
  simp only [hone]

/-- What the pattern of calls consists of. -/
theorem toList_callPattern (value : List Char) :
    (callPattern value).toList =
      "call_expression[text*=".toList ++ '"' :: escaped '"' value ++ ['"'] ++ [']'] := by
  have hlead : "call_expression[text*=\"".toList = "call_expression[text*=".toList ++ ['"'] := by
    decide +kernel
  have hend : "\"]".toList = ['"'] ++ [']'] := by decide
  have hvalue : (String.ofList (escapeQuotes value)).toList = escaped '"' value := by
    rw [String.toList_ofList, escapeQuotes_eq]
  show ("call_expression[text*=\"" ++ String.ofList (escapeQuotes value) ++ "\"]").toList = _
  rw [String.toList_append, String.toList_append, hlead, hvalue, hend]
  generalize "call_expression[text*=".toList = lead
  simp

/-- A value with its backslashes in pairs is read as what was meant. -/
theorem parse_callPattern (h : ¬OddRun '"' value) :
    parse (callPattern value) = .ok (.all
      [.kind "call_expression", .attr "text" .contains (some (String.ofList value))]) := by
  have hquote : IsQuote '"' := .inl rfl
  have hvalue : Grammar.Value ('"' :: escaped '"' value ++ ['"']) (String.ofList value) := by
    refine .quoted hquote ?_
    rw [String.toList_ofList]
    exact (quotedText_iff hquote).mpr ⟨rfl, h⟩
  have hword : IsName "text".toList := ⟨by decide, List.all_eq_true.mp (by decide +kernel)⟩
  have hattribute := Attribute.compared Blanks.nil hword Blanks.nil .contains Blanks.nil hvalue
    Blanks.nil
  have hkind : IsKindName "call_expression".toList := by
    rw [show "call_expression".toList = 'c' :: "all_expression".toList by decide +kernel]
    exact .cons (by decide +kernel) (List.all_eq_true.mp (by decide +kernel))
  have hcompound : Compound Pattern _ _ := .kind hkind (Part.bracketed hattribute).parts .several
  apply parse_of_pattern
  have hsplit : "call_expression[text*=".toList =
      "call_expression".toList ++ '[' :: "text".toList ++ ['*', '='] := by decide +kernel
  rw [toList_callPattern, hsplit]
  have hpattern := hcompound.isPattern ?_
  · simpa using hpattern
  · rw [← List.append_assoc]
    exact stops_reverse_concat (by decide) _

/-- A value for which the pattern can be read, whatever as, has its backslashes in pairs. -/
theorem not_oddRun_of_parse (h : parse (callPattern value) = .ok s) : ¬OddRun '"' value := by
  have hquote : IsQuote '"' := .inl rfl
  have hbackslash : '"' ≠ '\\' := by decide
  have hlead : '"' ∉ "call_expression[text*=".toList := by decide +kernel
  have hstart : "call_expression[text*=".toList = 'c' :: "all_expression[text*=".toList := by
    decide +kernel
  obtain ⟨hchain⟩ := pattern_of_parse h
  rw [toList_callPattern] at hchain
  generalize "call_expression[text*=".toList = lead at hchain hlead hstart
  have hstrip : strip (lead ++ '"' :: escaped '"' value ++ ['"'] ++ [']']) =
      lead ++ '"' :: escaped '"' value ++ ['"'] ++ [']'] := by
    have hstops : Stops isBlank (lead ++ '"' :: escaped '"' value ++ ['"'] ++ [']']) := by
      rw [hstart]
      exact stops_cons (by decide)
    have hstrip := strip_eq_of_blanks Blanks.nil Blanks.nil (by simp) hstops
      (stops_reverse_concat (by decide) _)
    rwa [List.nil_append, List.append_nil] at hstrip
  rw [hstrip] at hchain
  obtain ⟨before, written, part, hsplit, hattribute⟩ :=
    hchain.exists_attribute List.getLast?_concat
  obtain ⟨inside, text, read, hbody, hne, hfree, htext⟩ := hattribute.exists_quoted hsplit.symm
  have hbehind : (before ++ inside).getLast? ≠ some '\\' := by
    rw [List.getLast?_append_of_ne_nil _ hne]
    intro hlast
    exact hfree (List.mem_of_getLast? hlast)
  have hwritten := eq_of_quote_append_eq hbackslash hlead hbehind hbody.symm
  obtain ⟨hread, hrun⟩ := (quotedText_iff hquote).mp htext
  rwa [escaped_injective hbackslash (hwritten.symm.trans hread)]

/-! ## Which texts name calls -/

/-- A text with a dot that has neither a bracket nor a blank. -/
def Dotted (text : String) : Prop :=
  '.' ∈ text.toList ∧ '[' ∉ text.toList ∧ ∀ c ∈ text.toList, isBlank c = false

/-- A text names the calls that contain a value: a dotted text itself, any other that ends in `()`
what it is without its last character. -/
inductive NamesCalls (text : String) : List Char → Prop
  | dotted : Dotted text → NamesCalls text text.toList
  | called {name : List Char} :
      ¬Dotted text → text.toList = name ++ ['(', ')'] → NamesCalls text (name ++ ['('])

variable {text : String}

theorem dotted_iff : (text.toList.contains '.' && !text.toList.contains '[' &&
    !text.toList.any isBlank) = true ↔ Dotted text := by
  simp [Dotted, and_assoc]

instance (text : String) : Decidable (Dotted text) := decidable_of_iff _ dotted_iff

theorem removalPattern_of_namesCalls (h : NamesCalls text value) :
    removalPattern text = callPattern value := by
  unfold removalPattern
  dsimp only
  cases h with
  | dotted hdotted => rw [if_pos (dotted_iff.mpr hdotted)]
  | @called name hdotted htext =>
      have hend : ['(', ')'].isSuffixOf text.toList = true := by
        rw [List.isSuffixOf_iff_suffix, htext]
        exact List.suffix_append name _
      rw [if_neg (mt dotted_iff.mp hdotted), if_pos hend, htext]
      congr 1
      rw [List.append_cons, List.length_append, List.length_singleton, Nat.add_sub_cancel,
        List.take_left]

theorem removalPattern_of_not_namesCalls (h : ∀ value, ¬NamesCalls text value) :
    removalPattern text = text := by
  have hdotted : ¬Dotted text := fun hdotted => h _ (.dotted hdotted)
  have hend : ¬['(', ')'].isSuffixOf text.toList = true := by
    intro hend
    obtain ⟨name, hname⟩ := List.isSuffixOf_iff_suffix.mp hend
    exact h _ (.called hdotted hname.symm)
  unfold removalPattern
  dsimp only
  rw [if_neg (mt dotted_iff.mp hdotted), if_neg hend]

/-- A removal by a pattern that cannot be read removes nothing. -/
theorem Sound.perform_remove_of_flaw {draft : Draft} {tree : Tree} {source edited : String}
    {journal : Journal} {flaw : Flaw} (h : draft.Sound tree source edited)
    (hjournal : journal.Reached) (hflaw : parse (removalPattern text) = .error flaw)
    (wholeStatement : Bool) :
    ((draft.perform (.remove (.pattern text) wholeStatement)).run journal).1 = (draft, none) := by
  have hfound : ((draft.resolve (meant (.pattern text))).run journal).1 = .ok [] := by
    have hnever := compile_of_flaw hflaw draft.setting.suggest
    rw [meant, h.run_resolve hjournal hnever, Node.filter_never]
  rw [perform_remove_of_targets hfound .nil, List.map_nil, queue, List.append_nil]

/-- A text that names calls is read as the calls that contain the value, exactly if in the value
backslashes stand before a double quote and at the end in even numbers only. If not, it is not read
as anything, and removing by it removes nothing. A text that does not name calls is left as it
is. -/
theorem parse_removalPattern (text : String) :
    (∀ value, NamesCalls text value →
      (parse (removalPattern text) = .ok (.all
          [.kind "call_expression", .attr "text" .contains (some (String.ofList value))]) ↔
        ¬OddRun '"' value) ∧
      (OddRun '"' value →
        (∃ flaw, parse (removalPattern text) = .error flaw) ∧
        ∀ (draft : Draft) (tree : Tree) (source edited : String) (journal : Journal)
          (wholeStatement : Bool), draft.Sound tree source edited → journal.Reached →
          ((draft.perform (.remove (.pattern text) wholeStatement)).run journal).1 =
            (draft, none))) ∧
    ((∀ value, ¬NamesCalls text value) → removalPattern text = text) := by
  refine ⟨fun value hnames => ?_, removalPattern_of_not_namesCalls⟩
  have hpattern := removalPattern_of_namesCalls hnames
  constructor
  · rw [hpattern]
    exact ⟨not_oddRun_of_parse, parse_callPattern⟩
  · intro hodd
    obtain ⟨flaw, hflaw⟩ : ∃ flaw, parse (removalPattern text) = .error flaw := by
      cases hparse : parse (removalPattern text) with
      | error flaw => exact ⟨flaw, rfl⟩
      | ok s =>
          rw [hpattern] at hparse
          exact absurd hodd (not_oddRun_of_parse hparse)
    refine ⟨⟨flaw, hflaw⟩, ?_⟩
    intro draft tree source edited journal wholeStatement hsound hjournal
    exact hsound.perform_remove_of_flaw hjournal hflaw wholeStatement

/-- Two backslashes before a quote are read back, and one is not. -/
theorem parse_removalPattern_backslashes :
    NamesCalls "a.\\\\\"" "a.\\\\\"".toList ∧
      parse (removalPattern "a.\\\\\"") = .ok (.all
        [.kind "call_expression", .attr "text" .contains (some "a.\\\\\"")]) ∧
      NamesCalls "f \\\"()" ("f \\\"".toList ++ ['(']) ∧
      (∃ flaw, parse (removalPattern "f \\\"()") = .error flaw) ∧
      ((NestedDeclarations.draft.perform (.remove (.pattern "f \\\"()") false)).run {}).1 =
        (NestedDeclarations.draft, none) := by
  have hreached : ({} : Journal).Reached := ⟨[], rfl⟩
  have hdotted : NamesCalls "a.\\\\\"" "a.\\\\\"".toList := .dotted (by decide +kernel)
  have hcalled : NamesCalls "f \\\"()" ("f \\\"".toList ++ ['(']) :=
    .called (by decide +kernel) (by decide +kernel)
  have heven : ¬OddRun '"' "a.\\\\\"".toList := by decide +kernel
  have hodd : OddRun '"' ("f \\\"".toList ++ ['(']) := by decide +kernel
  obtain ⟨hflaw, hnothing⟩ := ((parse_removalPattern "f \\\"()").1 _ hcalled).2 hodd
  exact ⟨hdotted, ((parse_removalPattern "a.\\\\\"").1 _ hdotted).1.mpr heven, hcalled, hflaw,
    hnothing _ _ _ _ {} false NestedDeclarations.sound hreached⟩

end Draft

end Arborist
