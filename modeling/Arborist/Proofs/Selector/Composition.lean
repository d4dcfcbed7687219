import Arborist.Proofs.Selector.Reading

/-!
# Patterns put together

Patterns are texts, and larger ones are written by joining smaller ones: two patterns with ` > ` or
a blank between them, a pattern with a part behind it, a pattern as the argument of `:has` or
`:not`. Joined texts need not mean what their parts mean together, since blanks at the ends of a
pattern are dropped and parentheses have to match. The main results say when they do:

* `Pattern.child`, `Pattern.descendant` — two patterns in a row, the second not a chain;
* `Pattern.extend` — a part directly behind a pattern;
* `Pattern.part` — every pattern can be an argument, since its parentheses match;
* `parse_wrapped_iff` — and is then read as it would be read alone.
-/

namespace Arborist.Selector

open Text

/-- Whether a selector joins two others by `>` or by blanks. -/
def isChain : Selector → Bool
  | .child _ _ => true
  | .descendant _ _ => true
  | _ => false

/-- Require one more part of the node that a selector describes. In a chain that is the node at its
right end. -/
def extend : Selector → Selector → Selector
  | .child left right, part => .child left (right.extend part)
  | .descendant left right, part => .descendant left (right.extend part)
  | .all parts, part => .all (parts ++ [part])
  | s, part => .all [s, part]

namespace Grammar

variable {Inner : List Char → Selector → Prop} {cs ds before core after : List Char}
  {s extra left right : Selector} {items others : List Selector}

/-! ## Blanks at the ends -/

theorem Stops.dropWhile_eq {p : Char → Bool} (h : Stops p cs) : cs.dropWhile p = cs := by
  cases cs with
  | nil => rfl
  | cons c cs => exact List.dropWhile_cons_of_neg (by rw [h c rfl]; exact Bool.false_ne_true)

theorem Stops.append {p : Char → Bool} (h : Stops p cs) (hne : cs ≠ []) (ds : List Char) :
    Stops p (cs ++ ds) := by
  obtain ⟨c, cs, rfl⟩ := List.exists_cons_of_ne_nil hne
  exact stops_cons (h c rfl)

theorem Blanks.append (hcs : Blanks cs) (hds : Blanks ds) : Blanks (cs ++ ds) :=
  List.forall_mem_append.mpr ⟨hcs, hds⟩

theorem blanks_space : Blanks [' '] := by
  rw [Blanks, List.forall_mem_singleton]
  rfl

/-- What is dropped at the ends is blank. -/
theorem exists_eq_append_strip (cs : List Char) :
    ∃ before after, Blanks before ∧ Blanks after ∧ cs = before ++ (strip cs ++ after) := by
  have hstart := List.takeWhile_append_dropWhile (p := isBlank) (l := cs)
  have hend := List.takeWhile_append_dropWhile (p := isBlank) (l := (cs.dropWhile isBlank).reverse)
  refine ⟨cs.takeWhile isBlank, ((cs.dropWhile isBlank).reverse.takeWhile isBlank).reverse,
    fun c hc => List.mem_takeWhile_imp hc, fun c hc => ?_, ?_⟩
  · exact List.mem_takeWhile_imp (List.mem_reverse.mp hc)
  · rw [strip, trimBoth, ← List.reverse_append, hend, List.reverse_reverse, hstart]

theorem stops_strip (cs : List Char) : Stops isBlank (strip cs) := by
  have hcore : strip cs <+: cs.dropWhile isBlank := by
    rw [strip, trimBoth, ← List.reverse_suffix, List.reverse_reverse]
    exact List.dropWhile_suffix isBlank
  obtain ⟨after, hafter⟩ := hcore
  have h := stops_dropWhile isBlank cs
  rw [← hafter] at h
  exact h.of_append

/-- All blanks at the ends are dropped, and nothing else. -/
theorem strip_eq_of_blanks (hbefore : Blanks before) (hafter : Blanks after) (hne : core ≠ [])
    (hstart : Stops isBlank core) (hend : Stops isBlank core.reverse) :
    strip (before ++ (core ++ after)) = core := by
  rw [strip, trimBoth, List.dropWhile_append_of_pos hbefore, (hstart.append hne after).dropWhile_eq,
    List.reverse_append, List.dropWhile_append_of_pos (by simpa [Blanks] using hafter),
    hend.dropWhile_eq, List.reverse_reverse]

/-! ## Patterns in a row -/

/-- What is not a chain is a compound. -/
theorem Chain.compound_of_not_isChain (h : Chain Inner cs s) (hs : s.isChain = false) :
    Compound Inner cs s := by
  cases h with
  | compound h => exact h
  | child => cases hs
  | descendant => cases hs

/-- Of two patterns with a link between them only the outer blanks are dropped: the inner ones
become a part of the link. -/
theorem Pattern.link {link : List Char} (hleft : Pattern cs left) (hright : Pattern ds right)
    (hlink : ∀ before after, Blanks before → Blanks after →
      Chain Pattern (strip cs ++ (before ++ link ++ after) ++ strip ds) s) :
    Pattern (cs ++ link ++ ds) s := by
  obtain ⟨hleft⟩ := hleft
  obtain ⟨hright⟩ := hright
  obtain ⟨b₁, b₂, hb₁, hb₂, hcs⟩ := exists_eq_append_strip cs
  obtain ⟨b₃, b₄, hb₃, hb₄, hds⟩ := exists_eq_append_strip ds
  have hsplit : cs ++ link ++ ds =
      b₁ ++ ((strip cs ++ (b₂ ++ link ++ b₃) ++ strip ds) ++ b₄) := by
    simpa only [List.append_assoc] using congrArg₂ (· ++ link ++ ·) hcs hds
  refine .mk ?_
  rw [hsplit, strip_eq_of_blanks hb₁ hb₄]
  · exact hlink b₂ b₃ hb₂ hb₃
  · exact List.append_ne_nil_of_right_ne_nil _ hright.ne_nil
  · rw [List.append_assoc]
    exact (stops_strip cs).append hleft.ne_nil _
  · rw [List.reverse_append]
    exact (stops_reverse_strip ds).append (List.reverse_ne_nil_iff.mpr hright.ne_nil) _

theorem Pattern.compound_of_not_isChain (h : Pattern cs s) (hs : s.isChain = false) :
    Compound Pattern (strip cs) s := by
  obtain ⟨h⟩ := h
  exact h.compound_of_not_isChain hs

theorem Pattern.child (hleft : Pattern cs left) (hright : Pattern ds right)
    (hcompound : right.isChain = false) :
    Pattern (cs ++ [' ', '>', ' '] ++ ds) (.child left right) := by
  refine hleft.link hright fun before after hbefore hafter => ?_
  obtain ⟨hchain⟩ := hleft
  have h := Chain.child hchain (hbefore.append blanks_space) (blanks_space.append hafter)
    (hright.compound_of_not_isChain hcompound)
  simpa using h

theorem Pattern.descendant (hleft : Pattern cs left) (hright : Pattern ds right)
    (hcompound : right.isChain = false) :
    Pattern (cs ++ [' '] ++ ds) (.descendant left right) := by
  refine hleft.link hright fun before after hbefore hafter => ?_
  obtain ⟨hchain⟩ := hleft
  exact .descendant hchain ((hbefore.append blanks_space).append hafter) (by simp)
    (hright.compound_of_not_isChain hcompound)

/-! ## A part behind a pattern -/

/-- A part by itself is extended like any other single selector. -/
theorem Part.extend_eq {other : Selector} (h : Part Inner cs extra) :
    extra.extend other = .all [extra, other] := by
  cases h with
  | bracketed h => cases h <;> rfl
  | bare => rfl
  | verbatim => rfl
  | pattern => rfl

/-- One more part among those required together. Only a part that stands alone has to be looked at,
since it is not yet marked as required together with others. -/
theorem Together.extend (h : Together items s)
    (hone : ∀ single, items = [single] → single.extend extra = .all [single, extra]) :
    Together (items ++ [extra]) (s.extend extra) := by
  cases h with
  | one =>
      rw [hone _ rfl]
      exact .several
  | several => exact .several

theorem Compound.extend (h : Compound Inner cs s) (hpart : Part Inner ds extra) :
    Compound Inner (cs ++ ds) (s.extend extra) := by
  cases h with
  | kind hname hparts htogether =>
      rw [List.append_assoc]
      refine .kind hname (hparts.append hpart.parts) (htogether.extend ?_)
      rintro single ⟨⟩
      rfl
  | parts hparts htogether =>
      refine .parts (hparts.append hpart.parts) (htogether.extend ?_)
      rintro single rfl
      cases hparts with
      | cons hsingle => exact hsingle.extend_eq

theorem Chain.extend (h : Chain Inner cs s) (hpart : Part Inner ds extra) :
    Chain Inner (cs ++ ds) (s.extend extra) := by
  cases h with
  | compound h => exact .compound (h.extend hpart)
  | child hleft hbefore hafter hright =>
      rw [List.append_assoc]
      exact .child hleft hbefore hafter (hright.extend hpart)
  | descendant hleft hbetween hne hright =>
      rw [List.append_assoc]
      exact .descendant hleft hbetween hne (hright.extend hpart)

/-- A part directly behind a pattern. Blanks between the two would make a chain of them. -/
theorem Pattern.extend (h : Pattern cs s) (hcs : Stops isBlank cs.reverse)
    (hpart : Part Pattern ds extra) (hds : Stops isBlank ds.reverse) :
    Pattern (cs ++ ds) (s.extend extra) := by
  obtain ⟨h⟩ := h
  obtain ⟨before, after, hbefore, hafter, hsplit⟩ := exists_eq_append_strip cs
  obtain rfl : after = [] := by
    have hstops : Stops isBlank (after.reverse ++ (before ++ strip cs).reverse) := by
      rw [← List.reverse_append, List.append_assoc, ← hsplit]
      exact hcs
    exact eq_nil_of_blanks hafter hstops.of_append
  have hne : ds ≠ [] := by
    obtain ⟨c, es, rfl, -⟩ := hpart.exists_eq_cons
    exact List.cons_ne_nil c es
  have hall : cs ++ ds = before ++ ((strip cs ++ ds) ++ []) := by
    simpa only [List.append_assoc, List.append_nil] using congrArg (· ++ ds) hsplit
  refine .mk ?_
  rw [hall, strip_eq_of_blanks hbefore Blanks.nil]
  · exact h.extend hpart
  · exact List.append_ne_nil_of_right_ne_nil _ hne
  · exact (stops_strip cs).append h.ne_nil _
  · rw [List.reverse_append]
    exact hds.append (List.reverse_ne_nil_iff.mpr hne) _

/-! ## Patterns as arguments -/

theorem Balanced.append (h : Balanced cs) (h' : Balanced ds) : Balanced (cs ++ ds) := by
  induction h with
  | nil => exact h'
  | plain hopen hclose hquote _ ih => exact .plain hopen hclose hquote ih
  | quoted hquote htext _ ih =>
      rw [List.append_assoc, List.cons_append]
      exact .quoted hquote htext ih
  | nested hinner _ _ ih =>
      rw [List.append_assoc, List.cons_append]
      exact .nested hinner ih

/-- Characters that an argument does not look at. -/
def Inert (c : Char) : Prop := c ≠ '(' ∧ c ≠ ')' ∧ ¬IsQuote c

theorem balanced_of_inert (h : ∀ c ∈ cs, Inert c) : Balanced cs := by
  induction cs with
  | nil => exact .nil
  | cons c cs ih =>
      obtain ⟨⟨hopen, hclose, hquote⟩, hrest⟩ := List.forall_mem_cons.mp h
      exact .plain hopen hclose hquote (ih hrest)

theorem inert_of_forall_ne {c : Char} (h : ∀ d ∈ punctuation, c ≠ d) : Inert c := by
  refine ⟨h '(' (by decide), h ')' (by decide), ?_⟩
  rintro (rfl | rfl)
  · exact h '"' (by decide) rfl
  · exact h '\'' (by decide) rfl

theorem IsName.balanced (h : IsName cs) : Balanced cs :=
  balanced_of_inert fun c hc => inert_of_forall_ne fun _ hd => ne_of_isNameChar (h.2 c hc) hd

theorem Blanks.balanced (h : Blanks cs) : Balanced cs := by
  refine balanced_of_inert fun c hc => inert_of_forall_ne fun d hd => ?_
  rintro rfl
  cases (h c hc).symm.trans (isBlank_of_mem_punctuation c hd)

theorem OperatorText.balanced {operator : Operator} (h : OperatorText cs operator) :
    Balanced cs := by
  refine balanced_of_inert ?_
  cases h <;> simp [Inert, IsQuote]

theorem Value.balanced {value : String} (h : Value cs value) : Balanced cs := by
  cases h with
  | name hname => exact hname.balanced
  | quoted hquote htext => exact .quoted hquote htext .nil

theorem balanced_sign {c : Char} (h : c ∈ ['[', ']', ':', '>']) : Balanced [c] := by
  have signs : ∀ d ∈ ['[', ']', ':', '>'], Inert d := by simp [Inert, IsQuote]
  exact balanced_of_inert (List.forall_mem_singleton.mpr (signs c h))

theorem balanced_bracket (h : Balanced cs) : Balanced ('[' :: cs ++ [']']) :=
  (balanced_sign (by decide)).append (h.append (balanced_sign (by decide)))

theorem Attribute.balanced (h : Attribute cs s) : Balanced cs := by
  cases h with
  | present hbefore hname hafter =>
      have h := (hbefore.balanced.append hname.balanced).append hafter.balanced
      simpa using balanced_bracket h
  | compared h₁ hname h₂ hoperator h₃ hvalue h₄ =>
      have hleft := (h₁.balanced.append hname.balanced).append h₂.balanced
      have hright := (h₃.balanced.append hvalue.balanced).append h₄.balanced
      simpa using balanced_bracket ((hleft.append hoperator.balanced).append hright)

/-- An argument is balanced, so the parentheses around it match. -/
theorem balanced_pseudo {name argument : List Char} (hname : IsName name)
    (h : Balanced argument) : Balanced (':' :: name ++ '(' :: argument ++ [')']) := by
  have hargument : Balanced ('(' :: argument ++ [')']) := .nested h .nil
  simpa using (balanced_sign (by decide)).append (hname.balanced.append hargument)

theorem Part.balanced (h : Part Inner cs s) : Balanced cs := by
  cases h with
  | bracketed h => exact h.balanced
  | bare hname => exact (balanced_sign (by decide)).append hname.balanced
  | verbatim hname _ _ hargument => exact balanced_pseudo hname hargument
  | pattern hname hargument _ => exact balanced_pseudo (isName_of_takesPattern hname) hargument

theorem Parts.balanced (h : Parts Inner cs items) : Balanced cs := by
  induction h with
  | nil => exact .nil
  | cons hpart _ ih => exact hpart.balanced.append ih

theorem Compound.balanced (h : Compound Inner cs s) : Balanced cs := by
  cases h with
  | kind hname hparts _ => exact hname.isName.balanced.append hparts.balanced
  | parts hparts _ => exact hparts.balanced

theorem Chain.balanced (h : Chain Inner cs s) : Balanced cs := by
  induction h with
  | compound h => exact h.balanced
  | child _ hbefore hafter hright ih =>
      have hsign : Balanced ['>'] := balanced_sign (by decide)
      have h := ((ih.append hbefore.balanced).append hsign).append hafter.balanced
      simpa using h.append hright.balanced
  | descendant _ hbetween _ hright ih => exact (ih.append hbetween.balanced).append hright.balanced

theorem Pattern.balanced (h : Pattern cs s) : Balanced cs := by
  obtain ⟨h⟩ := h
  obtain ⟨before, after, hbefore, hafter, hsplit⟩ := exists_eq_append_strip cs
  rw [hsplit]
  exact hbefore.balanced.append (h.balanced.append hafter.balanced)

/-- Every pattern can be the argument of `has` and `not`. -/
theorem Pattern.part {name argument : String} (h : Pattern argument.toList s)
    (hname : name = "has" ∨ name = "not") :
    Part Pattern (':' :: name.toList ++ '(' :: argument.toList ++ [')'])
      (.pseudo name (some argument) (some s)) :=
  .pattern hname h.balanced h

/-- What is kept beside an argument is what the argument is a pattern for. -/
theorem Pattern.of_pseudo {name argument : String}
    (h : Pattern cs (.pseudo name (some argument) (some s))) : Pattern argument.toList s := by
  -- Neither a chain nor a kind is a pseudo-selector, so it was read as the only part.
  have hcompound := h.compound_of_not_isChain rfl
  generalize strip cs = core at hcompound
  cases hcompound with
  | kind _ _ htogether => cases htogether
  | parts hparts htogether =>
      cases htogether
      cases hparts with
      | cons hpart _ =>
          cases hpart with
          | bracketed hattribute => cases hattribute
          | pattern _ _ hinner => exact hinner

/-- A compound alone is a pattern. -/
theorem Compound.isPattern (h : Compound Pattern cs s) (hcs : Stops isBlank cs.reverse) :
    Pattern cs s := by
  obtain ⟨c, ds, hstart, hc, -⟩ := h.exists_eq_cons
  have hstrip : strip cs = cs := by
    have hblank : Stops isBlank cs := hstart ▸ stops_cons hc
    simpa using strip_eq_of_blanks Blanks.nil Blanks.nil h.ne_nil hblank hcs
  refine .mk ?_
  rw [hstrip]
  exact .compound h

/-- A part alone is a pattern. -/
theorem Part.isPattern (h : Part Pattern cs s) (hcs : Stops isBlank cs.reverse) : Pattern cs s :=
  Compound.isPattern (.parts h.parts .one) hcs

end Grammar

/-! ## Texts of patterns -/

section Parse

open Grammar

variable {first second name argument : String} {s inner left right : Selector}

theorem parse_child (hleft : parse first = .ok left) (hright : parse second = .ok right)
    (hcompound : right.isChain = false) :
    parse (first ++ " > " ++ second) = .ok (.child left right) := by
  refine parse_of_pattern ?_
  rw [String.toList_append, String.toList_append]
  exact (pattern_of_parse hleft).child (pattern_of_parse hright) hcompound

theorem parse_descendant (hleft : parse first = .ok left) (hright : parse second = .ok right)
    (hcompound : right.isChain = false) :
    parse (first ++ " " ++ second) = .ok (.descendant left right) := by
  refine parse_of_pattern ?_
  rw [String.toList_append, String.toList_append]
  exact (pattern_of_parse hleft).descendant (pattern_of_parse hright) hcompound

/-- A pattern in parentheses behind `:has` or `:not`. -/
def pseudoText (name argument : String) : String := ":" ++ name ++ "(" ++ argument ++ ")"

theorem toList_pseudoText (name argument : String) :
    (pseudoText name argument).toList = ':' :: name.toList ++ '(' :: argument.toList ++ [')'] := by
  simp [pseudoText]

theorem stops_reverse_pseudoText (name argument : String) :
    Stops isBlank (pseudoText name argument).toList.reverse := by
  rw [toList_pseudoText, List.reverse_append]
  exact stops_cons (isBlank_of_mem_punctuation ')' (by decide))

theorem part_pseudoText (hname : name = "has" ∨ name = "not") (h : parse argument = .ok inner) :
    Part Pattern (pseudoText name argument).toList (.pseudo name (some argument) (some inner)) := by
  rw [toList_pseudoText]
  exact (pattern_of_parse h).part hname

theorem parse_pseudoText (hname : name = "has" ∨ name = "not") (h : parse argument = .ok inner) :
    parse (pseudoText name argument) = .ok (.pseudo name (some argument) (some inner)) :=
  parse_of_pattern ((part_pseudoText hname h).isPattern (stops_reverse_pseudoText name argument))

/-- A text in parentheses behind `:has` or `:not` is kept as the argument, with a meaning of its
own beside it, exactly if it is a pattern with that meaning. -/
theorem parse_pseudoText_iff (hname : name = "has" ∨ name = "not") :
    parse (pseudoText name argument) = .ok (.pseudo name (some argument) (some inner)) ↔
      parse argument = .ok inner := by
  constructor
  · intro h
    exact parse_of_pattern (pattern_of_parse h).of_pseudo
  · exact parse_pseudoText hname

/-- The scan for the end of an argument stops behind a pattern, at the parenthesis that follows
it. -/
theorem argument_of_parse (h : parse argument = .ok inner) (rest : List Char) :
    Selector.argument 0 none (argument.toList ++ ')' :: rest) =
      ⟨argument.toList, ')' :: rest, argument.length⟩ := by
  rw [argument_of_balanced (pattern_of_parse h).balanced, String.length_toList]

theorem has_eq_pseudoText (argument : String) :
    ":has(" ++ argument ++ ")" = pseudoText "has" argument := by
  rw [← String.toList_inj]
  simp [pseudoText]

theorem not_eq_pseudoText (argument : String) :
    ":not(" ++ argument ++ ")" = pseudoText "not" argument := by
  rw [← String.toList_inj]
  simp [pseudoText]

/-- Wrapped in `:has( )` or `:not( )` a text is cut out again as it is, and read on its own: the
pseudo-selector has it as its argument and `s` as the meaning of the argument exactly if the text is
a pattern for `s`. The scan that cuts the argument out ends behind every pattern, whatever follows
its parenthesis. -/
theorem parse_wrapped_iff (text : String) (s : Selector) :
    (parse (":has(" ++ text ++ ")") = .ok (.pseudo "has" (some text) (some s)) ↔
      parse text = .ok s) ∧
    (parse (":not(" ++ text ++ ")") = .ok (.pseudo "not" (some text) (some s)) ↔
      parse text = .ok s) ∧
    (parse text = .ok s → ∀ rest, Selector.argument 0 none (text.toList ++ ')' :: rest) =
      ⟨text.toList, ')' :: rest, text.length⟩) := by
  rw [has_eq_pseudoText, not_eq_pseudoText]
  exact ⟨parse_pseudoText_iff (.inl rfl), parse_pseudoText_iff (.inr rfl), argument_of_parse⟩

/-- Quoted and escaped parentheses, the other kind of quotes, and an argument that is not read. -/
theorem parse_wrapped_iff_parentheses :
    ∃ s, parse "a[text='\\')\"']:b(c (\")\"))" = .ok s ∧
      parse (":not(" ++ "a[text='\\')\"']:b(c (\")\"))" ++ ")") =
        .ok (.pseudo "not" (some "a[text='\\')\"']:b(c (\")\"))") (some s)) := by
  have hreads : (parse "a[text='\\')\"']:b(c (\")\"))").isOk = true := by decide +kernel
  obtain ⟨s, hs⟩ := exists_eq_ok_of_isOk hreads
  exact ⟨s, hs, (parse_wrapped_iff _ s).2.1.mpr hs⟩

/-- `:has` or `:not` behind a pattern that does not end in a blank. -/
theorem parse_append_pseudoText (hs : parse first = .ok s)
    (hend : ∀ c ∈ first.toList.getLast?, isBlank c = false) (hname : name = "has" ∨ name = "not")
    (h : parse argument = .ok inner) :
    parse (first ++ pseudoText name argument) =
      .ok (s.extend (.pseudo name (some argument) (some inner))) := by
  have hstops : Stops isBlank first.toList.reverse := by
    rw [Stops, List.head?_reverse]
    exact hend
  refine parse_of_pattern ?_
  rw [String.toList_append]
  exact (pattern_of_parse hs).extend hstops (part_pseudoText hname h)
    (stops_reverse_pseudoText name argument)

theorem parse_has (hs : parse first = .ok s)
    (hend : ∀ c ∈ first.toList.getLast?, isBlank c = false) (h : parse argument = .ok inner) :
    parse (first ++ ":has(" ++ argument ++ ")") =
      .ok (s.extend (.pseudo "has" (some argument) (some inner))) := by
  rw [← parse_append_pseudoText hs hend (.inl rfl) h]
  congr 1
  rw [← String.toList_inj]
  simp [pseudoText]

theorem parse_not_has (hs : parse first = .ok s)
    (hend : ∀ c ∈ first.toList.getLast?, isBlank c = false) (h : parse argument = .ok inner) :
    parse (first ++ ":not(:has(" ++ argument ++ "))") =
      .ok (s.extend (.pseudo "not" (some (pseudoText "has" argument))
        (some (.pseudo "has" (some argument) (some inner))))) := by
  rw [← parse_append_pseudoText hs hend (.inr rfl) (parse_pseudoText (.inl rfl) h)]
  congr 1
  rw [← String.toList_inj]
  simp [pseudoText]

end Parse

end Arborist.Selector
