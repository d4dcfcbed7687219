import Arborist.Selector.Parser

/-!
# The grammar of patterns

What a pattern may look like and which selector it stands for, said without a cursor and without
an order of reading. `Pattern cs s` says that the characters `cs` are a pattern for `s`:

    chain     ::=  compound  |  chain blanks '>' blanks compound  |  chain blanks compound
    compound  ::=  kind? (attribute | pseudo)*          with at least one part
    attribute ::=  '[' blanks name blanks ']'
                |  '[' blanks name blanks operator blanks value blanks ']'
    value     ::=  name  |  quoted text
    pseudo    ::=  ':' name  |  ':' name '(' argument ')'

Three points are settled here rather than by the rules above. In the third form of a chain the
blanks may not be missing. An argument is balanced: its parentheses match, those in quoted text not
counted. And the argument of `has` and `not` is a pattern again, so `Part`, `Compound` and `Chain`
take the meaning of arguments as a parameter `Inner`, which `Pattern` fills in with itself.

A pseudo-selector without an argument is not followed by a parenthesis. No rule has to say so, since
only `[`, `:`, a blank, `>` or the end can follow a part (`Parts.endsPart_append`).
-/

namespace Arborist.Selector.Grammar

open Text

/-! ## Characters and names -/

/-- Any number of blanks, possibly none. -/
def Blanks (cs : List Char) : Prop := ∀ c ∈ cs, isBlank c = true

/-- One or more characters of names. -/
def IsName (cs : List Char) : Prop := cs ≠ [] ∧ ∀ c ∈ cs, isNameChar c = true

/-- A letter or a low line, followed by characters of names. -/
inductive IsKindName : List Char → Prop
  | cons {c : Char} {cs : List Char} :
      isNameStart c = true → (∀ d ∈ cs, isNameChar d = true) → IsKindName (c :: cs)

/-- The two characters that quote a text. -/
def IsQuote (c : Char) : Prop := c = '"' ∨ c = '\''

/-! ## Attributes -/

/-- `QuotedText quote written value`: what is written between two quotes, and the text that it
stands for. A backslash and the character after it belong together; they stand for the quote if
that character is the quote, and for themselves otherwise. -/
inductive QuotedText (quote : Char) : List Char → List Char → Prop
  | nil : QuotedText quote [] []
  | escapedQuote {written value : List Char} :
      QuotedText quote written value →
      QuotedText quote ('\\' :: quote :: written) (quote :: value)
  | pair {c : Char} {written value : List Char} :
      c ≠ quote → QuotedText quote written value →
      QuotedText quote ('\\' :: c :: written) ('\\' :: c :: value)
  | plain {c : Char} {written value : List Char} :
      c ≠ quote → c ≠ '\\' → QuotedText quote written value →
      QuotedText quote (c :: written) (c :: value)

/-- How a value is written in an attribute: as a name, or between quotes. -/
inductive Value : List Char → String → Prop
  | name {value : String} : IsName value.toList → Value value.toList value
  | quoted {quote : Char} {written : List Char} {value : String} :
      IsQuote quote → QuotedText quote written value.toList →
      Value (quote :: written ++ [quote]) value

/-- How the operators are written. -/
inductive OperatorText : List Char → Operator → Prop
  | equals : OperatorText ['='] .equals
  | hasWord : OperatorText ['~', '='] .hasWord
  | startsWith : OperatorText ['^', '='] .startsWith
  | endsWith : OperatorText ['$', '='] .endsWith
  | contains : OperatorText ['*', '='] .contains

/-- An attribute in brackets, alone or compared with a value. -/
inductive Attribute : List Char → Selector → Prop
  | present {before after : List Char} {name : String} :
      Blanks before → IsName name.toList → Blanks after →
      Attribute ('[' :: before ++ name.toList ++ after ++ [']']) (.attr name .equals none)
  | compared {b₁ b₂ b₃ b₄ symbol written : List Char} {name value : String}
      {operator : Operator} :
      Blanks b₁ → IsName name.toList → Blanks b₂ → OperatorText symbol operator →
      Blanks b₃ → Value written value → Blanks b₄ →
      Attribute ('[' :: b₁ ++ name.toList ++ b₂ ++ symbol ++ b₃ ++ written ++ b₄ ++ [']'])
        (.attr name operator (some value))

/-! ## Arguments -/

/-- Characters whose parentheses match. Quoted text is passed over as a whole: it has to be closed,
and the parentheses in it do not count. -/
inductive Balanced : List Char → Prop
  | nil : Balanced []
  | plain {c : Char} {cs : List Char} :
      c ≠ '(' → c ≠ ')' → ¬IsQuote c → Balanced cs → Balanced (c :: cs)
  | quoted {quote : Char} {written value cs : List Char} :
      IsQuote quote → QuotedText quote written value → Balanced cs →
      Balanced (quote :: written ++ quote :: cs)
  | nested {inner cs : List Char} :
      Balanced inner → Balanced cs → Balanced ('(' :: inner ++ ')' :: cs)

/-! ## Compounds, chains and patterns -/

/-- An attribute or a pseudo-selector. -/
inductive Part (Inner : List Char → Selector → Prop) : List Char → Selector → Prop
  | bracketed {cs : List Char} {s : Selector} : Attribute cs s → Part Inner cs s
  | bare {name : String} :
      IsName name.toList → Part Inner (':' :: name.toList) (.pseudo name none none)
  /-- The argument of an unknown pseudo-selector is kept as it is written. -/
  | verbatim {name argument : String} :
      IsName name.toList → name ≠ "has" → name ≠ "not" → Balanced argument.toList →
      Part Inner (':' :: name.toList ++ '(' :: argument.toList ++ [')'])
        (.pseudo name (some argument) none)
  /-- The argument of `has` and `not` is a pattern, kept as written beside what it stands for. -/
  | pattern {name argument : String} {inner : Selector} :
      name = "has" ∨ name = "not" → Balanced argument.toList → Inner argument.toList inner →
      Part Inner (':' :: name.toList ++ '(' :: argument.toList ++ [')'])
        (.pseudo name (some argument) (some inner))

/-- Parts that directly follow one another. -/
inductive Parts (Inner : List Char → Selector → Prop) : List Char → List Selector → Prop
  | nil : Parts Inner [] []
  | cons {cs ds : List Char} {part : Selector} {parts : List Selector} :
      Part Inner cs part → Parts Inner ds parts → Parts Inner (cs ++ ds) (part :: parts)

/-- One part stands for itself, several are required together. -/
inductive Together : List Selector → Selector → Prop
  | one {part : Selector} : Together [part] part
  | several {first second : Selector} {rest : List Selector} :
      Together (first :: second :: rest) (.all (first :: second :: rest))

/-- A kind with or without parts, or parts alone. -/
inductive Compound (Inner : List Char → Selector → Prop) : List Char → Selector → Prop
  | kind {name : String} {cs : List Char} {parts : List Selector} {s : Selector} :
      IsKindName name.toList → Parts Inner cs parts → Together (.kind name :: parts) s →
      Compound Inner (name.toList ++ cs) s
  | parts {cs : List Char} {parts : List Selector} {s : Selector} :
      Parts Inner cs parts → Together parts s → Compound Inner cs s

/-- Compounds joined by `>` or by blanks, to the left. -/
inductive Chain (Inner : List Char → Selector → Prop) : List Char → Selector → Prop
  | compound {cs : List Char} {s : Selector} : Compound Inner cs s → Chain Inner cs s
  | child {cs before after ds : List Char} {left right : Selector} :
      Chain Inner cs left → Blanks before → Blanks after → Compound Inner ds right →
      Chain Inner (cs ++ before ++ '>' :: after ++ ds) (.child left right)
  | descendant {cs between ds : List Char} {left right : Selector} :
      Chain Inner cs left → Blanks between → between ≠ [] → Compound Inner ds right →
      Chain Inner (cs ++ between ++ ds) (.descendant left right)

/-- A pattern: a chain, with any blanks around it. -/
inductive Pattern : List Char → Selector → Prop
  | mk {cs : List Char} {s : Selector} : Chain Pattern (strip cs) s → Pattern cs s

section Parts

variable {Inner : List Char → Selector → Prop} {cs ds : List Char} {part : Selector}
  {items others : List Selector}

theorem Part.parts (h : Part Inner cs part) : Parts Inner cs [part] := by
  simpa using Parts.cons h .nil

theorem Parts.append (h : Parts Inner cs items) (h' : Parts Inner ds others) :
    Parts Inner (cs ++ ds) (items ++ others) := by
  induction h with
  | nil => exact h'
  | cons hpart _ ih =>
      rw [List.append_assoc, List.cons_append]
      exact .cons hpart ih

end Parts

/-! ## What can stand next to what

Reading is greedy: a name is read as far as its characters go, and blanks likewise. The lemmas of
this section say that in a derivation this is always as far as the grammar wants. -/

/-- The code points of the blanks. -/
def blankCodePoints : List Nat :=
  List.range' 0x09 5 ++ List.range' 0x1C 5 ++ List.range' 0x2000 11 ++
    [0x85, 0xA0, 0x1680, 0x2028, 0x2029, 0x202F, 0x205F, 0x3000]

/-- Gaps between letters and numerals, around the blanks beyond ASCII. -/
def gapsAroundBlanks : List (Nat × Nat) :=
  [(0x80, 0xA0), (0x1680, 0x1680), (0x2000, 0x205F), (0x3000, 0x3000)]

/-- What lies in a gap between ranges lies in none of them. -/
theorem inRanges_of_gap {ranges gaps : List (Nat × Nat)} {n : Nat}
    (hapart : (ranges.all fun range => gaps.all fun gap =>
      gap.2.blt range.1 || range.2.blt gap.1) = true) (h : inRanges gaps n = true) :
    inRanges ranges n = false := by
  refine Bool.eq_false_iff.mpr fun hrange => ?_
  obtain ⟨gap, hgap, hgapStart, hgapStop⟩ := inRanges_iff.mp h
  obtain ⟨range, hmem, hstart, hstop⟩ := inRanges_iff.mp hrange
  have hbeside := List.all_eq_true.mp (List.all_eq_true.mp hapart range hmem) gap hgap
  rw [Bool.or_eq_true, Nat.blt_eq, Nat.blt_eq] at hbeside
  omega

/-- Blanks are not characters of names. -/
theorem isNameChar_of_isBlank {c : Char} (h : isBlank c = true) : isNameChar c = false := by
  have table : ∀ n ∈ blankCodePoints, (n < 128 ∧ isNameChar (Char.ofNat n) = false) ∨
      (128 ≤ n ∧ inRanges gapsAroundBlanks n = true) := by decide +kernel
  have hmem : c.toNat ∈ blankCodePoints := by
    simp only [isBlank, isWhiteSpace, Bool.or_eq_true, Bool.and_eq_true, decide_eq_true_eq,
      beq_iff_eq] at h
    simp only [blankCodePoints, List.mem_append, List.mem_range'_1, List.mem_cons, List.not_mem_nil,
      or_false]
    omega
  rcases table c.toNat hmem with ⟨-, hascii⟩ | ⟨hbeyond, hgap⟩
  · rwa [Char.ofNat_toNat] at hascii
  · have hletter : inRanges letterRanges c.toNat = false := inRanges_of_gap (by decide +kernel) hgap
    have hnumeral : inRanges numeralRanges c.toNat = false :=
      inRanges_of_gap (by decide +kernel) hgap
    have hne : ∀ d : Char, d.toNat < 128 → (c == d) = false := by
      intro d hd
      rw [beq_eq_false_iff_ne]
      rintro rfl
      omega
    rw [isNameChar, isAlphanumeric, if_neg (Nat.not_lt.mpr hbeyond), hletter, hnumeral,
      hne '_' (by decide), hne '-' (by decide)]
    rfl

/-- The characters that have a meaning of their own in patterns. -/
def punctuation : List Char :=
  ['[', ']', ':', '(', ')', '>', '"', '\'', '=', '~', '^', '$', '*']

theorem isNameChar_of_mem_punctuation (c : Char) (h : c ∈ punctuation) :
    isNameChar c = false := by
  have table : punctuation.all (fun c => !isNameChar c) = true := by decide +kernel
  simpa using List.all_eq_true.mp table c h

theorem isBlank_of_mem_punctuation (c : Char) (h : c ∈ punctuation) : isBlank c = false := by
  have table : punctuation.all (fun c => !isBlank c) = true := by decide +kernel
  simpa using List.all_eq_true.mp table c h

theorem isBlank_of_isNameChar {c : Char} (h : isNameChar c = true) : isBlank c = false := by
  refine Bool.eq_false_iff.mpr fun hblank => ?_
  rw [isNameChar_of_isBlank hblank] at h
  cases h

/-- Characters of names are no punctuation. -/
theorem ne_of_isNameChar {c d : Char} (h : isNameChar c = true) (hd : d ∈ punctuation) :
    c ≠ d := by
  rintro rfl
  rw [isNameChar_of_mem_punctuation c hd] at h
  cases h

theorem isNameChar_of_isNameStart {c : Char} (h : isNameStart c = true) : isNameChar c = true := by
  simp only [isNameStart, Bool.or_eq_true] at h
  simp only [isNameChar, Bool.or_eq_true]
  exact .inl (h.imp_left isAlphanumeric_of_isLetter)

/-- What starts a part starts no kind. -/
theorem isNameStart_of_startsPart {c : Char} (h : c = '[' ∨ c = ':') : isNameStart c = false := by
  refine Bool.eq_false_iff.mpr fun hstart => ?_
  have hpunctuation : c ∈ punctuation := by
    rcases h with rfl | rfl
    · decide
    · decide
  exact ne_of_isNameChar (isNameChar_of_isNameStart hstart) hpunctuation rfl

/-- How the readers test for a quote. -/
theorem isQuote_iff {c : Char} : (c == '"' || c == '\'') = true ↔ IsQuote c := by
  simp [IsQuote]

theorem IsQuote.ne_backslash {quote : Char} (h : IsQuote quote) : quote ≠ '\\' := by
  rcases h with rfl | rfl <;> decide

theorem IsQuote.mem_punctuation {quote : Char} (h : IsQuote quote) : quote ∈ punctuation := by
  rcases h with rfl | rfl <;> decide

/-- Whether a run of characters ends before some others: their first is not one of the run. -/
def Stops (p : Char → Bool) (cs : List Char) : Prop := ∀ c ∈ cs.head?, p c = false

theorem stops_nil {p : Char → Bool} : Stops p [] := by
  intro c hc
  cases hc

theorem stops_cons {p : Char → Bool} {c : Char} {cs : List Char} (h : p c = false) :
    Stops p (c :: cs) := by
  intro d hd
  obtain rfl : c = d := by simpa using hd
  exact h

theorem Stops.of_append {p : Char → Bool} {cs ds : List Char} (h : Stops p (cs ++ ds)) :
    Stops p cs := by
  cases cs with
  | nil => exact stops_nil
  | cons c cs => exact stops_cons (h c rfl)

/-- Names and blanks end at punctuation. -/
theorem stops_punctuation {c : Char} {cs : List Char} (h : c ∈ punctuation) :
    Stops isBlank (c :: cs) ∧ Stops isNameChar (c :: cs) :=
  ⟨stops_cons (isBlank_of_mem_punctuation c h), stops_cons (isNameChar_of_mem_punctuation c h)⟩

theorem Blanks.nil : Blanks [] := by
  intro c hc
  cases hc

/-- A name ends before blanks. -/
theorem Blanks.stops_isNameChar {blanks cs : List Char} (h : Blanks blanks)
    (hcs : Stops isNameChar cs) : Stops isNameChar (blanks ++ cs) := by
  cases blanks with
  | nil => exact hcs
  | cons c blanks => exact stops_cons (isNameChar_of_isBlank (h c List.mem_cons_self))

theorem OperatorText.exists_eq_cons {symbol : List Char} {operator : Operator}
    (h : OperatorText symbol operator) :
    ∃ c cs, symbol = c :: cs ∧ c ∈ punctuation ∧ c ≠ ']' := by
  cases h <;> exact ⟨_, _, rfl, by decide, by decide⟩

theorem IsName.exists_eq_cons {name : List Char} (h : IsName name) :
    ∃ c cs, name = c :: cs ∧ isNameChar c = true := by
  obtain ⟨hne, hname⟩ := h
  obtain ⟨c, cs, rfl⟩ := List.exists_cons_of_ne_nil hne
  exact ⟨c, cs, rfl, hname c List.mem_cons_self⟩

theorem IsName.stops_isBlank {name : List Char} (h : IsName name) (rest : List Char) :
    Stops isBlank (name ++ rest) := by
  obtain ⟨c, cs, rfl, hc⟩ := h.exists_eq_cons
  exact stops_cons (isBlank_of_isNameChar hc)

theorem Value.stops_isBlank {written : List Char} {value : String} (h : Value written value)
    (rest : List Char) : Stops isBlank (written ++ rest) := by
  cases h with
  | name hname => exact hname.stops_isBlank rest
  | quoted hquote _ => exact stops_cons (isBlank_of_mem_punctuation _ hquote.mem_punctuation)

theorem IsKindName.exists_eq_cons {name : List Char} (h : IsKindName name) :
    ∃ c cs, name = c :: cs ∧ isNameStart c = true := by
  cases h with
  | @cons c cs hc _ => exact ⟨c, cs, rfl, hc⟩

theorem IsKindName.isName {name : List Char} (h : IsKindName name) : IsName name := by
  cases h with
  | @cons c cs hc hcs =>
      refine ⟨List.cons_ne_nil c cs, fun d hd => ?_⟩
      rcases List.mem_cons.mp hd with rfl | hd
      · exact isNameChar_of_isNameStart hc
      · exact hcs d hd

/-- What can follow a part: the next part, the end of the compound, or the end of the pattern. -/
def EndsPart (cs : List Char) : Prop :=
  ∀ c ∈ cs.head?, c = '[' ∨ c = ':' ∨ c = '>' ∨ isBlank c = true

/-- What can follow a compound: blanks, `>`, or the end of the pattern. -/
def EndsCompound (cs : List Char) : Prop := ∀ c ∈ cs.head?, c = '>' ∨ isBlank c = true

/-- A compound ends before blanks, and where it would end without them. -/
theorem Blanks.endsCompound {blanks cs : List Char} (h : Blanks blanks)
    (hcs : blanks = [] → EndsCompound cs) : EndsCompound (blanks ++ cs) := by
  cases blanks with
  | nil => exact hcs rfl
  | cons c blanks =>
      intro d hd
      obtain rfl : c = d := by simpa using hd
      exact .inr (h c List.mem_cons_self)

theorem EndsCompound.endsPart {cs : List Char} (h : EndsCompound cs) : EndsPart cs :=
  fun c hc => .inr (.inr (h c hc))

/-- No name goes on behind a part. -/
theorem EndsPart.stops_isNameChar {cs : List Char} (h : EndsPart cs) : Stops isNameChar cs := by
  intro c hc
  rcases h c hc with rfl | rfl | rfl | hblank
  · exact isNameChar_of_mem_punctuation '[' (by decide)
  · exact isNameChar_of_mem_punctuation ':' (by decide)
  · exact isNameChar_of_mem_punctuation '>' (by decide)
  · exact isNameChar_of_isBlank hblank

/-- An argument cannot start behind a part. -/
theorem EndsPart.head?_ne_parenthesis {cs : List Char} (h : EndsPart cs) :
    cs.head? ≠ some '(' := by
  intro hc
  rcases h '(' hc with h | h | h | h
  · cases h
  · cases h
  · cases h
  · cases h.symm.trans (isBlank_of_mem_punctuation '(' (by decide))

section Derivations

variable {Inner : List Char → Selector → Prop} {cs ds : List Char} {s : Selector}
  {parts : List Selector}

/-- Attributes start with a bracket. -/
theorem Attribute.exists_eq_cons (h : Attribute cs s) : ∃ ds, cs = '[' :: ds := by
  cases h with
  | present => exact ⟨_, rfl⟩
  | compared => exact ⟨_, rfl⟩

/-- Parts start with a bracket or a colon. -/
theorem Part.exists_eq_cons (h : Part Inner cs s) :
    ∃ c ds, cs = c :: ds ∧ (c = '[' ∨ c = ':') := by
  cases h with
  | bracketed h =>
      obtain ⟨ds, rfl⟩ := h.exists_eq_cons
      exact ⟨'[', ds, rfl, .inl rfl⟩
  | bare => exact ⟨':', _, rfl, .inr rfl⟩
  | verbatim => exact ⟨':', _, rfl, .inr rfl⟩
  | pattern => exact ⟨':', _, rfl, .inr rfl⟩

/-- Several parts start like one, if there are any. -/
theorem Parts.eq_nil_or_exists_eq_cons (h : Parts Inner cs parts) :
    (cs = [] ∧ parts = []) ∨ ∃ c ds, cs = c :: ds ∧ (c = '[' ∨ c = ':') := by
  cases h with
  | nil => exact .inl ⟨rfl, rfl⟩
  | @cons _ es _ _ hpart _ =>
      obtain ⟨c, ds, rfl, hc⟩ := hpart.exists_eq_cons
      exact .inr ⟨c, ds ++ es, rfl, hc⟩

/-- Behind a part stand other parts, or what follows the last one. -/
theorem Parts.endsPart_append (h : Parts Inner cs parts) (hends : EndsPart ds) :
    EndsPart (cs ++ ds) := by
  rcases h.eq_nil_or_exists_eq_cons with ⟨rfl, -⟩ | ⟨c, es, rfl, hc⟩
  · exact hends
  · intro d hd
    obtain rfl : c = d := by simpa using hd
    rcases hc with rfl | rfl
    · exact .inl rfl
    · exact .inr (.inl rfl)

/-- A compound starts with a character that is neither blank nor joins compounds. -/
theorem Compound.exists_eq_cons (h : Compound Inner cs s) :
    ∃ c ds, cs = c :: ds ∧ isBlank c = false ∧ c ≠ '>' := by
  cases h with
  | @kind name es _ _ hname _ _ =>
      obtain ⟨c, ds, hcs, hc⟩ := hname.isName.exists_eq_cons
      refine ⟨c, ds ++ es, by rw [hcs, List.cons_append], isBlank_of_isNameChar hc, ?_⟩
      exact ne_of_isNameChar hc (by decide)
  | parts hparts htogether =>
      rcases hparts.eq_nil_or_exists_eq_cons with ⟨-, rfl⟩ | ⟨c, es, rfl, hc⟩
      · cases htogether
      · refine ⟨c, es, rfl, ?_⟩
        rcases hc with rfl | rfl
        · exact ⟨isBlank_of_mem_punctuation '[' (by decide), by decide⟩
        · exact ⟨isBlank_of_mem_punctuation ':' (by decide), by decide⟩

theorem Compound.ne_nil (h : Compound Inner cs s) : cs ≠ [] := by
  obtain ⟨c, ds, rfl, -⟩ := h.exists_eq_cons
  exact List.cons_ne_nil c ds

theorem Chain.ne_nil (h : Chain Inner cs s) : cs ≠ [] := by
  cases h with
  | compound h => exact h.ne_nil
  | child _ _ _ hright => exact List.append_ne_nil_of_right_ne_nil _ hright.ne_nil
  | descendant _ _ _ hright => exact List.append_ne_nil_of_right_ne_nil _ hright.ne_nil

end Derivations

/-! ## The meaning of arguments

A derivation asks for the meaning of arguments only, and these are shorter than the text derived. -/

section Mono

variable {Inner Inner' : List Char → Selector → Prop} {bound : Nat}
  (hinner : ∀ argument s, argument.length < bound → Inner argument s → Inner' argument s)
include hinner

theorem Part.mono {cs : List Char} {s : Selector} (h : Part Inner cs s)
    (hbound : cs.length ≤ bound) : Part Inner' cs s := by
  cases h with
  | bracketed h => exact .bracketed h
  | bare hname => exact .bare hname
  | verbatim hname hhas hnot hbalanced => exact .verbatim hname hhas hnot hbalanced
  | pattern hname hbalanced h =>
      refine .pattern hname hbalanced (hinner _ _ ?_ h)
      simp only [List.length_append, List.length_cons] at hbound
      omega

theorem Parts.mono {cs : List Char} {parts : List Selector} (h : Parts Inner cs parts)
    (hbound : cs.length ≤ bound) : Parts Inner' cs parts := by
  induction h with
  | nil => exact .nil
  | cons hpart _ ih =>
      rw [List.length_append] at hbound
      exact .cons (hpart.mono hinner (by omega)) (ih (by omega))

theorem Compound.mono {cs : List Char} {s : Selector} (h : Compound Inner cs s)
    (hbound : cs.length ≤ bound) : Compound Inner' cs s := by
  cases h with
  | kind hname hparts htogether =>
      rw [List.length_append] at hbound
      exact .kind hname (hparts.mono hinner (by omega)) htogether
  | parts hparts htogether => exact .parts (hparts.mono hinner hbound) htogether

theorem Chain.mono {cs : List Char} {s : Selector} (h : Chain Inner cs s)
    (hbound : cs.length ≤ bound) : Chain Inner' cs s := by
  induction h with
  | compound h => exact .compound (h.mono hinner hbound)
  | child _ hbefore hafter hright ih =>
      simp only [List.length_append, List.length_cons] at hbound
      exact .child (ih (by omega)) hbefore hafter (hright.mono hinner (by omega))
  | descendant _ hblanks hne hright ih =>
      simp only [List.length_append] at hbound
      exact .descendant (ih (by omega)) hblanks hne (hright.mono hinner (by omega))

end Mono

end Arborist.Selector.Grammar
