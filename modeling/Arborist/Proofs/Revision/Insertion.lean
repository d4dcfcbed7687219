import Arborist.Proofs.Edit.Outcome
import Arborist.Proofs.Revision.Operations
import Arborist.Proofs.Text.LineCut
import Arborist.Proofs.Text.Mingling

/-!
# The lines of inserted texts

A text that is inserted next to a statement or a declaration is put somewhere into a line, and what
counts is which lines come out. `indentedLines` are the lines of the text as they should be: all of
them indented, blank ones excepted. The laws compare the lines of the result with those of the
source.

Before a node that starts its line, the indented lines come in whole between two lines of the
source. Before any other node in a body of several lines, its line is cut in two and the indented
lines come in between. That is `Draft.perform_insertBefore_lines`.

After a node the inserted lines start on a line of their own, but nothing ends the last of them:
what stands behind the node on its line is moved to the end of the last inserted line. So there are
characters of both texts on one line exactly if there is anything to be seen behind the node
(`Draft.perform_insertAfter_lines`).
-/

namespace Arborist

open Text

/-! ## Indentation -/

/-- A space or a tab. -/
def isIndent (c : Char) : Bool := c == ' ' || c == '\t'

section Indentation

variable {cs line : List Char} {text : String} {offset : Nat}

theorem isIndent_iff {c : Char} : isIndent c = true ↔ c = ' ' ∨ c = '\t' := by
  simp [isIndent]

/-- A character that indents is one byte that does, and any other starts with a byte that does
not. -/
theorem utf8EncodeChar_of_isIndent (c : Char) :
    (isIndent c = true ∧ ∃ byte, String.utf8EncodeChar c = [byte] ∧ isIndentByte byte = true ∧
      Char.ofNat byte.toNat = c) ∨
    (isIndent c = false ∧ ∃ lead tail, String.utf8EncodeChar c = lead :: tail ∧
      isIndentByte lead = false) := by
  by_cases hc : isIndent c = true
  · left
    refine ⟨hc, ?_⟩
    rcases isIndent_iff.mp hc with rfl | rfl
    · exact ⟨32, by decide⟩
    · exact ⟨9, by decide⟩
  · right
    obtain ⟨lead, tail, hbytes, -⟩ := utf8EncodeChar_eq_lead_cons c
    refine ⟨Bool.eq_false_iff.mpr hc, lead, tail, hbytes, Bool.eq_false_iff.mpr fun hlead => hc ?_⟩
    have hmem : lead ∈ String.utf8EncodeChar c := by simp [hbytes]
    simp only [isIndentByte, Bool.or_eq_true, beq_iff_eq] at hlead
    rcases hlead with rfl | rfl
    · exact isIndent_iff.mpr (.inl (eq_of_mem_utf8EncodeChar (by decide) (by decide) hmem))
    · exact isIndent_iff.mpr (.inr (eq_of_mem_utf8EncodeChar (by decide) (by decide) hmem))

/-- The indentation of a line of bytes is that of the line of characters. -/
theorem takeWhile_bytesOf (cs : List Char) :
    (bytesOf cs).takeWhile isIndentByte = bytesOf (cs.takeWhile isIndent) := by
  induction cs with
  | nil => rfl
  | cons c cs ih =>
      rcases utf8EncodeChar_of_isIndent c with
        ⟨hc, byte, hbytes, hbyte, -⟩ | ⟨hc, lead, tail, hbytes, hlead⟩
      · rw [bytesOf_cons, hbytes, List.singleton_append, List.takeWhile_cons_of_pos hbyte, ih,
          List.takeWhile_cons_of_pos hc, bytesOf_cons, hbytes, List.singleton_append]
      · rw [bytesOf_cons, hbytes, List.cons_append,
          List.takeWhile_cons_of_neg (by simp [hlead]), List.takeWhile_cons_of_neg (by simp [hc]),
          bytesOf_nil]

theorem all_bytesOf (cs : List Char) : (bytesOf cs).all isIndentByte = cs.all isIndent := by
  induction cs with
  | nil => rfl
  | cons c cs ih =>
      rcases utf8EncodeChar_of_isIndent c with
        ⟨hc, byte, hbytes, hbyte, -⟩ | ⟨hc, lead, tail, hbytes, hlead⟩
      · simp [hbytes, hbyte, hc, ih]
      · simp [hbytes, hlead, hc]

theorem asciiText_bytesOf (h : ∀ c ∈ cs, isIndent c = true) :
    asciiText (bytesOf cs) = String.ofList cs := by
  have hchars : (bytesOf cs).map (fun byte => Char.ofNat byte.toNat) = cs := by
    induction cs with
    | nil => rfl
    | cons c cs ih =>
        obtain ⟨hhead, htail⟩ := List.forall_mem_cons.mp h
        rcases utf8EncodeChar_of_isIndent c with ⟨-, byte, hbytes, -, hchar⟩ | ⟨hc, -⟩
        · simp [hbytes, hchar, ih htail]
        · cases hhead.symm.trans hc
  rw [asciiText, hchars]

/-- The indentation of the line of an offset is what the line on its row starts with. -/
theorem lineIndent_eq (h : (pieces '\n' text.toList)[rowOf (encode text) offset]? = some line) :
    lineIndent (encode text) offset = String.ofList (line.takeWhile isIndent) := by
  obtain ⟨line', rest, hline', hdrop, hrest⟩ := exists_line text offset
  obtain rfl := Option.some.inj (h.symm.trans hline')
  have hindent : (bytesOf line ++ rest).takeWhile isIndentByte =
      (bytesOf line).takeWhile isIndentByte := by
    rcases hrest with rfl | ⟨later, rfl⟩
    · rw [List.append_nil]
    · rw [List.takeWhile_append]
      split
      · rename_i hall
        rw [List.takeWhile_cons_of_neg (by decide), List.append_nil,
          (List.takeWhile_prefix isIndentByte).eq_of_length hall]
      · rfl
  rw [lineIndent, hdrop, hindent, takeWhile_bytesOf,
    asciiText_bytesOf fun c hc => List.mem_takeWhile_imp hc]

theorem isIndent_of_mem_indentUnit (source : Bytes) :
    ∀ c ∈ (indentUnit source).toList, isIndent c = true := by
  intro c hc
  unfold indentUnit at hc
  dsimp only at hc
  split at hc
  · rw [List.mem_singleton.mp (show c ∈ ['\t'] from hc)]
    rfl
  · rw [String.toList_ofList] at hc
    rw [List.eq_of_mem_replicate hc]
    rfl

/-- Only indentation stands before an offset on its line. -/
theorem startsLine_eq {before left right behind : List Char}
    (h : LineCut text offset before left right behind) :
    startsLine (encode text) offset = left.all isIndent := by
  rw [startsLine, h.slice_lineStart, all_bytesOf]

end Indentation

/-! ## Indented lines -/

/-- The lines of a text, all of them indented, except for blank lines behind the first one. -/
def indentedLines (indent body : List Char) : List (List Char) :=
  match pieces '\n' body with
  | [] => []
  | first :: rest =>
    (indent ++ first) :: rest.map fun line => if line.all isBlank then line else indent ++ line

theorem pieces_indentTail {indent : List Char} (h : '\n' ∉ indent) (body : List Char) :
    pieces '\n' (indent ++ indentTail body indent) = indentedLines indent body := by
  obtain ⟨first, rest, hpieces, -⟩ := exists_pieces_cons '\n' body
  have hfree : ∀ line ∈ first :: rest, '\n' ∉ line := by
    intro line hline
    exact notMem_of_mem_pieces (hpieces ▸ hline)
  have htail : pieces '\n' (indentTail body indent) =
      first :: rest.map fun line => if line.all isBlank then line else indent ++ line := by
    unfold indentTail
    rw [hpieces]
    apply pieces_joinPieces (List.cons_ne_nil _ _)
    intro line hline
    rcases List.mem_cons.mp hline with rfl | hline
    · exact hfree line List.mem_cons_self
    · obtain ⟨own, hown, rfl⟩ := List.mem_map.mp hline
      have hown' := hfree own (List.mem_cons_of_mem first hown)
      split
      · exact hown'
      · simp [h, hown']
  obtain ⟨piece, others, hothers, happend⟩ := exists_pieces_append h (indentTail body indent)
  obtain ⟨rfl, rfl⟩ := List.cons.inj (hothers.symm.trans htail)
  unfold indentedLines
  rw [happend, hpieces]

/-- An indented text behind blank lines. -/
def setApart (blankLines : Nat) (indent body : List Char) : List Char :=
  List.replicate blankLines '\n' ++ (indent ++ indentTail body indent)

namespace Text.LineCut

variable {text : String} {offset : Nat} {before left right behind indent body : List Char}

/-- Behind the indentation of a line, the indented text with the indentation once more at its end
comes in as lines before that line. -/
theorem pieces_at_start (h : LineCut text offset before left right behind) (body : List Char) :
    pieces '\n' (before ++ (left ++ (indentTail body left ++ '\n' :: left) ++ right) ++ behind) =
      (pieces '\n' text.toList).take (rowOf (encode text) offset) ++ indentedLines left body ++
        (pieces '\n' text.toList).drop (rowOf (encode text) offset) := by
  have hmiddle : left ++ (indentTail body left ++ '\n' :: left) ++ right =
      (left ++ indentTail body left) ++ '\n' :: (left ++ right) := by
    simp
  rw [h.pieces_eq, hmiddle, pieces_append_separator, pieces_indentTail h.left_free, h.pieces_line,
    h.drop_pieces]
  simp

/-- Inside a line, with an indentation and line feeds on both sides, the indented text comes in as
lines between the two parts of the line. -/
theorem pieces_between (h : LineCut text offset before left right behind) (hindent : '\n' ∉ indent)
    (body : List Char) :
    pieces '\n' (before ++
        (left ++ ('\n' :: indent ++ (indentTail body indent ++ '\n' :: indent)) ++ right) ++
        behind) =
      (pieces '\n' text.toList).take (rowOf (encode text) offset) ++ [left] ++
        indentedLines indent body ++ [indent ++ right] ++
        (pieces '\n' text.toList).drop (rowOf (encode text) offset + 1) := by
  have hmiddle : left ++ ('\n' :: indent ++ (indentTail body indent ++ '\n' :: indent)) ++ right =
      left ++ '\n' :: ((indent ++ indentTail body indent) ++ '\n' :: (indent ++ right)) := by
    simp
  have hlast : '\n' ∉ indent ++ right := by simp [hindent, h.right_free]
  rw [h.pieces_eq, hmiddle, pieces_append_separator, pieces_append_separator,
    pieces_eq_singleton h.left_free, pieces_indentTail hindent, pieces_eq_singleton hlast]
  simp

/-- Inside a line, with line feeds before it only, the last line of the indented text goes on with
the rest of the line. -/
theorem pieces_behind {lines : List (List Char)} {last : List Char}
    (h : LineCut text offset before left right behind) (hindent : '\n' ∉ indent)
    (hlines : indentedLines indent body = lines ++ [last]) (blankLines : Nat) :
    pieces '\n' (before ++ (left ++ '\n' :: setApart blankLines indent body ++ right) ++ behind) =
      (pieces '\n' text.toList).take (rowOf (encode text) offset) ++ [left] ++
        List.replicate blankLines [] ++ lines ++ [last ++ right] ++
        (pieces '\n' text.toList).drop (rowOf (encode text) offset + 1) := by
  have hmiddle : left ++ '\n' :: setApart blankLines indent body ++ right =
      left ++ '\n' :: (List.replicate blankLines '\n' ++
        ((indent ++ indentTail body indent) ++ right)) := by
    simp [setApart]
  rw [← pieces_indentTail hindent] at hlines
  obtain ⟨-, -, hjoin⟩ := exists_eq_append_of_pieces hlines
  rw [h.pieces_eq, hmiddle, pieces_append_separator, pieces_replicate_append,
    hjoin right h.right_free, pieces_eq_singleton h.left_free]
  simp

/-- An insertion comes between the two parts of a line. -/
theorem render_insertion (h : LineCut text offset before left right behind) (own : String) :
    ∃ result, Edit.render (encode text) [⟨offset, offset, own⟩] = .ok result ∧
      result.toList = before ++ (left ++ own.toList ++ right) ++ behind := by
  have hfits : ∀ e ∈ [(⟨offset, offset, own⟩ : Edit)], Edit.Fits (encode text) e :=
    List.forall_mem_singleton.mpr ⟨Int.natCast_nonneg offset, Int.le_refl _,
      Int.ofNat_le.mpr h.offset_le, h.insideCharacter_eq, h.insideCharacter_eq⟩
  obtain ⟨result, hrender, -, hbytes⟩ :=
    Edit.render_of_apart (.encode text) hfits (List.pairwise_singleton _ _)
  refine ⟨result, hrender, ?_⟩
  have hresult : encode result =
      encode (String.ofList (before ++ (left ++ own.toList ++ right) ++ behind)) := by
    rw [hbytes, encode_ofList]
    show slice (encode text) 0 offset ++ encode own ++ (encode text).drop offset = _
    rw [slice, List.drop_zero, h.take_encode, h.drop_encode, encode_eq_bytesOf own]
    simp
  rw [encode_injective hresult, String.toList_ofList]

end Text.LineCut

/-! ## Inserting before -/

namespace Draft

variable {draft : Draft} {text : String} {asked target parent : Node}
  {before left right behind line : List Char} {offset : Nat}

/-- A node that starts its line lends the indentation of the line. -/
theorem contextualIndent_of_start (hsource : draft.source = encode text)
    (h : LineCut text target.start before left right behind)
    (hleft : ∀ c ∈ left, isIndent c = true) (hright : ∀ c ∈ right.head?, isIndent c = false) :
    draft.contextualIndent target = some (String.ofList left) := by
  have hstarts : startsLine (encode text) target.start = true := by
    rw [startsLine_eq h]
    exact List.all_eq_true.mpr hleft
  have hindent : (left ++ right).takeWhile isIndent = left := by
    rw [List.takeWhile_append_of_pos hleft]
    cases right with
    | nil => simp
    | cons c right => rw [List.takeWhile_cons_of_neg (by simp [hright c rfl]), List.append_nil]
  rw [contextualIndent, hsource, if_pos hstarts, lineIndent_eq h.getElem?_pieces, hindent]

/-- Any other node in a body of several lines is indented one unit more than the line that opens the
body. -/
theorem contextualIndent_of_body (hsource : draft.source = encode text)
    (h : LineCut text target.start before left right behind)
    (hleft : ¬∀ c ∈ left, isIndent c = true) (hparent : target.parent = some parent)
    (hkind : parent.kind ∈ Kind.bodies)
    (hrows : rowOf draft.setting.source parent.start ≠ rowOf draft.setting.source parent.stop)
    (hline : (pieces '\n' text.toList)[rowOf draft.source parent.start]? = some line) :
    draft.contextualIndent target =
      some (String.ofList (line.takeWhile isIndent ++ (indentUnit draft.source).toList)) := by
  have hstarts : ¬startsLine (encode text) target.start = true := by
    rw [startsLine_eq h, List.all_eq_true]
    exact hleft
  have hbody : Kind.bodies.contains parent.kind = true := List.contains_iff_mem.mpr hkind
  have hlines :
      (parent.line draft.setting.source != parent.endLine draft.setting.source) = true := by
    rw [bne_iff_ne]
    show (rowOf draft.setting.source parent.start : Int) + 1 ≠
      rowOf draft.setting.source parent.stop + 1
    omega
  rw [hsource] at hline
  rw [contextualIndent, hsource, if_neg hstarts, hparent]
  dsimp only
  rw [hbody, hlines, Bool.and_self, if_pos rfl, lineIndent_eq hline, String.ofList_append,
    String.ofList_toList]

/-- Inserting before a node queues one insertion at its start. -/
theorem run_insertBefore (draft : Draft) (asked : Node) (inserted : String) (journal : Journal) :
    ((draft.perform (.insertBefore (.node asked) inserted)).run journal).1 =
      (draft.queue [⟨(insertionTarget asked).start, (insertionTarget asked).start,
        draft.formatBefore (insertionTarget asked) inserted⟩], none) := rfl

/-- Inserting after a node queues one insertion at its end. -/
theorem run_insertAfter (draft : Draft) (asked : Node) (inserted : String) (journal : Journal) :
    ((draft.perform (.insertAfter (.node asked) inserted)).run journal).1 =
      (draft.queue [⟨(insertionTarget asked).stop, (insertionTarget asked).stop,
        draft.formatAfter (insertionTarget asked) inserted⟩], none) := rfl

theorem isBlockLevel_of_mem (h : target.kind ∈ Kind.statements ++ Kind.declarations) :
    isBlockLevel target = true := by
  rw [isBlockLevel, Bool.or_eq_true, List.contains_iff_mem, List.contains_iff_mem]
  exact List.mem_append.mp h

/-- Before a node that starts its line. -/
theorem formatBefore_of_start (hsource : draft.source = encode text)
    (hkind : target.kind ∈ Kind.statements ++ Kind.declarations)
    (h : LineCut text target.start before left right behind)
    (hleft : ∀ c ∈ left, isIndent c = true) (hright : ∀ c ∈ right.head?, isIndent c = false)
    (inserted : String) :
    (draft.formatBefore target inserted).toList =
      indentTail (strip inserted.toList) left ++ '\n' :: left := by
  have hstarts : startsLine draft.source target.start = true := by
    rw [hsource, startsLine_eq h]
    exact List.all_eq_true.mpr hleft
  unfold formatBefore
  simp [isBlockLevel_of_mem hkind, contextualIndent_of_start hsource h hleft hright, hstarts]

/-- Before any other node that gets an indentation. -/
theorem formatBefore_of_body {indent : String} (hsource : draft.source = encode text)
    (hkind : target.kind ∈ Kind.statements ++ Kind.declarations)
    (h : LineCut text target.start before left right behind)
    (hleft : ¬∀ c ∈ left, isIndent c = true)
    (hindent : draft.contextualIndent target = some indent) (inserted : String) :
    (draft.formatBefore target inserted).toList =
      '\n' :: indent.toList ++
        (indentTail (strip inserted.toList) indent.toList ++ '\n' :: indent.toList) := by
  have hstarts : startsLine draft.source target.start = false := by
    rw [hsource, startsLine_eq h, Bool.eq_false_iff, ne_eq, List.all_eq_true]
    exact hleft
  unfold formatBefore
  simp [isBlockLevel_of_mem hkind, hindent, hstarts]

/-- Inserting before a statement or a declaration adds whole lines: those of the text without the
blanks around it, indented.

If only indentation stands before the node on its line, and none at its start, the lines come in
before that line and are indented like it. Otherwise, in a body of several lines, the line is cut at
the node; the lines come in between, and they and the rest of the line are indented one unit more
than the line that opens the body. -/
theorem perform_insertBefore_lines (hsource : draft.source = encode text) (hnew : draft.edits = [])
    (htarget : insertionTarget asked = target)
    (hkind : target.kind ∈ Kind.statements ++ Kind.declarations)
    (hstart : target.start ≤ (encode text).length) (hcut : ¬InsideCharacter text target.start)
    (inserted : String) (journal : Journal) :
    ∃ (before left right behind : List Char) (after : Draft) (result : String),
      LineCut text target.start before left right behind ∧
      (pieces '\n' text.toList)[rowOf draft.source target.start]? = some (left ++ right) ∧
      ((draft.perform (.insertBefore (.node asked) inserted)).run journal).1 = (after, none) ∧
      (∀ later, (after.render.run later).1 = .ok result) ∧
      ((∀ c ∈ left, isIndent c = true) → (∀ c ∈ right.head?, isIndent c = false) →
        pieces '\n' result.toList =
          (pieces '\n' text.toList).take (rowOf draft.source target.start) ++
            indentedLines left (strip inserted.toList) ++
            (pieces '\n' text.toList).drop (rowOf draft.source target.start)) ∧
      ((¬∀ c ∈ left, isIndent c = true) → ∀ parent, target.parent = some parent →
        parent.kind ∈ Kind.bodies →
        rowOf draft.setting.source parent.start ≠ rowOf draft.setting.source parent.stop →
        ∃ line indent, (pieces '\n' text.toList)[rowOf draft.source parent.start]? = some line ∧
          indent = line.takeWhile isIndent ++ (indentUnit draft.source).toList ∧
          pieces '\n' result.toList =
            (pieces '\n' text.toList).take (rowOf draft.source target.start) ++ [left] ++
              indentedLines indent (strip inserted.toList) ++ [indent ++ right] ++
              (pieces '\n' text.toList).drop (rowOf draft.source target.start + 1)) := by
  subst htarget
  obtain ⟨before, left, right, behind, h⟩ := exists_lineCut hstart hcut
  obtain ⟨result, hrender, hresult⟩ :=
    h.render_insertion (draft.formatBefore (insertionTarget asked) inserted)
  refine ⟨before, left, right, behind, _, result, h, hsource ▸ h.getElem?_pieces,
    run_insertBefore draft asked inserted journal, fun later => ?_, ?_, ?_⟩
  · rw [render_queue hnew, hsource]
    exact hrender
  · intro hleft hright
    rw [hresult, formatBefore_of_start hsource hkind h hleft hright, h.pieces_at_start, hsource]
  · intro hleft parent hparent hbody hrows
    obtain ⟨line, -, hline, -⟩ := exists_line text parent.start
    rw [← hsource] at hline
    have hindent := contextualIndent_of_body hsource h hleft hparent hbody hrows hline
    have hfree : '\n' ∉ line.takeWhile isIndent ++ (indentUnit draft.source).toList := by
      intro hmem
      rcases List.mem_append.mp hmem with hmem | hmem
      · cases List.mem_takeWhile_imp hmem
      · cases isIndent_of_mem_indentUnit draft.source _ hmem
    refine ⟨line, _, hline, rfl, ?_⟩
    rw [hresult, formatBefore_of_body hsource hkind h hleft hindent, String.toList_ofList,
      h.pieces_between hfree, ← hsource]

end Draft

namespace Block

open Mark (extent)

/-- A call and a declaration on one line of a block. -/
def source : String := "\x7b\n  a(); let é;\n\x7d"

def keywordElement : Element := ⟨"let", extent 9 12, []⟩

def callElement : Element := ⟨"expression_statement", extent 4 8, []⟩

def declarationElement : Element :=
  ⟨"lexical_declaration", extent 9 16, [.node (some "let") (extent 9 12) []]⟩

def block : Node :=
  ⟨⟨"statement_block", extent 0 18,
    [.node (some "expression_statement") (extent 4 8) [],
      .node (some "lexical_declaration") (extent 9 16) declarationElement.below]⟩, []⟩

def call : Node := block.child 0 callElement

def declaration : Node := block.child 1 declarationElement

def keyword : Node := declaration.child 0 keywordElement

def draft : Draft :=
  { root := block, setting := ⟨encode source, true⟩, source := encode source }

theorem toList_source : source.toList = ['\x7b', '\n'] ++ ([' ', ' '] ++ ['a', '(', ')', ';', ' ',
    'l', 'e', 't', ' ', 'é', ';']) ++ ['\n', '\x7d'] :=
  String.toList_ofList

/-- The line of the two statements, cut at the call. -/
theorem lineCut_call : LineCut source call.start ['\x7b', '\n'] [' ', ' ']
    ['a', '(', ')', ';', ' ', 'l', 'e', 't', ' ', 'é', ';'] ['\n', '\x7d'] where
  text_eq := toList_source
  offset_eq := by decide
  before_ended := .inr ⟨['\x7b'], rfl⟩
  behind_begun := .inr ⟨['\x7d'], rfl⟩
  left_free := by decide
  right_free := by decide

/-- The line of the two statements, cut at the declaration. -/
theorem lineCut_declaration : LineCut source declaration.start ['\x7b', '\n']
    [' ', ' ', 'a', '(', ')', ';', ' '] ['l', 'e', 't', ' ', 'é', ';'] ['\n', '\x7d'] where
  text_eq := toList_source
  offset_eq := by decide
  before_ended := .inr ⟨['\x7b'], rfl⟩
  behind_begun := .inr ⟨['\x7d'], rfl⟩
  left_free := by decide
  right_free := by decide

/-- The line of the two statements, cut behind the declaration. -/
theorem lineCut_end : LineCut source declaration.stop ['\x7b', '\n']
    [' ', ' ', 'a', '(', ')', ';', ' ', 'l', 'e', 't', ' ', 'é', ';'] [] ['\n', '\x7d'] where
  text_eq := toList_source
  offset_eq := by decide
  before_ended := .inr ⟨['\x7b'], rfl⟩
  behind_begun := .inr ⟨['\x7d'], rfl⟩
  left_free := by decide
  right_free := by decide

theorem rows_apart : rowOf (encode source) block.start ≠ rowOf (encode source) block.stop := by
  have hopen : rowOf (encode source) block.start = 0 := rfl
  have hcall : rowOf (encode source) call.start = 1 := lineCut_call.rowOf_eq
  have hle : rowOf (encode source) call.start ≤ rowOf (encode source) block.stop :=
    rowOf_mono (by decide)
  omega

theorem opening_line : (pieces '\n' source.toList)[rowOf draft.source block.start]? =
    some ['\x7b'] := by
  rw [toList_source]
  rfl

theorem indentUnit_source : indentUnit draft.source = "  " := by
  show indentUnit (encode source) = "  "
  rw [encode_eq_bytesOf, toList_source]
  rfl

theorem contextualIndent_declaration : draft.contextualIndent declaration = some "  " := by
  have hleft : ¬∀ c ∈ [' ', ' ', 'a', '(', ')', ';', ' '], isIndent c = true := by simp [isIndent]
  rw [Draft.contextualIndent_of_body rfl lineCut_declaration hleft rfl (by decide) rows_apart
    opening_line, indentUnit_source]
  rfl

end Block

/-- Three lines, the second of them blank, before the first statement of a line; and two lines
before the second one, which its keyword stands for. -/
theorem Draft.perform_insertBefore_lines_block :
    insertionTarget Block.call = Block.call ∧
      insertionTarget Block.keyword = Block.declaration ∧
      Block.declaration.parent = some Block.block ∧
      (∃ after result,
        ((Block.draft.perform (.insertBefore (.node Block.call) "x\n\n y\n")).run {}).1 =
          (after, none) ∧
        (after.render.run {}).1 = .ok result ∧
        pieces '\n' result.toList = ["\x7b", "  x", "", "   y", "  a(); let é;", "\x7d"].map
          String.toList) ∧
      ∃ after result,
        ((Block.draft.perform (.insertBefore (.node Block.keyword) "x\ny")).run {}).1 =
          (after, none) ∧
        (after.render.run {}).1 = .ok result ∧
        pieces '\n' result.toList = ["\x7b", "  a(); ", "  x", "  y", "  let é;", "\x7d"].map
          String.toList := by
  have hcall : insertionTarget Block.call = Block.call := rfl
  have hkeyword : insertionTarget Block.keyword = Block.declaration := rfl
  refine ⟨hcall, hkeyword, rfl, ?_, ?_⟩
  · obtain ⟨before, left, right, behind, after, result, hcut, -, hperform, hrender, hlines, -⟩ :=
      Draft.perform_insertBefore_lines (rfl : Block.draft.source = encode Block.source) rfl
        hcall (by decide) Block.lineCut_call.offset_le
        Block.lineCut_call.not_insideCharacter "x\n\n y\n" {}
    obtain ⟨rfl, rfl, rfl, rfl⟩ := hcut.unique Block.lineCut_call
    have hrow : rowOf Block.draft.source Block.call.start = 1 := Block.lineCut_call.rowOf_eq
    have hlines := hlines (by simp [isIndent]) (by simp [isIndent])
    refine ⟨after, result, hperform, hrender {}, ?_⟩
    rw [hlines, hrow, Block.toList_source]
    simp only [String.reduceToList, List.map_cons, List.map_nil]
    decide
  · obtain ⟨before, left, right, behind, after, result, hcut, -, hperform, hrender, -, hlines⟩ :=
      Draft.perform_insertBefore_lines (rfl : Block.draft.source = encode Block.source) rfl
        hkeyword (by decide) Block.lineCut_declaration.offset_le
        Block.lineCut_declaration.not_insideCharacter "x\ny" {}
    obtain ⟨rfl, rfl, rfl, rfl⟩ := hcut.unique Block.lineCut_declaration
    have hrow : rowOf Block.draft.source Block.declaration.start = 1 :=
      Block.lineCut_declaration.rowOf_eq
    obtain ⟨line, indent, hline, hindent, hlines⟩ :=
      hlines (by simp [isIndent]) Block.block rfl (by decide) Block.rows_apart
    obtain rfl := Option.some.inj (Block.opening_line.symm.trans hline)
    rw [Block.indentUnit_source] at hindent
    refine ⟨after, result, hperform, hrender {}, ?_⟩
    rw [hlines, hrow, Block.toList_source, hindent]
    simp only [String.reduceToList, List.map_cons, List.map_nil]
    decide

/-! ## Inserting after -/

/-- A text without the blanks around it is empty, or ends in a character that is not blank. -/
theorem strip_cases (cs : List Char) :
    (∀ c ∈ cs, isBlank c = true) ∧ strip cs = [] ∨
      ∃ earlier c, strip cs = earlier ++ [c] ∧ isBlank c = false ∧ c ∈ cs := by
  unfold strip trimBoth
  cases hdrop : (cs.dropWhile isBlank).reverse.dropWhile isBlank with
  | nil =>
      left
      refine ⟨fun c hc => ?_, rfl⟩
      rw [← List.takeWhile_append_dropWhile (p := isBlank) (l := cs), List.mem_append] at hc
      rcases hc with hc | hc
      · exact List.mem_takeWhile_imp hc
      · exact List.dropWhile_eq_nil_iff.mp hdrop c (List.mem_reverse.mpr hc)
  | cons c rest =>
      right
      have hmem : c ∈ (cs.dropWhile isBlank).reverse.dropWhile isBlank := by simp [hdrop]
      have hsource : c ∈ cs := (List.dropWhile_sublist isBlank).subset
        (List.mem_reverse.mp ((List.dropWhile_sublist isBlank).subset hmem))
      refine ⟨rest.reverse, c, List.reverse_cons, ?_, hsource⟩
      have hhead := List.head?_dropWhile_not isBlank (cs.dropWhile isBlank).reverse
      rw [hdrop] at hhead
      exact hhead

/-- The last line of an indented text is the last line of the text, indented, if that is not
blank. -/
theorem exists_indentedLines_eq {body last : List Char} {lines : List (List Char)}
    (indent : List Char) (hpieces : pieces '\n' body = lines ++ [last])
    (hlast : last.all isBlank = false) :
    ∃ others, indentedLines indent body = others ++ [indent ++ last] := by
  unfold indentedLines
  rw [hpieces]
  cases lines with
  | nil => exact ⟨[], rfl⟩
  | cons first lines =>
      refine ⟨(indent ++ first) :: lines.map fun line =>
        if line.all isBlank then line else indent ++ line, ?_⟩
      show (indent ++ first) :: (lines ++ [last]).map _ = _
      rw [List.map_append, List.map_singleton, if_neg (by rw [hlast]; exact Bool.false_ne_true)]
      rfl

theorem indentTail_nil (indent : List Char) : indentTail [] indent = [] := rfl

/-- An indented text ends as the text does. -/
theorem exists_indentTail_eq {indent : List Char} {c : Char} (hindent : '\n' ∉ indent)
    (earlier : List Char) (hc : isBlank c = false) :
    ∃ start, indent ++ indentTail (earlier ++ [c]) indent = start ++ [c] := by
  obtain ⟨before, piece, -, hearlier, hfree, hended⟩ := exists_lastPiece '\n' earlier
  have hpiece : '\n' ∉ piece ++ [c] := by
    intro hmem
    rcases List.mem_append.mp hmem with hmem | hmem
    · exact hfree hmem
    · rw [← List.mem_singleton.mp hmem] at hc
      cases hc
  obtain ⟨lines, -, hlines⟩ := Ended.exists_pieces_append hended
  have hpieces : pieces '\n' (earlier ++ [c]) = lines ++ [piece ++ [c]] := by
    rw [hearlier, List.append_assoc, hlines, pieces_eq_singleton hpiece]
  obtain ⟨others, hothers⟩ := exists_indentedLines_eq indent hpieces (by simp [hc])
  rw [← pieces_indentTail hindent] at hothers
  obtain ⟨start, hstart, -⟩ := exists_eq_append_of_pieces hothers
  exact ⟨start ++ (indent ++ piece), by simp [hstart]⟩

/-- A text that is set apart has something to be seen exactly if the text that was asked for has,
and then ends in it. -/
theorem setApart_cases {indent : List Char} (hindent : ∀ c ∈ indent, isIndent c = true)
    (blankLines : Nat) (inserted : List Char) :
    ((∀ c ∈ setApart blankLines indent (strip inserted), isBlank c = true) ∧
      ∀ c ∈ inserted, isBlank c = true) ∨
    ∃ earlier c, setApart blankLines indent (strip inserted) = earlier ++ [c] ∧
      isBlank c = false ∧ c ∈ inserted := by
  have hfree : '\n' ∉ indent := by
    intro hmem
    cases hindent _ hmem
  rcases strip_cases inserted with ⟨hblank, hstrip⟩ | ⟨earlier, c, hstrip, hc, hmem⟩
  · left
    refine ⟨fun c hc => ?_, hblank⟩
    rw [setApart, hstrip, indentTail_nil, List.append_nil] at hc
    rcases List.mem_append.mp hc with hc | hc
    · rw [List.eq_of_mem_replicate hc]
      rfl
    · rcases isIndent_iff.mp (hindent c hc) with rfl | rfl <;> rfl
  · right
    obtain ⟨start, hstart⟩ := exists_indentTail_eq hfree earlier hc
    refine ⟨List.replicate blankLines '\n' ++ start, c, ?_, hc, hmem⟩
    rw [setApart, hstrip, hstart, List.append_assoc]

/-- Such a text mingles with the text around it exactly if there is something to be seen in the text
that was asked for, and behind it on the line. -/
theorem mingles_setApart_iff {pre right behind indent : List Char}
    (hindent : ∀ c ∈ indent, isIndent c = true) (hright : '\n' ∉ right)
    (hbehind : behind = [] ∨ ∃ later, behind = '\n' :: later) (blankLines : Nat)
    (inserted : List Char) :
    Mingles (pre ++ ('\n' :: setApart blankLines indent (strip inserted) ++ (right ++ behind)))
        pre.length (pre.length + ('\n' :: setApart blankLines indent (strip inserted)).length) ↔
      (∃ c ∈ inserted, isBlank c = false) ∧ ∃ c ∈ right, isBlank c = false := by
  rcases setApart_cases hindent blankLines inserted with
    ⟨hown, hblank⟩ | ⟨earlier, c, hown, hc, hmem⟩
  · rw [mingles_iff (.inl hown) hright hbehind]
    refine and_congr_left fun _ => iff_of_false ?_ ?_
    · intro hvisible
      obtain ⟨c, hmem, hc⟩ := hvisible
      cases (hown c hmem).symm.trans hc
    · intro hvisible
      obtain ⟨c, hmem, hc⟩ := hvisible
      cases (hblank c hmem).symm.trans hc
  · rw [mingles_iff (.inr ⟨earlier, c, hown, hc⟩) hright hbehind]
    refine and_congr_left fun _ => iff_of_true ⟨c, by simp [hown], hc⟩ ⟨c, hmem, hc⟩

namespace Draft

variable {draft : Draft} {text : String} {asked target : Node} {indent : String}

/-- Indentations are made of spaces and tabs. -/
theorem isIndent_of_contextualIndent (hsource : draft.source = encode text)
    (h : draft.contextualIndent target = some indent) : ∀ c ∈ indent.toList, isIndent c = true := by
  have hline : ∀ offset, ∀ c ∈ (lineIndent draft.source offset).toList, isIndent c = true := by
    intro offset c hc
    obtain ⟨line, -, hline, -⟩ := exists_line text offset
    rw [hsource, lineIndent_eq hline, String.toList_ofList] at hc
    exact List.mem_takeWhile_imp hc
  unfold contextualIndent at h
  split at h
  · obtain rfl := Option.some.inj h
    exact hline target.start
  · split at h
    · cases h
    · rename_i parent _
      dsimp only at h
      split at h
      · obtain rfl := Option.some.inj h
        rw [String.toList_append]
        exact List.forall_mem_append.mpr
          ⟨hline parent.start, isIndent_of_mem_indentUnit draft.source⟩
      · cases h

theorem formatAfter_of_indent (hkind : target.kind ∈ Kind.statements ++ Kind.declarations)
    (hindent : draft.contextualIndent target = some indent) (inserted : String) :
    (draft.formatAfter target inserted).toList =
      '\n' :: setApart (draft.blankLinesAfter target) indent.toList (strip inserted.toList) := by
  unfold formatAfter
  simp [isBlockLevel_of_mem hkind, hindent, setApart]

/-- Inserting after a statement or a declaration that gets an indentation starts a line for the
text, after the blank lines that set methods apart, but ends none: what stands behind the node on
its line goes on behind the last line of the text. So there is a line with characters of both,
blanks aside, exactly if both the text and the rest of the line have such a character. -/
theorem perform_insertAfter_lines (hsource : draft.source = encode text) (hnew : draft.edits = [])
    (htarget : insertionTarget asked = target)
    (hkind : target.kind ∈ Kind.statements ++ Kind.declarations)
    (hindent : draft.contextualIndent target = some indent)
    (hstop : target.stop ≤ (encode text).length) (hcut : ¬InsideCharacter text target.stop)
    (inserted : String) (journal : Journal) :
    ∃ (before left right behind own : List Char) (after : Draft) (result : String),
      LineCut text target.stop before left right behind ∧
      ((draft.perform (.insertAfter (.node asked) inserted)).run journal).1 = (after, none) ∧
      (∀ later, (after.render.run later).1 = .ok result) ∧
      result.toList = before ++ (left ++ own ++ right) ++ behind ∧
      (∃ lines last, indentedLines indent.toList (strip inserted.toList) = lines ++ [last] ∧
        pieces '\n' result.toList =
          (pieces '\n' text.toList).take (rowOf draft.source target.stop) ++ [left] ++
            List.replicate (draft.blankLinesAfter target) [] ++ lines ++ [last ++ right] ++
            (pieces '\n' text.toList).drop (rowOf draft.source target.stop + 1)) ∧
      (Mingles result.toList (before ++ left).length ((before ++ left).length + own.length) ↔
        (∃ c ∈ inserted.toList, isBlank c = false) ∧ ∃ c ∈ right, isBlank c = false) := by
  subst htarget
  have hblank := isIndent_of_contextualIndent hsource hindent
  have hfree : '\n' ∉ indent.toList := fun hmem => by cases hblank _ hmem
  obtain ⟨before, left, right, behind, h⟩ := exists_lineCut hstop hcut
  obtain ⟨result, hrender, hresult⟩ :=
    h.render_insertion (draft.formatAfter (insertionTarget asked) inserted)
  rw [formatAfter_of_indent hkind hindent] at hresult
  have hlines : indentedLines indent.toList (strip inserted.toList) ≠ [] := by
    rw [← pieces_indentTail hfree]
    obtain ⟨first, rest, hpieces, -⟩ := exists_pieces_cons '\n'
      (indent.toList ++ indentTail (strip inserted.toList) indent.toList)
    simp [hpieces]
  refine ⟨before, left, right, behind, _, _, result, h,
    run_insertAfter draft asked inserted journal, fun later => ?_, hresult, ?_, ?_⟩
  · rw [render_queue hnew, hsource]
    exact hrender
  · obtain ⟨lines, last, hsplit⟩ := (List.eq_nil_or_concat _).resolve_left hlines
    rw [List.concat_eq_append] at hsplit
    refine ⟨lines, last, hsplit, ?_⟩
    rw [hresult, h.pieces_behind hfree hsplit, hsource]
  · have hshape : result.toList = (before ++ left) ++ ('\n' ::
        setApart (draft.blankLinesAfter (insertionTarget asked)) indent.toList
          (strip inserted.toList) ++ (right ++ behind)) := by
      simp [hresult]
    rw [hshape]
    exact mingles_setApart_iff hblank h.right_free h.behind_begun _ inserted.toList

end Draft

/-- Behind the last statement of a line the inserted lines stay by themselves. -/
theorem Draft.perform_insertAfter_lines_block :
    insertionTarget Block.keyword = Block.declaration ∧
      Block.draft.contextualIndent Block.declaration = some "  " ∧
      ∃ (own : List Char) (after : Draft) (result : String),
        ((Block.draft.perform (.insertAfter (.node Block.keyword) "x\ny")).run {}).1 =
          (after, none) ∧
        (after.render.run {}).1 = .ok result ∧
        result.toList = "\x7b\n  a(); let é;".toList ++ own ++ "\n\x7d".toList ∧
        pieces '\n' result.toList = ["\x7b", "  a(); let é;", "  x", "  y", "\x7d"].map
          String.toList ∧
        ¬Mingles result.toList 15 (15 + own.length) := by
  have hkeyword : insertionTarget Block.keyword = Block.declaration := rfl
  have hindent := Block.contextualIndent_declaration
  obtain ⟨before, left, right, behind, own, after, result, hcut, hperform, hrender, hresult,
      ⟨lines, last, hsplit, hlines⟩, hmingles⟩ :=
    Draft.perform_insertAfter_lines (rfl : Block.draft.source = encode Block.source) rfl hkeyword
      (by decide) hindent Block.lineCut_end.offset_le
      Block.lineCut_end.not_insideCharacter "x\ny" {}
  obtain ⟨rfl, rfl, rfl, rfl⟩ := hcut.unique Block.lineCut_end
  refine ⟨hkeyword, hindent, own, after, result, hperform, hrender {}, ?_, ?_, ?_⟩
  · rw [hresult]
    simp
  · have hrow : rowOf Block.draft.source Block.declaration.stop = 1 := Block.lineCut_end.rowOf_eq
    rw [hlines, List.append_nil, List.append_assoc _ lines, ← hsplit, hrow, Block.toList_source]
    simp only [String.reduceToList, List.map_cons, List.map_nil]
    decide
  · intro h
    obtain ⟨-, c, hc, -⟩ := hmingles.mp h
    cases hc

namespace SharedLine

open Mark (extent)

/-- Two statements on one line. -/
def source : String := "a(); b();\n"

def firstElement : Element := ⟨"expression_statement", extent 0 4, []⟩

def program : Node :=
  ⟨⟨"program", extent 0 10,
    [.node (some "expression_statement") (extent 0 4) [],
      .node (some "expression_statement") (extent 5 9) []]⟩, []⟩

def first : Node := program.child 0 firstElement

def draft : Draft :=
  { root := program, setting := ⟨encode source, true⟩, source := encode source }

end SharedLine

/-- A comment inserted after the first of two statements on a line takes in the second one. -/
theorem Draft.insertAfter_takes_in_next_statement :
    SharedLine.first.kind ∈ Kind.statements ∧
      SharedLine.draft.contextualIndent SharedLine.first = some "" ∧
      ∃ after, ((SharedLine.draft.perform
          (.insertAfter (.node SharedLine.first) "// note")).run {}).1 = (after, none) ∧
        (after.render.run {}).1 = .ok "a();\n// note b();\n" ∧
        Mingles "a();\n// note b();\n".toList 4 12 := by
  refine ⟨by decide, by decide +kernel, _, rfl, by decide +kernel, 1, 5, 13, '/', 'b', ?_⟩
  have hinserted : CharAt "a();\n// note b();\n".toList 5 1 '/' := ⟨by decide, by decide⟩
  have hnext : CharAt "a();\n// note b();\n".toList 13 1 'b' := ⟨by decide, by decide⟩
  exact ⟨hinserted, hnext, by decide, by decide, by decide, by decide⟩

end Arborist
