import Arborist.Text.Lines
import Mathlib.Data.List.Basic

/-!
# Line ends

Unifying the line ends of a text leaves no carriage return, and changes nothing else
(`unifyNewlines_eq_self_iff`).

A text can be cut after each line feed (`feedLines`), or after every line end (`linesWithEnds`). If
lines are put together to a text, cutting it after the line feeds gives them back, except that a
line without a line feed runs into the next one (`feedLines_join`). So the lines come back as they
were if each of them but the last ends with a line feed (`Fed`).
-/

namespace Arborist.Text

/-! ## Unified line ends -/

theorem carriageReturn_notMem_unifyNewlines (cs : List Char) : '\r' ∉ unifyNewlines cs := by
  fun_induction unifyNewlines cs with
  | case1 => exact List.not_mem_nil
  | case2 cs ih => simpa using ih
  | case3 c cs _ ih =>
      by_cases hc : c = '\r'
      · simpa [hc] using ih
      · simpa [hc, Ne.symm hc] using ih

/-- Unifying line ends changes a text exactly if it has a carriage return. -/
theorem unifyNewlines_eq_self_iff {cs : List Char} : unifyNewlines cs = cs ↔ '\r' ∉ cs := by
  constructor
  · intro h
    rw [← h]
    exact carriageReturn_notMem_unifyNewlines cs
  · intro h
    fun_induction unifyNewlines cs with
    | case1 => rfl
    | case2 cs ih => simp at h
    | case3 c cs _ ih =>
        rw [List.mem_cons, not_or] at h
        rw [ih h.2, if_neg (by simpa using Ne.symm h.1)]

/-! ## Cutting after line feeds -/

/-- Put something in front of the first of some lines; if there is none, it is a line by itself. -/
def runInto {α : Type} [Append α] (start : α) : List α → List α
  | [] => [start]
  | line :: lines => (start ++ line) :: lines

/-- Cut after each line feed. -/
def cutAfterFeeds : List Char → List (List Char)
  | [] => []
  | c :: cs => if c = '\n' then [c] :: cutAfterFeeds cs else runInto [c] (cutAfterFeeds cs)

/-- The lines of a text, each with the line feed that ends it. -/
def feedLines (text : String) : List String := (cutAfterFeeds text.toList).map String.ofList

/-- The line ends with a line feed. -/
def EndsFed (line : String) : Prop := line.toList.getLast? = some '\n'

instance (line : String) : Decidable (EndsFed line) := inferInstanceAs (Decidable (_ = _))

/-- Every line but the last ends with a line feed. -/
def Fed (lines : List String) : Prop := ∀ line ∈ lines.dropLast, EndsFed line

instance (lines : List String) : Decidable (Fed lines) :=
  inferInstanceAs (Decidable (∀ line ∈ lines.dropLast, EndsFed line))

/-- The text is a line: it is not empty, and if it has a line feed, it ends there. -/
def IsLine (line : String) : Prop := line ≠ "" ∧ '\n' ∉ line.toList.dropLast

/-- Let each line without a line feed run into the next one. -/
def runTogether : List String → List String
  | [] => []
  | line :: lines =>
    if EndsFed line then line :: runTogether lines else runInto line (runTogether lines)

variable {line text : String} {lines rest : List String}

theorem fed_cons_of_ne_nil (hne : lines ≠ []) : Fed (line :: lines) ↔ EndsFed line ∧ Fed lines := by
  rw [Fed, List.dropLast_cons_of_ne_nil hne, List.forall_mem_cons, Fed]

theorem fed_iff_isChain : Fed lines ↔ lines.IsChain fun line _ => EndsFed line := by
  induction lines with
  | nil => simp [Fed]
  | cons line lines ih =>
      cases lines with
      | nil => simp [Fed]
      | cons next lines =>
          rw [fed_cons_of_ne_nil (List.cons_ne_nil next lines), ih, List.isChain_cons_cons]

theorem Fed.cons (hlines : Fed lines) (hline : EndsFed line) : Fed (line :: lines) := by
  by_cases hne : lines = []
  · simp [hne, Fed]
  · exact (fed_cons_of_ne_nil hne).mpr ⟨hline, hlines⟩

theorem Fed.append (h : ∀ line ∈ lines, EndsFed line) (hrest : Fed rest) : Fed (lines ++ rest) := by
  induction lines with
  | nil => exact hrest
  | cons line lines ih =>
      obtain ⟨hline, hlines⟩ := List.forall_mem_cons.mp h
      exact (ih hlines).cons hline

theorem Fed.of_all (h : ∀ line ∈ lines, EndsFed line) : Fed lines :=
  fun line hline => h line (List.dropLast_subset lines hline)

/-- Lines that end as they should stay apart. -/
theorem runTogether_of_fed (h : Fed lines) : runTogether lines = lines := by
  induction lines with
  | nil => rfl
  | cons line lines ih =>
      rw [runTogether]
      by_cases hne : lines = []
      · subst hne
        split <;> rfl
      · obtain ⟨hline, hlines⟩ := (fed_cons_of_ne_nil hne).mp h
        rw [if_pos hline, ih hlines]

theorem exists_runTogether_cons (line : String) (lines : List String) :
    ∃ behind more, runTogether (line :: lines) = (line ++ behind) :: more := by
  rw [runTogether]
  split
  · exact ⟨"", runTogether lines, by rw [String.append_empty]⟩
  · cases runTogether lines with
    | nil => exact ⟨"", [], by rw [String.append_empty, runInto]⟩
    | cons first more => exact ⟨first, more, rfl⟩

/-! ## Lines put together -/

theorem runInto_append {α : Type} (xs ys : List α) (lines : List (List α)) :
    runInto (xs ++ ys) lines = runInto xs (runInto ys lines) := by
  cases lines with
  | nil => rfl
  | cons line lines => simp [runInto]

theorem map_runInto (cs : List Char) (lines : List (List Char)) :
    (runInto cs lines).map String.ofList =
      runInto (String.ofList cs) (lines.map String.ofList) := by
  cases lines with
  | nil => rfl
  | cons line lines => simp [runInto]

/-- Characters without a line feed run into the first line behind them. -/
theorem cutAfterFeeds_append_of_notMem {cs : List Char} (hne : cs ≠ []) (h : '\n' ∉ cs)
    (rest : List Char) : cutAfterFeeds (cs ++ rest) = runInto cs (cutAfterFeeds rest) := by
  induction cs with
  | nil => exact absurd rfl hne
  | cons c cs ih =>
      rw [List.mem_cons, not_or] at h
      rw [List.cons_append, cutAfterFeeds, if_neg (Ne.symm h.1)]
      by_cases hlast : cs = []
      · rw [hlast, List.nil_append]
      · rw [ih hlast h.2, ← runInto_append, List.singleton_append]

/-- A line that ends with a line feed is cut off. -/
theorem feedLines_append_of_endsFed (hline : IsLine line) (h : EndsFed line) (text : String) :
    feedLines (line ++ text) = line :: feedLines text := by
  obtain ⟨body, hbody⟩ := List.getLast?_eq_some_iff.mp h
  have hnone : '\n' ∉ body := by
    have hinner := hline.2
    rwa [hbody, List.dropLast_concat] at hinner
  have hcut : cutAfterFeeds (line.toList ++ text.toList) =
      line.toList :: cutAfterFeeds text.toList := by
    rw [hbody, List.append_assoc, List.singleton_append]
    by_cases hempty : body = []
    · rw [hempty, List.nil_append, cutAfterFeeds, if_pos rfl, List.nil_append]
    · rw [cutAfterFeeds_append_of_notMem hempty hnone, cutAfterFeeds, if_pos rfl, runInto]
  rw [feedLines, String.toList_append, hcut, List.map_cons, String.ofList_toList, feedLines]

/-- A line without a line feed runs into the next one. -/
theorem feedLines_append_of_not_endsFed (hline : IsLine line) (h : ¬EndsFed line) (text : String) :
    feedLines (line ++ text) = runInto line (feedLines text) := by
  have hne : line.toList ≠ [] := by simpa using hline.1
  have hnone : '\n' ∉ line.toList := by
    intro hmem
    rw [← List.dropLast_concat_getLast hne, List.mem_append, List.mem_singleton] at hmem
    rcases hmem with hinner | hlast
    · exact hline.2 hinner
    · exact h (by rw [EndsFed, List.getLast?_eq_some_getLast hne, ← hlast])
  rw [feedLines, String.toList_append, cutAfterFeeds_append_of_notMem hne hnone, map_runInto,
    String.ofList_toList, feedLines]

/-- Lines put together and cut after the line feeds are the lines, except that those without a line
feed run into the next one. -/
theorem feedLines_join (h : ∀ line ∈ lines, IsLine line) :
    feedLines (String.join lines) = runTogether lines := by
  induction lines with
  | nil => rfl
  | cons line lines ih =>
      obtain ⟨hline, hlines⟩ := List.forall_mem_cons.mp h
      rw [String.join_cons, runTogether]
      split
      · rename_i hfed
        rw [feedLines_append_of_endsFed hline hfed, ih hlines]
      · rename_i hfed
        rw [feedLines_append_of_not_endsFed hline hfed, ih hlines]

/-! ## Lines with any end -/

theorem flatten_linesFrom (line cs : List Char) :
    (linesFrom line cs).flatten = line.reverse ++ cs := by
  fun_induction linesFrom line cs with
  | case1 line hempty => simpa using hempty
  | case2 line hne => simp
  | case3 line cs ih => simp [ih]
  | case4 line c cs _ hend ih => simp [ih]
  | case5 line c cs _ hend ih => simp [ih]

theorem isLine_concat {body : List Char} (h : '\n' ∉ body) (c : Char) :
    IsLine (String.ofList (body ++ [c])) :=
  ⟨by simp, by simpa using h⟩

/-- Whatever ends a line, it has no line feed before its last character. -/
theorem isLine_of_mem_linesFrom {line cs found : List Char} (hline : '\n' ∉ line)
    (h : found ∈ linesFrom line cs) : IsLine (String.ofList found) := by
  have hreverse : ∀ {cs : List Char}, '\n' ∉ cs → '\n' ∉ cs.reverse := by simp
  fun_induction linesFrom line cs with
  | case1 line hempty => cases h
  | case2 line hne =>
      rw [List.mem_singleton] at h
      cases line with
      | nil => exact absurd rfl hne
      | cons c line =>
          rw [h, List.reverse_cons]
          exact isLine_concat (hreverse fun hmem => hline (List.mem_cons_of_mem c hmem)) c
  | case3 line cs ih =>
      rcases List.mem_cons.mp h with rfl | hrest
      · rw [List.reverse_cons]
        exact isLine_concat (hreverse (by simpa using hline)) '\n'
      · exact ih List.not_mem_nil hrest
  | case4 line c cs _ hend ih =>
      rcases List.mem_cons.mp h with rfl | hrest
      · rw [List.reverse_cons]
        exact isLine_concat (hreverse hline) c
      · exact ih List.not_mem_nil hrest
  | case5 line c cs _ hend ih =>
      refine ih ?_ h
      rw [List.mem_cons, not_or]
      exact ⟨fun hc => hend (by rw [← hc]; rfl), hline⟩

/-- The lines of a text, put together, are the text. -/
theorem join_linesWithEnds (text : String) :
    String.join ((linesWithEnds text.toList).map String.ofList) = text := by
  have hlists : ((linesWithEnds text.toList).map String.ofList).map String.toList =
      linesWithEnds text.toList := by
    simp [Function.comp_def]
  rw [← String.toList_inj, String.toList_join, List.flatMap_def, hlists, linesWithEnds,
    flatten_linesFrom]
  rfl

theorem isLine_of_mem_linesWithEnds {cs : List Char}
    (h : line ∈ (linesWithEnds cs).map String.ofList) : IsLine line := by
  obtain ⟨found, hfound, rfl⟩ := List.mem_map.mp h
  exact isLine_of_mem_linesFrom List.not_mem_nil hfound

end Arborist.Text
