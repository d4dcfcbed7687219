import Arborist.Proofs.Command.WriteBack
import Arborist.Proofs.Diff.Separation

/-!
# What a printed difference is good for

A command that is to show what it would do to a file prints the lines of a difference and changes
nothing. The lines make the result from the text of the file, whatever the texts are. But they are
printed one directly behind the other, so the printed text can be applied only if each of them but
the last ends with a line feed; if not, it cannot even be read.
-/

namespace Arborist.Command

open Text

section Showing

variable {parser : Parser} {folder : Folder} {options : TransformOptions}
  {journal after : Journal} {document : Document} {draft : Draft} {source result : String}

theorem join_diffLines (text : String) : String.join (diffLines text) = text :=
  join_linesWithEnds text

theorem diffLines_injective : Function.Injective diffLines :=
  Function.LeftInverse.injective join_diffLines

/-- A command that shows a difference leaves the folder as it is. What it prints are lines that make
the result from the text of the file. As one text they make it exactly if each of them but the last
ends with a line feed, and if not, they cannot be read; so it is if every line of the file ends with
a line feed, and every line of the result but the last. -/
theorem transform_diff_patches_iff {content : Bytes} (journal : Journal)
    (hentry : folder.entry? (PathName.ofString options.file) = some (.file content))
    (hsource : fileText? content = some source)
    (hname : '\n' ∉ (PathName.ofString options.file).baseName.toList)
    (hwrite : options.write = false) (hshow : options.showDiff = true)
    (h : Ends (session parser folder options) journal (document, draft) after)
    (hrender : Edit.render draft.source draft.edits = .ok result) (hne : result ≠ source) :
    let base := (PathName.ofString options.file).baseName
    let revised := ((transform parser folder options).run journal).1
    let printed := revised.report.output
    let lines := Diff.listing ("a/" ++ base) ("b/" ++ base) (diffLines source) (diffLines result)
    revised = ⟨{ output := String.join lines }, folder⟩ ∧
    Diff.patchLines lines (diffLines source) = some (diffLines result) ∧
    (Fed (diffLines source) →
      (Diff.patch printed source = some result ↔ Fed lines) ∧
      (¬Fed lines → Diff.readPatch (feedLines printed) = none)) ∧
    ((∀ line ∈ diffLines source, EndsFed line) → Fed (diffLines result) →
      Diff.patch printed source = some result) := by
  intro base revised printed lines
  have hlines : diffLines source ≠ diffLines result := fun heq => hne (diffLines_injective heq).symm
  have hunified := Diff.unified_of_ne ("a/" ++ base) ("b/" ++ base) hlines
  have hrevised : revised = ⟨{ output := String.join lines }, folder⟩ := by
    have htext := (text_of_ends_session hentry hsource h).1
    show ((transform parser folder options).run journal).1 = _
    rw [run_transform_of_ends h hrender, deliver, if_neg (by simp [hwrite]), if_pos hshow, htext,
      ← hunified]
  have hprinted : printed = String.join lines := congrArg (·.report.output) hrevised
  have hisLine : ∀ {text : String}, ∀ line ∈ diffLines text, IsLine line :=
    fun _ => isLine_of_mem_linesWithEnds
  have holdName : '\n' ∉ ("a/" ++ base).toList := by simpa using hname
  have hnewName : '\n' ∉ ("b/" ++ base).toList := by simpa using hname
  have hpatch : Fed (diffLines source) → Fed lines → Diff.patch printed source = some result := by
    intro hfed hfedLines
    have hmade := Diff.patch_join_of_fed hisLine hisLine holdName hnewName hfed hfedLines
    rw [hprinted]
    rwa [join_diffLines, join_diffLines] at hmade
  have hunread : Fed (diffLines source) → ¬Fed lines →
      Diff.readPatch (feedLines printed) = none := by
    intro hfed hfedLines
    rw [hprinted]
    exact Diff.readPatch_join_of_not_fed hisLine hisLine holdName hnewName hfed hfedLines
  refine ⟨hrevised, Diff.patchLines_listing _ _ _ _, ?_, ?_⟩
  · intro hfed
    refine ⟨⟨fun hmade => ?_, hpatch hfed⟩, hunread hfed⟩
    by_contra hrun
    rw [Diff.patch, Diff.patchLines, hunread hfed hrun] at hmade
    cases hmade
  · intro hall hfed
    exact hpatch (Fed.of_all hall) (Diff.fed_listing hall hfed _ _)

end Showing

namespace LastLine

/-- A parser that finds the statement `a;` at the start of a text. -/
def parser (stop : Nat) : Parser := fun _ _ =>
  .ok (.node (some "program") (.extent 0 stop)
    [.node (some "expression_statement") (.extent 0 2)
      [.node (some "identifier") (.extent 0 1) [],
        .node (some ";") ⟨1, 2, false, false, false, none⟩ []]])

def folder (text : String) : Folder := ⟨[(["sample.js"], encode text)]⟩

/-- The name that the text has is to be renamed. -/
def options : TransformOptions :=
  { file := "sample.js", identifierRenames := ["a=b"], showDiff := true }

/-- What the edits make of the text, if the session comes to its end. -/
def rendered (stop : Nat) (text : String) : Option (Except Conflict String) :=
  ((session (parser stop) (folder text) options).run.run {}).1.toOption.map fun opened =>
    Edit.render opened.2.source opened.2.edits

end LastLine

open LastLine in
/-- A last line without an end that is not changed comes last in the difference, which can be
applied. -/
theorem transform_diff_patches_iff_unendedLine :
    let printed := ((transform (parser 8) (folder "a;\n// no") options).run {}).1.report.output
    printed = "--- a/sample.js\n+++ b/sample.js\n@@ -1,2 +1,2 @@\n-a;\n+b;\n // no" ∧
      Diff.patch printed "a;\n// no" = some "b;\n// no" := by
  intro printed
  have hrendered : rendered 8 "a;\n// no" = some (.ok "b;\n// no") := by decide +kernel
  obtain ⟨⟨document, draft⟩, hsession, hrender⟩ := Option.map_eq_some_iff.mp hrendered
  have hends : Ends (session (parser 8) (folder "a;\n// no") options) {} (document, draft) _ :=
    Ends.of_toOption hsession
  have hentry : Folder.entry? (folder "a;\n// no") (PathName.ofString options.file) =
      some (.file (encode "a;\n// no")) := by decide +kernel
  have hsource : fileText? (encode "a;\n// no") = some "a;\n// no" := by decide +kernel
  obtain ⟨hrevised, -, hpatch, -⟩ := transform_diff_patches_iff {} hentry hsource
    (by decide +kernel) rfl rfl hends hrender (by decide +kernel)
  have hprinted : printed = _ := congrArg (·.report.output) hrevised
  refine ⟨hprinted.trans (by decide +kernel), ?_⟩
  exact (hpatch (by decide +kernel)).1.mpr (by decide +kernel)

open LastLine in
/-- The line that is removed runs into the one that is added, and what is printed makes nothing of
the text. -/
theorem transform_diff_runs_together :
    let printed := ((transform (parser 2) (folder "a;") options).run {}).1.report.output
    rendered 2 "a;" = some (.ok "b;") ∧
      printed = "--- a/sample.js\n+++ b/sample.js\n@@ -1 +1 @@\n-a;+b;" ∧
      Diff.patch printed "a;" = none := by
  decide +kernel

end Arborist.Command
