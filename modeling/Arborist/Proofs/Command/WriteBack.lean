import Arborist.Proofs.Command.Steps
import Arborist.Proofs.Edit.Splice
import Arborist.Proofs.Text.LineEnds

/-!
# Writing back a file that was not edited

A file is read with its line ends unified, and what is written back is the text that was edited. So
a session that queues nothing still unifies the line ends of the file: `\r\n` and a lone `\r` become
`\n`, and the bytes stay as they were only where there is no carriage return. All else is kept, a
byte order mark included, and so is every other file of the folder.

The argument goes along the way of the text: unifying line ends, writing to a file of a folder, and
the command from the session on.
-/

namespace Arborist

open Text

/-! ## Line ends -/

namespace Text

/-- Unifying line ends changes the bytes of a text exactly if it has a carriage return. -/
theorem encode_unifyNewlines_eq_iff {text : String} :
    encode (String.ofList (unifyNewlines text.toList)) = encode text ↔ '\r' ∉ text.toList := by
  rw [← unifyNewlines_eq_self_iff]
  constructor
  · intro h
    exact (String.toList_ofList).symm.trans (congrArg String.toList (encode_injective h))
  · intro h
    rw [h, String.ofList_toList]

end Text

/-! ## Writing to a file -/

namespace Folder

variable {folder after : Folder} {path : PathName} {parts key : List String} {content new : Bytes}
  {files : List (List String × Bytes)}

theorem lookUp_eq_file_iff :
    folder.lookUp parts = some (.file content) ↔ folder.files.lookup parts = some content := by
  unfold lookUp
  cases folder.files.lookup parts with
  | some found => simp
  | none => simp

/-- A path leads to a file if it leads to components at which the folder has one. -/
theorem entry?_eq_file_iff : folder.entry? path = some (.file content) ↔
    ∃ parts, folder.locate path = some (0, parts) ∧
      folder.files.lookup parts = some content := by
  unfold entry?
  cases folder.locate path with
  | none => simp
  | some place =>
      obtain ⟨levels, parts⟩ := place
      cases levels with
      | zero => simp [lookUp_eq_file_iff]
      | succ levels => simp

theorem lookup_filter_of_ne (h : key ≠ parts) :
    (files.filter fun file => file.1 != parts).lookup key = files.lookup key := by
  induction files with
  | nil => rfl
  | cons file files ih =>
      obtain ⟨name, found⟩ := file
      by_cases hname : name = parts
      · have hkey : (key == name) = false := by simpa [hname] using h
        rw [List.filter_cons_of_neg (by simp [hname]), ih, List.lookup_cons, hkey]
      · rw [List.filter_cons_of_pos (by simp [hname]), List.lookup_cons, List.lookup_cons, ih]

/-- Replacing a file keeps the names, and with them the directories. -/
theorem any_replace (q : List String → Bool) (h : files.lookup parts = some content) :
    (((parts, new) :: files.filter fun file => file.1 != parts).any fun file => q file.1) =
      files.any fun file => q file.1 := by
  obtain ⟨before, rest, rfl, -⟩ := List.lookup_eq_some_iff.mp h
  rw [Bool.eq_iff_iff, List.any_eq_true, List.any_eq_true]
  constructor
  · intro hfile
    obtain ⟨file, hmem, hq⟩ := hfile
    rcases List.mem_cons.mp hmem with rfl | hmem
    · exact ⟨(parts, content), by simp, hq⟩
    · exact ⟨file, List.mem_of_mem_filter hmem, hq⟩
  · intro hfile
    obtain ⟨file, hmem, hq⟩ := hfile
    by_cases hname : file.1 = parts
    · exact ⟨(parts, new), List.mem_cons_self, hname ▸ hq⟩
    · exact ⟨file, List.mem_cons_of_mem _ (List.mem_filter.mpr ⟨hmem, by simpa using hname⟩), hq⟩

/-- Writing to a file changes what stands at its components, and nothing else. -/
theorem lookUp_write (hlocate : folder.locate path = some (0, parts))
    (hcontent : folder.files.lookup parts = some content) (key : List String) :
    (folder.write path new).lookUp key =
      if key = parts then some (.file new) else folder.lookUp key := by
  have hwrite : folder.write path new =
      ⟨(parts, new) :: folder.files.filter fun file => file.1 != parts⟩ := by
    simp only [write, hlocate]
  unfold lookUp
  rw [hwrite, any_replace (key.isPrefixOf ·) hcontent, List.lookup_cons]
  by_cases hkey : key = parts
  · simp [hkey]
  · rw [if_neg hkey, beq_false_of_ne hkey, lookup_filter_of_ne hkey]

/-- What is a directory decides where a path leads. -/
theorem locate_congr
    (h : ∀ key, after.lookUp key = some .directory ↔ folder.lookUp key = some .directory)
    (path : PathName) : after.locate path = folder.locate path := by
  have hsame : ∀ key,
      (after.lookUp key == some .directory) = (folder.lookUp key == some .directory) := by
    intro key
    rw [Bool.eq_iff_iff, beq_iff_eq, beq_iff_eq]
    exact h key
  have hfollow : ∀ rest levelsAbove here,
      after.follow levelsAbove here rest = folder.follow levelsAbove here rest := by
    intro rest
    induction rest with
    | nil => exact fun _ _ => rfl
    | cons part rest ih =>
        intro levelsAbove here
        simp only [follow, hsame, ih]
  unfold locate
  rw [hfollow]

/-- Writing to a file changes what the paths to it lead to, and nothing else. -/
theorem entry?_write (hentry : folder.entry? path = some (.file content)) (other : PathName) :
    Folder.entry? (folder.write path new) other =
      if folder.locate other = folder.locate path then some (.file new)
      else folder.entry? other := by
  obtain ⟨parts, hlocate, hcontent⟩ := entry?_eq_file_iff.mp hentry
  have hfile := lookUp_eq_file_iff.mpr hcontent
  have hsame : (folder.write path new).locate other = folder.locate other := by
    refine locate_congr (fun key => ?_) other
    rw [lookUp_write hlocate hcontent]
    by_cases hkey : key = parts
    · simp [hkey, hfile]
    · rw [if_neg hkey]
  unfold entry?
  rw [hsame, hlocate]
  cases folder.locate other with
  | none => simp
  | some place =>
      obtain ⟨levels, found⟩ := place
      cases levels with
      | zero => simp [lookUp_write hlocate hcontent]
      | succ levels => simp

end Folder

/-! ## Revising a file -/

theorem Edit.render_encode_nil (text : String) : Edit.render (encode text) [] = .ok text := by
  have hsorted : sorted [] = [] := List.mergeSort_nil
  have hcheck : check (encode text) [] = .ok () := by simp [check, hsorted, firstOverlap]
  have happly : applyAll (encode text) [] = encode text := by simp [applyAll, hsorted]
  unfold render
  rw [hcheck, happly, decode?_encode]
  rfl

namespace Command

section Revising

variable {parser : Parser} {folder : Folder} {options : TransformOptions}
  {journal after : Journal} {document : Document} {draft : Draft}

/-- A command that is stopped before it renders leaves the folder as it is. -/
theorem run_transform_of_stops {report : Report}
    (h : Stops (session parser folder options) journal report after) :
    (transform parser folder options).run journal = (⟨report, folder⟩, after) := by
  refine run_bind_of_eq (a := Except.error report) ?_ rfl
  exact stops_bind_iff.mpr (.inl h)

/-- A session reads the text of the file and edits it. -/
theorem text_of_ends_session {content : Bytes} {source : String}
    (hentry : folder.entry? (PathName.ofString options.file) = some (.file content))
    (hsource : fileText? content = some source)
    (h : Ends (session parser folder options) journal (document, draft) after) :
    document.text = source ∧ draft.source = encode source := by
  obtain ⟨opened, between, hopen, hrest⟩ := ends_bind_iff.mp h
  obtain ⟨found, hfound, htext⟩ := yields_openFile _ _ _ _ _ _ _ _ hopen
  obtain rfl : content = found := by simpa [hentry] using hfound
  obtain rfl : source = opened.text := by simpa [hsource] using htext
  obtain ⟨queued, between', happly, hpair⟩ := ends_bind_iff.mp hrest
  obtain ⟨heq, -⟩ := ends_pure_iff.mp hpair
  cases heq
  exact ⟨rfl, yields_applyOperations _ _ _ _ _ happly⟩

/-- A command delivers what its session makes of the file, and takes down how many edits it took. -/
theorem run_transform_of_ends {result : String}
    (h : Ends (session parser folder options) journal (document, draft) after)
    (hrender : Edit.render draft.source draft.edits = .ok result) :
    let path := PathName.ofString options.file
    let last := (draft.render.run after).2
    (transform parser folder options).run journal =
      (deliver folder options draft.edits document.text result,
        ((Logged.emit [⟨.info, .command, path.spelling ++ ": " ++ shownCount draft.edits⟩]).run
          last).2) := by
  intro path last
  have hrendered : (draft.render.run after).1 = .ok result := by rw [Draft.render_fst, hrender]
  refine run_bind_of_eq (a := Except.ok _) ?_ rfl
  show Ends _ journal _ _
  exact h.bind ((Ends.orStop hrendered).bind ((ends_lift _ _).bind (ends_pure_iff.mpr ⟨rfl, rfl⟩)))

/-- A command that has nothing to edit writes the text back as it was read. -/
theorem run_transform_of_no_edits {content : Bytes} {text : String}
    (hentry : folder.entry? (PathName.ofString options.file) = some (.file content))
    (hdecode : decode? content = some text) (hwrite : options.write = true)
    (h : Ends (session parser folder options) journal (document, draft) after)
    (hnone : draft.edits = []) :
    let path := PathName.ofString options.file
    ((transform parser folder options).run journal).1 =
      ⟨{ complaints := ["Wrote " ++ path.spelling ++ " (0 edit(s))"] },
        folder.write path (encode (String.ofList (unifyNewlines text.toList)))⟩ := by
  intro path
  have hsource : fileText? content = some (String.ofList (unifyNewlines text.toList)) := by
    simp [fileText?, hdecode]
  have hrender : Edit.render draft.source draft.edits =
      .ok (String.ofList (unifyNewlines text.toList)) := by
    rw [(text_of_ends_session hentry hsource h).2, hnone]
    exact Edit.render_encode_nil _
  have hcount : " (" ++ shownCount draft.edits ++ ")" = " (0 edit(s))" := by
    rw [hnone]
    rfl
  rw [run_transform_of_ends h hrender, deliver, if_pos hwrite, ← hcount]
  simp only [String.append_assoc]
  rfl

/-- With nothing queued, writing back unifies the line ends of the file and changes nothing else:
the bytes are as they were exactly if the text has no carriage return. If the session is stopped,
nothing is written. -/
theorem transform_write_of_no_edits {content : Bytes} {text : String} (journal : Journal)
    (hentry : folder.entry? (PathName.ofString options.file) = some (.file content))
    (hdecode : decode? content = some text) (hwrite : options.write = true) :
    let path := PathName.ofString options.file
    let revised := ((transform parser folder options).run journal).1
    let unified := encode (String.ofList (unifyNewlines text.toList))
    (∀ report after, Stops (session parser folder options) journal report after →
      revised.report = report ∧ revised.folder = folder) ∧
    ∀ document draft after, Ends (session parser folder options) journal (document, draft) after →
      draft.edits = [] →
      revised.report = { complaints := ["Wrote " ++ path.spelling ++ " (0 edit(s))"] } ∧
      (∀ other, revised.folder.entry? other =
        if folder.locate other = folder.locate path then some (.file unified)
        else folder.entry? other) ∧
      ('\r' ∉ text.toList ↔ revised.folder.entry? path = some (.file content)) := by
  intro path revised unified
  constructor
  · intro report after hstops
    have hrun : revised = ⟨report, folder⟩ := by
      show ((transform parser folder options).run journal).1 = _
      rw [run_transform_of_stops hstops]
    rw [hrun]
    exact ⟨rfl, rfl⟩
  · intro document draft after hends hnone
    have hrun : revised = ⟨_, folder.write path unified⟩ :=
      run_transform_of_no_edits hentry hdecode hwrite hends hnone
    have hcontent : content = encode text := decode?_eq_some_iff.mp hdecode
    rw [hrun]
    refine ⟨rfl, Folder.entry?_write hentry, ?_⟩
    rw [Folder.entry?_write hentry, if_pos rfl, Option.some.injEq, Entry.file.injEq, hcontent]
    exact encode_unifyNewlines_eq_iff.symm

end Revising

namespace CarriageReturns

/-- A parser that finds the statement `a;` at an offset. -/
def parser (start : Nat) : Parser := fun _ _ =>
  .ok (.node (some "program") (.extent start (start + 3))
    [.node (some "expression_statement") (.extent start (start + 2))
      [.node (some "identifier") (.extent start (start + 1)) [],
        .node (some ";") ⟨start + 1, start + 2, false, false, false, none⟩ []]])

def folder (text : String) : Folder := ⟨[(["sample.js"], encode text)]⟩

/-- A name that the text does not have is to be renamed. -/
def options : TransformOptions :=
  { file := "sample.js", identifierRenames := ["x=y"], write := true }

/-- The edits that are queued, if the session comes to its end. -/
def queued (start : Nat) (text : String) : Option (List Edit) :=
  ((session (parser start) (folder text) options).run.run {}).1.toOption.map (·.2.edits)

end CarriageReturns

open CarriageReturns in
/-- A byte order mark is written back, and both kinds of line ends with a carriage return become
line feeds. -/
theorem transform_write_of_no_edits_byteOrderMark :
    let revised := ((transform (parser 3) (folder "\ufeffa;\r\n\r") options).run {}).1
    revised.report = { complaints := ["Wrote sample.js (0 edit(s))"] } ∧
      revised.folder.entry? (PathName.ofString "sample.js") =
        some (.file (encode "\ufeffa;\n\n")) := by
  intro revised
  have hqueued : queued 3 "\ufeffa;\r\n\r" = some [] := by decide +kernel
  obtain ⟨⟨document, draft⟩, hsession, hnone⟩ := Option.map_eq_some_iff.mp hqueued
  have hends : Ends (session (parser 3) (folder "\ufeffa;\r\n\r") options) {} (document, draft) _ :=
    Ends.of_toOption hsession
  obtain ⟨hreport, hentries, -⟩ := (transform_write_of_no_edits {} (by decide +kernel)
    (decode?_encode "\ufeffa;\r\n\r") rfl).2 document draft _ hends hnone
  refine ⟨hreport.trans (by decide +kernel), ?_⟩
  rw [hentries]
  decide +kernel

open CarriageReturns in
/-- A line end of two characters is written back as one although nothing was edited. -/
theorem transform_write_carriageReturn_lost :
    let path := PathName.ofString "sample.js"
    let revised := ((transform (parser 0) (folder "a;\r\n") options).run {}).1
    queued 0 "a;\r\n" = some [] ∧
      Folder.entry? (folder "a;\r\n") path = some (.file (encode "a;\r\n")) ∧
      revised.folder.entry? path = some (.file (encode "a;\n")) := by
  decide +kernel

end Command

end Arborist
