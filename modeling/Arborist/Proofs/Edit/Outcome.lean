import Arborist.Proofs.Edit.Splice

/-!
# When rendering fails, and what the order of the queue can change

`check` looks at the byte under each end of an edit and at neighbours of the sorted queue. The laws
of this module are about characters and about all pairs of queued edits:

* `Misplaced`, `InConflict` — what can be wrong with one edit and with two;
* `render_cases` — the three ways in which rendering ends, each with everything that is then known
  of the queue; every later proof takes rendering apart through it;
* `Draft.render_outcome_iff` — a misplaced edit comes first, then a conflict, and otherwise there
  is a result; and
* `Draft.render_perm` — queues that differ in their order only, and not in the order of the
  insertions at any one offset, end in the same way.
-/

namespace Arborist

open Text

namespace Conflict

/-- The conflicts that are about the place of one edit in the source. -/
def isMisplacement : Conflict → Bool
  | .outOfBounds _ _ => true
  | .splitsCharacter _ _ => true
  | .overlap _ _ => false
  | .garbled => false

/-- The conflicts between two edits. -/
def isOverlap : Conflict → Bool
  | .overlap _ _ => true
  | .outOfBounds _ _ => false
  | .splitsCharacter _ _ => false
  | .garbled => false

end Conflict

namespace Edit

/-! ## What can be wrong with a queue -/

/-- An edit that starts before the source or ends after it, is inverted, or has an end strictly
inside a character. -/
def Misplaced (text : String) (e : Edit) : Prop :=
  e.start < 0 ∨ (encode text).length < e.stop ∨ e.stop < e.start ∨
    InsideCharacter text e.start ∨ InsideCharacter text e.stop

/-- Edits at two different places of a queue that cannot both be made. -/
def InConflict (edits : List Edit) (e f : Edit) : Prop :=
  ∃ i j : Nat, i ≠ j ∧ edits[i]? = some e ∧ edits[j]? = some f ∧ Conflicting e f

/-- The test on bytes accepts the edits that are not misplaced. -/
theorem fits_iff {text : String} {e : Edit} : Fits (encode text) e ↔ ¬Misplaced text e := by
  unfold Misplaced
  constructor
  · rintro ⟨hnonneg, hle, hstop, hcutStart, hcutStop⟩ h
    rw [← Bool.not_eq_true, insideCharacter_iff (by omega) (by omega)] at hcutStart hcutStop
    rcases h with h | h | h | h | h
    · omega
    · omega
    · omega
    · exact hcutStart h
    · exact hcutStop h
  · intro h
    simp only [not_or, Int.not_lt] at h
    obtain ⟨hnonneg, hstop, hle, hcutStart, hcutStop⟩ := h
    rw [← insideCharacter_iff (by omega) (by omega), Bool.not_eq_true] at hcutStart hcutStop
    exact ⟨hnonneg, hle, hstop, hcutStart, hcutStop⟩

/-- The flaw of an edit is about its place and names the edit. -/
theorem flaw?_eq_some {source : Bytes} {e : Edit} {conflict : Conflict}
    (h : flaw? source e = some conflict) :
    conflict.isMisplacement = true ∧ conflict.edits = [e] := by
  unfold flaw? at h
  split at h
  · obtain rfl := Option.some.inj h
    exact ⟨rfl, rfl⟩
  split at h
  · obtain rfl := Option.some.inj h
    exact ⟨rfl, rfl⟩
  split at h
  · obtain rfl := Option.some.inj h
    exact ⟨rfl, rfl⟩
  · cases h

/-- Two edits that a rearranged queue begins with stand at two places of the queue. -/
theorem exists_places_of_perm {edits rest : List Edit} {e f : Edit}
    (h : edits.Perm (e :: f :: rest)) :
    ∃ i j : Nat, i ≠ j ∧ edits[i]? = some e ∧ edits[j]? = some f := by
  obtain ⟨before, after, rfl⟩ := List.append_of_mem (h.mem_iff.mpr List.mem_cons_self)
  have hothers : (before ++ after).Perm (f :: rest) :=
    (List.perm_middle.symm.trans h).cons_inv
  refine ⟨before.length, ?_⟩
  rcases List.mem_append.mp (hothers.mem_iff.mpr List.mem_cons_self) with hf | hf
  · obtain ⟨j, hj, hget⟩ := List.mem_iff_getElem.mp hf
    refine ⟨j, by omega, by simp, ?_⟩
    rw [List.getElem?_append_left hj, List.getElem?_eq_getElem hj, hget]
  · obtain ⟨j, hj, hget⟩ := List.mem_iff_getElem.mp hf
    refine ⟨before.length + (j + 1), by omega, by simp, ?_⟩
    rw [List.getElem?_append_right (by omega), Nat.add_sub_cancel_left, List.getElem?_cons_succ,
      List.getElem?_eq_getElem hj, hget]

/-- A queue is free of conflicts exactly if no earlier edit is in conflict with a later one. -/
theorem not_inConflict_iff {edits : List Edit} :
    (¬∃ e f, InConflict edits e f) ↔ edits.Pairwise fun e f => ¬Conflicting e f := by
  rw [List.pairwise_iff_getElem]
  constructor
  · intro h i j hi hj hlt hconf
    exact h ⟨_, _, i, j, by omega, List.getElem?_eq_getElem hi, List.getElem?_eq_getElem hj, hconf⟩
  · rintro h ⟨e, f, i, j, hne, hi, hj, hconf⟩
    obtain ⟨hilt, rfl⟩ := List.getElem?_eq_some_iff.mp hi
    obtain ⟨hjlt, rfl⟩ := List.getElem?_eq_some_iff.mp hj
    rcases Nat.lt_or_gt_of_ne hne with hlt | hlt
    · exact h i j hilt hjlt hlt hconf
    · exact h j i hjlt hilt hlt hconf.symm

/-- If the sorted edits are apart, no two edits of the queue are in conflict. -/
theorem not_inConflict_of_apart {edits : List Edit} (h : Apart (sorted edits)) :
    ¬∃ e f, InConflict edits e f := by
  rw [not_inConflict_iff, ← (sorted_perm edits).pairwise_iff fun hef hfe => hef hfe.symm]
  exact h.not_conflicting

/-- The overlap that the check finds is a conflict of the queue. -/
theorem inConflict_of_firstOverlap {edits : List Edit} {e f : Edit}
    (hle : ∀ g ∈ edits, g.start ≤ g.stop) (h : firstOverlap (sorted edits) = some (e, f)) :
    InConflict edits e f := by
  obtain ⟨before, after, hsplit, hover⟩ := firstOverlap_eq_some h
  have hpair : [e, f].Sublist (sorted edits) := by
    rw [hsplit]
    exact List.sublist_append_of_sublist_right
      (((List.nil_sublist after).cons_cons f).cons_cons e)
  have hpairwise := List.Pairwise.sublist hpair (sorted_pairwise edits)
  have hef := List.pairwise_pair.mp hpairwise
  have hf : f ∈ edits := mem_sorted.mp (hpair.subset (by simp))
  have hmoved : (before ++ e :: f :: after).Perm (e :: f :: (before ++ after)) :=
    List.perm_middle.trans (List.perm_middle.cons e)
  obtain ⟨i, j, hne, hi, hj⟩ :=
    exists_places_of_perm ((sorted_perm edits).symm.trans (hsplit ▸ hmoved))
  exact ⟨i, j, hne, hi, hj, conflicting_of_notAfter (hle f hf) hef hover⟩

/-! ## The three ways in which rendering ends -/

/-- Rendering over a valid source ends with the flaw of the first edit that does not fit, or with
two edits in conflict, or with the spliced source. -/
theorem render_cases {source : Bytes} (hvalid : ValidUtf8 source) (edits : List Edit) :
    (∃ before e after conflict, edits = before ++ e :: after ∧ ¬Fits source e ∧
      (∀ f ∈ before, Fits source f) ∧ conflict.isMisplacement = true ∧ conflict.edits = [e] ∧
      render source edits = .error conflict) ∨
    (∃ e f, (∀ g ∈ edits, Fits source g) ∧ InConflict edits e f ∧
      render source edits = .error (.overlap e f)) ∨
    (∃ result, (∀ g ∈ edits, Fits source g) ∧ Apart (sorted edits) ∧
      render source edits = .ok result ∧ encode result = splice source (sorted edits)) := by
  cases hflaw : edits.findSome? (flaw? source) with
  | some conflict =>
      obtain ⟨before, e, after, hsplit, he, hbefore⟩ := List.findSome?_eq_some_iff.mp hflaw
      obtain ⟨hkind, hedits⟩ := flaw?_eq_some he
      refine .inl ⟨before, e, after, conflict, hsplit, ?_, ?_, hkind, hedits, ?_⟩
      · intro hfits
        rw [flaw?_eq_none_iff.mpr hfits] at he
        cases he
      · exact fun f hf => flaw?_eq_none_iff.mp (hbefore f hf)
      · simp only [render, check, hflaw]
        rfl
  | none =>
      have hfits := findSome?_flaw?_eq_none_iff.mp hflaw
      have hle : ∀ g ∈ edits, g.start ≤ g.stop := fun g hg => (hfits g hg).start_le_stop
      cases hover : firstOverlap (sorted edits) with
      | some pair =>
          obtain ⟨e, f⟩ := pair
          refine .inr (.inl ⟨e, f, hfits, inConflict_of_firstOverlap hle hover, ?_⟩)
          simp only [render, check, hflaw, hover]
          rfl
      | none =>
          have hapart : Apart (sorted edits) :=
            (firstOverlap_eq_none_iff fun g hg => hle g (mem_sorted.mp hg)).mp hover
          obtain ⟨result, hrender, hbytes⟩ :=
            render_of_check hvalid (check_eq_ok_iff.mpr ⟨hfits, hapart⟩)
          exact .inr (.inr ⟨result, hfits, hapart, hrender, hbytes⟩)

/-- An edit that does not fit is the end of it. -/
theorem render_of_not_fits {source : Bytes} {edits : List Edit} (hvalid : ValidUtf8 source)
    (h : ¬∀ e ∈ edits, Fits source e) :
    ∃ conflict, render source edits = .error conflict ∧ conflict.isMisplacement = true := by
  rcases render_cases hvalid edits with
    ⟨-, -, -, conflict, -, -, -, hkind, -, hrender⟩ | ⟨-, -, hfits, -⟩ | ⟨-, hfits, -⟩
  · exact ⟨conflict, hrender, hkind⟩
  · exact absurd hfits h
  · exact absurd hfits h

/-- If all edits fit, two of them in conflict are reported. -/
theorem render_of_inConflict {source : Bytes} {edits : List Edit} (hvalid : ValidUtf8 source)
    (hfits : ∀ e ∈ edits, Fits source e) (hconf : ∃ e f, InConflict edits e f) :
    ∃ conflict, render source edits = .error conflict ∧ conflict.isOverlap = true := by
  rcases render_cases hvalid edits with
    ⟨before, e, after, -, hsplit, he, -⟩ | ⟨e, f, -, -, hrender⟩ | ⟨-, -, hapart, -⟩
  · exact absurd (hfits e (by simp [hsplit])) he
  · exact ⟨.overlap e f, hrender, rfl⟩
  · exact absurd hconf (not_inConflict_of_apart hapart)

/-- Otherwise the source is spliced. -/
theorem render_of_not_inConflict {source : Bytes} {edits : List Edit}
    (hvalid : ValidUtf8 source) (hfits : ∀ e ∈ edits, Fits source e)
    (hfree : ¬∃ e f, InConflict edits e f) :
    Apart (sorted edits) ∧ ∃ result, render source edits = .ok result ∧
      encode result = splice source (sorted edits) := by
  rcases render_cases hvalid edits with
    ⟨before, e, after, -, hsplit, he, -⟩ | ⟨e, f, -, hconf, -⟩ |
    ⟨result, -, hapart, hrender, hbytes⟩
  · exact absurd (hfits e (by simp [hsplit])) he
  · exact absurd ⟨e, f, hconf⟩ hfree
  · exact ⟨hapart, result, hrender, hbytes⟩

/-- Edits that fit and follow one another are spliced in as they come. -/
theorem render_of_apart {source : Bytes} {edits : List Edit} (hvalid : ValidUtf8 source)
    (hfits : ∀ e ∈ edits, Fits source e) (hapart : Apart edits) :
    ∃ result, render source edits = .ok result ∧ Ahead source 0 edits ∧
      encode result = splice source edits := by
  obtain ⟨-, result, hrender, hbytes⟩ := render_of_not_inConflict hvalid hfits
    (not_inConflict_iff.mpr hapart.not_conflicting)
  rw [hapart.sorted_eq fun e he => (hfits e he).start_le_stop] at hbytes
  exact ⟨result, hrender, ⟨hfits, hapart, fun e he => (hfits e he).start_nonneg⟩, hbytes⟩

/-! ## The order of the queue -/

/-- Whether two renderings end in the same way: with misplaced edits, with conflicts, or with the
same text. -/
def SameOutcome : Except Conflict String → Except Conflict String → Prop
  | .ok first, .ok second => first = second
  | .error first, .error second =>
    (first.isMisplacement = true ∧ second.isMisplacement = true) ∨
      (first.isOverlap = true ∧ second.isOverlap = true)
  | _, _ => False

/-- A conflict of a queue is one of every rearrangement of it. -/
theorem exists_inConflict_of_perm {first second : List Edit} (hperm : first.Perm second)
    (h : ∃ e f, InConflict first e f) : ∃ e f, InConflict second e f := by
  by_contra hnone
  rw [not_inConflict_iff, ← hperm.pairwise_iff fun hef hfe => hef hfe.symm,
    ← not_inConflict_iff] at hnone
  exact hnone h

/-- Queues without conflicts that differ in their order only, and agree on the order of the
insertions at each offset, are sorted to the same list: edits that share a range without being
insertions would be in conflict. -/
theorem sorted_eq_of_perm {first second : List Edit} (hperm : first.Perm second)
    (hle : ∀ e ∈ first, e.start ≤ e.stop) (hapart : Apart (sorted first))
    (hinsertions : ∀ offset,
      first.filter (hasRange offset offset) = second.filter (hasRange offset offset)) :
    sorted first = sorted second := by
  refine eq_of_filter_range_eq (sorted_pairwise first) (sorted_pairwise second)
    fun start stop => ?_
  rw [filter_sorted, filter_sorted]
  by_cases hrange : start = stop
  · subst hrange
    exact hinsertions start
  · refine eq_of_perm_of_pairwise_false (hperm.filter _) ?_
    have hfree := not_inConflict_iff.mp (not_inConflict_of_apart hapart)
    have hpairs : (first.filter (hasRange start stop)).Pairwise
        fun e f => ¬Conflicting e f := hfree.filter _
    refine hpairs.imp_of_mem fun he hf hfree => hfree ?_
    obtain ⟨hefirst, herange⟩ := List.mem_filter.mp he
    have := hle _ hefirst
    have := hasRange_iff.mp herange
    have := hasRange_iff.mp (List.mem_filter.mp hf).2
    unfold Conflicting
    omega

end Edit

/-! ## Drafts -/

namespace Draft

/-- **When rendering fails.** Over a valid source, rendering reports a misplaced edit exactly if
there is one, and then it reports the first in the order of the queue. Otherwise it reports a
conflict exactly if two edits at different places of the queue are in conflict, and then it reports
two such edits. Otherwise it returns a text. However it ends, source and queue are as before: what
is queued later joins the same queue, over the same source. -/
theorem render_outcome_iff (draft : Draft) (journal : Journal) (text : String)
    (hvalid : decode? draft.source = some text) :
    ((∃ conflict, (draft.render.run journal).1 = .error conflict ∧
        conflict.isMisplacement = true) ↔ ∃ e ∈ draft.edits, e.Misplaced text) ∧
    (∀ conflict, (draft.render.run journal).1 = .error conflict →
      conflict.isMisplacement = true →
      ∃ before e after, draft.edits = before ++ e :: after ∧ conflict.edits = [e] ∧
        e.Misplaced text ∧ ∀ f ∈ before, ¬f.Misplaced text) ∧
    ((¬∃ e ∈ draft.edits, e.Misplaced text) →
      ((∃ conflict, (draft.render.run journal).1 = .error conflict ∧
          conflict.isOverlap = true) ↔ ∃ e f, Edit.InConflict draft.edits e f) ∧
      (∀ conflict, (draft.render.run journal).1 = .error conflict →
        conflict.isOverlap = true →
        ∃ e f, conflict.edits = [e, f] ∧ Edit.InConflict draft.edits e f) ∧
      ((¬∃ e f, Edit.InConflict draft.edits e f) →
        ∃ result, (draft.render.run journal).1 = .ok result)) ∧
    ∀ more, ((draft.queue more).render.run (draft.render.run journal).2).1
      = Edit.render draft.source (draft.edits ++ more) := by
  have hfits (e : Edit) : Edit.Fits draft.source e ↔ ¬e.Misplaced text := by
    rw [decode?_eq_some_iff.mp hvalid]
    exact Edit.fits_iff
  rw [render_fst]
  rcases Edit.render_cases ⟨text, hvalid⟩ draft.edits with
    ⟨before, e, after, conflict, hsplit, he, hbefore, hkind, hedits, hrender⟩ |
    ⟨e, f, hall, hconf, hrender⟩ | ⟨result, hall, hapart, hrender, -⟩
  · -- The first misplaced edit is reported.
    have hmisplaced : e.Misplaced text := by
      rw [hfits] at he
      exact not_not.mp he
    have hmem : e ∈ draft.edits := by simp [hsplit]
    refine ⟨?_, ?_, fun hnone => absurd ⟨e, hmem, hmisplaced⟩ hnone, fun more => render_fst _ _⟩
    · exact iff_of_true ⟨conflict, hrender, hkind⟩ ⟨e, hmem, hmisplaced⟩
    · rintro reported hreported -
      obtain rfl := Except.error.inj (hrender.symm.trans hreported)
      exact ⟨before, e, after, hsplit, hedits, hmisplaced, fun f hf => (hfits f).mp (hbefore f hf)⟩
  · -- All edits fit, and two of them are in conflict.
    have hnone : ¬∃ e ∈ draft.edits, e.Misplaced text :=
      fun ⟨g, hg, hmisplaced⟩ => (hfits g).mp (hall g hg) hmisplaced
    have honly : ∀ reported, Edit.render draft.source draft.edits = .error reported →
        reported = .overlap e f :=
      fun reported h => Except.error.inj (h.symm.trans hrender)
    refine ⟨iff_of_false ?_ hnone, ?_, fun _ => ⟨?_, ?_, ?_⟩, fun more => render_fst _ _⟩
    · rintro ⟨reported, hreported, hkind⟩
      rw [honly reported hreported] at hkind
      cases hkind
    · intro reported hreported hkind
      rw [honly reported hreported] at hkind
      cases hkind
    · exact iff_of_true ⟨.overlap e f, hrender, rfl⟩ ⟨e, f, hconf⟩
    · rintro reported hreported -
      exact ⟨e, f, by rw [honly reported hreported]; rfl, hconf⟩
    · exact fun hfree => absurd ⟨e, f, hconf⟩ hfree
  · -- Nothing is wrong.
    have hnone : ¬∃ e ∈ draft.edits, e.Misplaced text :=
      fun ⟨g, hg, hmisplaced⟩ => (hfits g).mp (hall g hg) hmisplaced
    have hfree := Edit.not_inConflict_of_apart hapart
    have hnever : ∀ reported, Edit.render draft.source draft.edits ≠ .error reported := by
      intro reported h
      rw [hrender] at h
      cases h
    refine ⟨iff_of_false ?_ hnone, ?_, fun _ => ⟨iff_of_false ?_ hfree, ?_, ?_⟩,
      fun more => render_fst _ _⟩
    · exact fun ⟨reported, hreported, _⟩ => hnever reported hreported
    · exact fun reported hreported _ => absurd hreported (hnever reported)
    · exact fun ⟨reported, hreported, _⟩ => hnever reported hreported
    · exact fun reported hreported _ => absurd hreported (hnever reported)
    · exact fun _ => ⟨result, hrender⟩

/-- An insertion inside a character of two bytes, queued after a replacement of the character. -/
theorem render_outcome_iff_inside_character :
    let draft := (overText "né!").queue [⟨1, 3, "e"⟩, ⟨2, 2, "x"⟩]
    decode? draft.source = some "né!" ∧
      ∃ conflict, (draft.render.run {}).1 = .error conflict ∧ conflict.isMisplacement = true := by
  intro draft
  have hvalid : decode? draft.source = some "né!" := decode?_encode _
  have hinside : InsideCharacter "né!" 2 :=
    ⟨['n'], 'é', ['!'], by decide, by decide +kernel, by decide +kernel⟩
  exact ⟨hvalid, (render_outcome_iff draft {} "né!" hvalid).1.mpr
    ⟨⟨2, 2, "x"⟩, by simp [draft, queue, overText], .inr (.inr (.inr (.inl hinside)))⟩⟩

/-- **The order of the queue.** Two drafts over the same valid source whose queues are
rearrangements of each other, with the insertions at each offset in the same order, render in the
same way. -/
theorem render_perm (first second : Draft) (journal other : Journal)
    (hvalid : ∃ text, decode? first.source = some text) (hsource : second.source = first.source)
    (hperm : first.edits.Perm second.edits)
    (hinsertions : ∀ offset, first.edits.filter (Edit.hasRange offset offset)
      = second.edits.filter (Edit.hasRange offset offset)) :
    Edit.SameOutcome (first.render.run journal).1 (second.render.run other).1 := by
  rw [render_fst, render_fst, hsource]
  have hall : (∀ e ∈ first.edits, Edit.Fits first.source e) ↔
      ∀ e ∈ second.edits, Edit.Fits first.source e :=
    forall_congr' fun e => by rw [hperm.mem_iff]
  have hconf : (∃ e f, Edit.InConflict first.edits e f) ↔
      ∃ e f, Edit.InConflict second.edits e f :=
    ⟨Edit.exists_inConflict_of_perm hperm, Edit.exists_inConflict_of_perm hperm.symm⟩
  by_cases hfits : ∀ e ∈ first.edits, Edit.Fits first.source e
  · by_cases hconflict : ∃ e f, Edit.InConflict first.edits e f
    · obtain ⟨_, hfirst, hkind⟩ := Edit.render_of_inConflict hvalid hfits hconflict
      obtain ⟨_, hsecond, hkind'⟩ :=
        Edit.render_of_inConflict hvalid (hall.mp hfits) (hconf.mp hconflict)
      rw [hfirst, hsecond]
      exact .inr ⟨hkind, hkind'⟩
    · obtain ⟨hapart, result, hfirst, hbytes⟩ :=
        Edit.render_of_not_inConflict hvalid hfits hconflict
      obtain ⟨-, result', hsecond, hbytes'⟩ :=
        Edit.render_of_not_inConflict hvalid (hall.mp hfits) (hconf.not.mp hconflict)
      -- Both results are the splice of the same list.
      have hsorted := Edit.sorted_eq_of_perm hperm
        (fun e he => (hfits e he).start_le_stop) hapart hinsertions
      rw [hfirst, hsecond]
      exact encode_injective (hbytes.trans (hsorted ▸ hbytes'.symm))
  · obtain ⟨_, hfirst, hkind⟩ := Edit.render_of_not_fits hvalid hfits
    obtain ⟨_, hsecond, hkind'⟩ := Edit.render_of_not_fits hvalid (hall.not.mp hfits)
    rw [hfirst, hsecond]
    exact .inl ⟨hkind, hkind'⟩

/-- A replacement queued before, and between, two insertions at its end. -/
theorem render_perm_around_insertions :
    let first := (overText "né!").queue [⟨0, 1, "m"⟩, ⟨1, 1, "x"⟩, ⟨1, 1, "y"⟩]
    let second := (overText "né!").queue [⟨1, 1, "x"⟩, ⟨0, 1, "m"⟩, ⟨1, 1, "y"⟩]
    first.edits.Perm second.edits ∧
      Edit.SameOutcome (first.render.run {}).1 (second.render.run {}).1 := by
  intro first second
  have hperm : first.edits.Perm second.edits := List.Perm.swap _ _ _
  have hsource := decode?_encode "né!"
  refine ⟨hperm, render_perm first second {} {} ⟨"né!", hsource⟩ rfl hperm fun offset => ?_⟩
  have hreplaces : Edit.hasRange offset offset ⟨0, 1, "m"⟩ = false := by
    rw [← Bool.not_eq_true, Edit.hasRange_iff]
    dsimp only
    omega
  simp [first, second, queue, overText, ofNode, List.filter_cons, hreplaces]

end Draft

end Arborist
