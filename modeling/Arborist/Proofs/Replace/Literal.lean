import Arborist.Proofs.Computation
import Arborist.Replace.Substitution

/-!
# Replacing a text taken literally

A text taken literally is looked for at one place after another. Where it stands the new text is put
instead, and the search goes on behind it. `Rewritten` says what this comes to without a search: the
first occurrence is replaced, and then those in what follows it.

* `Rewritten.unique` — there is only one way to do that;
* `Needle.exists_replaceIn_literal` — it is what is computed;
* `Rewritten.ne_of_infix` — if there is an occurrence and the new text is another one, the text
  changes.
-/

namespace Arborist

namespace Text

/-! ## Occurrences replaced from the left -/

/-- The occurrences of a text are replaced by another text, from the left and without overlap: none
is left, or the first one is replaced, the text before it is kept, and the same goes for the
rest. -/
inductive Rewritten (old new : List Char) : List Char → List Char → Prop
  | done {rest : List Char} : ¬old <:+: rest → Rewritten old new rest rest
  | next {before rest copy : List Char} : ¬old <:+: (before ++ old).dropLast →
      Rewritten old new rest copy →
      Rewritten old new (before ++ old ++ rest) (before ++ new ++ copy)

namespace Rewritten

variable {old new text copy : List Char}

/-- Two first occurrences are the same. -/
theorem before_eq {before before' rest rest' : List Char}
    (heq : before ++ old ++ rest = before' ++ old ++ rest')
    (hfirst : ¬old <:+: (before ++ old).dropLast) (hfirst' : ¬old <:+: (before' ++ old).dropLast) :
    before = before' := by
  -- An occurrence further to the left would end before the last character of the other.
  have earlier : ∀ {front front' tail tail' : List Char},
      front ++ old ++ tail = front' ++ old ++ tail' → ¬old <:+: (front' ++ old).dropLast →
      front'.length ≤ front.length := by
    intro front front' tail tail' hsame hnone
    refine Nat.le_of_not_lt fun hlt => hnone ?_
    have hstarts : front ++ old <+: (front' ++ old).dropLast := by
      refine List.prefix_of_prefix_length_le (List.prefix_append _ tail) ?_ ?_
      · rw [hsame]
        exact (List.dropLast_prefix _).trans (List.prefix_append _ tail')
      · simp only [List.length_append, List.length_dropLast]
        omega
    exact (List.suffix_append front old).isInfix.trans hstarts.isInfix
  have hle := earlier heq hfirst'
  have hge := earlier heq.symm hfirst
  rw [List.append_assoc, List.append_assoc] at heq
  exact (List.append_inj heq (by omega)).1

/-- There is only one copy of a text. -/
theorem unique {other : List Char} (h : Rewritten old new text copy)
    (hother : Rewritten old new text other) : copy = other := by
  induction h generalizing other with
  | done hnone =>
      cases hother with
      | done => rfl
      | @next before =>
          refine absurd ?_ hnone
          exact ⟨before, _, rfl⟩
  | @next before rest copy hfirst _ ih =>
      generalize htext : before ++ old ++ rest = text at hother
      cases hother with
      | done hnone =>
          refine absurd ?_ hnone
          exact ⟨before, rest, htext⟩
      | @next before' rest' copy' hfirst' hrest =>
          obtain rfl := before_eq htext hfirst hfirst'
          obtain rfl := List.append_cancel_left htext
          rw [ih hrest]

/-- The copy is not shorter if the new text is not, and not longer if it is not. -/
theorem length_le (h : Rewritten old new text copy) :
    (old.length ≤ new.length → text.length ≤ copy.length) ∧
      (new.length ≤ old.length → copy.length ≤ text.length) := by
  induction h with
  | done => exact ⟨fun _ => Nat.le_refl _, fun _ => Nat.le_refl _⟩
  | next _ _ ih =>
      obtain ⟨hlonger, hshorter⟩ := ih
      simp only [List.length_append]
      constructor
      · intro hle
        have := hlonger hle
        omega
      · intro hle
        have := hshorter hle
        omega

/-- Replacing at least one occurrence by another text changes the text. -/
theorem ne_of_infix (h : Rewritten old new text copy) (hne : old ≠ new) (hoccurs : old <:+: text) :
    copy ≠ text := by
  intro hsame
  cases h with
  | done hnone => exact hnone hoccurs
  | @next before rest copy _ hrest =>
      rw [List.append_assoc, List.append_assoc, List.append_cancel_left_eq] at hsame
      obtain ⟨hlonger, hshorter⟩ := hrest.length_le
      have hlength := congrArg List.length hsame
      simp only [List.length_append] at hlength
      -- All replacements make the text longer, or all make it shorter, unless the lengths agree.
      have hequal : new.length = old.length := by omega
      exact hne (List.append_inj hsame hequal).1.symm

/-- A text in front that begins no occurrence is kept. -/
theorem cons {c : Char} (h : Rewritten old new text copy) (hstart : ¬old <+: c :: text) :
    Rewritten old new (c :: text) (c :: copy) := by
  cases h with
  | done hnone =>
      refine .done fun hoccurs => ?_
      exact (List.infix_cons_iff.mp hoccurs).elim hstart hnone
  | @next before rest copy hfirst hrest =>
      refine @Rewritten.next old new (c :: before) rest copy ?_ hrest
      by_cases hempty : before ++ old = []
      · have hold := List.append_eq_nil_iff.mp hempty
        exact absurd (hold.2 ▸ List.nil_prefix) hstart
      · rw [List.cons_append, List.dropLast_cons_of_ne_nil hempty]
        intro hoccurs
        rcases List.infix_cons_iff.mp hoccurs with hstarts | hlater
        · refine hstart (hstarts.trans ?_)
          rw [List.prefix_cons_inj]
          exact (List.dropLast_prefix _).trans (List.prefix_append _ rest)
        · exact hfirst hlater

/-- An occurrence at the start is replaced. -/
theorem start (h : Rewritten old new text copy) (hold : old ≠ []) :
    Rewritten old new (old ++ text) (new ++ copy) := by
  refine @Rewritten.next old new [] text copy (fun hoccurs => ?_) h
  have hlength := hoccurs.length_le
  have hpos := List.length_pos_iff.mpr hold
  simp only [List.nil_append, List.length_dropLast] at hlength
  omega

end Rewritten

end Text

/-! ## What is computed -/

namespace Needle

open Text

variable {ε : Type} {old : String} {replace : Found → Except ε (List Char)} {c : Char}
  {behind rest : List Char}

theorem found_literal (behind ahead : List Char) :
    (literal old).found behind ahead =
      if old.toList <+: ahead then [{ text := old.toList }] else [] := by
  simp only [found, List.isPrefixOf_iff_prefix]

/-- At the end there is nothing left to be replaced. -/
theorem substituteFrom_literal_nil (hold : old.toList ≠ []) (skip : Nat) (behind : List Char) :
    (literal old).substituteFrom replace skip behind [] = .ok [] := by
  have hnone : (literal old).found behind [] = [] := by
    rw [found_literal, if_neg (by simpa using hold)]
  unfold substituteFrom
  rw [hnone]
  cases skip <;> rfl

theorem substituteFrom_literal_of_present (hold : old.toList ≠ [])
    (h : old.toList <+: c :: rest) :
    (literal old).substituteFrom replace 0 behind (c :: rest) = do
      let text ← replace { text := old.toList }
      let others ← (literal old).substituteFrom replace (old.toList.length - 1) (c :: behind) rest
      return text ++ others := by
  have hlong : (some ({ text := old.toList } : Found)).filter (·.text.isEmpty) = none := by
    simp [Option.filter_eq_none_iff, hold]
  rw [substituteFrom, found_literal, if_pos h, List.head?_cons, hlong]
  simp

theorem substituteFrom_literal_of_absent (h : ¬old.toList <+: c :: rest) :
    (literal old).substituteFrom replace 0 behind (c :: rest) = do
      return c :: (← (literal old).substituteFrom replace 0 (c :: behind) rest) := by
  rw [substituteFrom, found_literal, if_neg h]
  simp

/-- From every place on, behind what belongs to a match already replaced, the occurrences are
replaced from the left. -/
theorem exists_substituteFrom_literal (hold : old.toList ≠ []) (new : List Char) (skip : Nat)
    (behind cs : List Char) :
    ∃ copy, (literal old).substituteFrom (fun _ => (.ok new : Except String (List Char))) skip
        behind cs = .ok copy ∧
      Rewritten old.toList new (cs.drop skip) copy := by
  induction cs generalizing skip behind with
  | nil =>
      refine ⟨[], substituteFrom_literal_nil hold skip behind, ?_⟩
      rw [List.drop_nil]
      exact .done fun hoccurs => hold (List.infix_nil.mp hoccurs)
  | cons c cs ih =>
      cases skip with
      | succ skip => exact ih skip (c :: behind)
      | zero =>
          by_cases hstarts : old.toList <+: c :: cs
          · obtain ⟨copy, hcopy, hrewritten⟩ := ih (old.toList.length - 1) (c :: behind)
            refine ⟨new ++ copy, ?_, ?_⟩
            · rw [substituteFrom_literal_of_present hold hstarts, hcopy]
              rfl
            · have hsplit : old.toList ++ cs.drop (old.toList.length - 1) = c :: cs := by
                obtain ⟨rest, hrest⟩ := hstarts
                obtain ⟨first, others, hfirst⟩ := List.exists_cons_of_ne_nil hold
                rw [hfirst, List.cons_append] at hrest
                obtain ⟨rfl, rfl⟩ := List.cons.inj hrest
                simp [hfirst]
              rw [List.drop_zero, ← hsplit]
              exact hrewritten.start hold
          · obtain ⟨copy, hcopy, hrewritten⟩ := ih 0 (c :: behind)
            refine ⟨c :: copy, ?_, hrewritten.cons hstarts⟩
            rw [substituteFrom_literal_of_absent hstarts, hcopy]
            rfl

/-- Replacing a text that is not empty by another one never fails, and replaces the occurrences from
the left. -/
theorem exists_replaceIn_literal (hold : old ≠ "") (new text : String) :
    ∃ copy, (literal old).replaceIn (.text new) text = .ok copy ∧
      Rewritten old.toList new.toList text.toList copy.toList := by
  have hold' : old.toList ≠ [] := by simpa using hold
  obtain ⟨copy, hcopy, hrewritten⟩ :=
    exists_substituteFrom_literal hold' new.toList 0 [] text.toList
  refine ⟨String.ofList copy, ?_, ?_⟩
  · rw [replaceIn, substitute, hcopy]
    rfl
  · rw [String.toList_ofList]
    exact hrewritten

end Needle

end Arborist
