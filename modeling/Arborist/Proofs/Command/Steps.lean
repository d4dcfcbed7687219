import Arborist.Command.Transform

/-!
# Commands step by step

A command is a sequence of steps that write to the journal, each of which may stop it. `Ends` says
that a command comes to its end, with what result and what journal, and `Stops` that it does not; a
sequence comes to its end if its steps do, one after the other, and the first step to stop stops it.
`Yields` says what is true of the result whenever there is one, and is closed under the ways in
which commands are put together, loops included.

With it, two facts follow the whole of a session: a document that a command opens holds the text of
the file that its path leads to, and no operation changes the source that edits are made to.
-/

namespace Arborist.Command

variable {ε α β : Type}

/-! ## Commands that come to their end -/

/-- Started with a journal, steps come to their end with a result and another journal. -/
def Ends (steps : ExceptT ε Logged α) (journal : Journal) (result : α) (after : Journal) : Prop :=
  steps.run.run journal = (.ok result, after)

/-- Started with a journal, steps are stopped, and another journal is left. -/
def Stops (steps : ExceptT ε Logged α) (journal : Journal) (e : ε) (after : Journal) : Prop :=
  steps.run.run journal = (.error e, after)

section Ends

variable {journal between after : Journal} {a a' : α} {b : β}
  {x : ExceptT ε Logged α} {f : α → ExceptT ε Logged β}

theorem ends_pure_iff :
    Ends (pure a : ExceptT ε Logged α) journal a' after ↔ a = a' ∧ journal = after := by
  show ((.ok a, journal) : Except ε α × Journal) = (.ok a', after) ↔ _
  rw [Prod.mk.injEq, Except.ok.injEq]

theorem ends_bind_iff : Ends (x >>= f) journal b after ↔
    ∃ a between, Ends x journal a between ∧ Ends (f a) between b after := by
  unfold Ends
  rw [ExceptT.run_bind, StateT.run_bind]
  rcases hx : x.run.run journal with ⟨answer, between⟩
  cases answer with
  | error e =>
      refine iff_of_false ?_ ?_
      · intro h
        cases h
      · intro h
        obtain ⟨a, between', h, -⟩ := h
        cases h
  | ok a =>
      constructor
      · intro h
        exact ⟨a, between, rfl, h⟩
      · intro h
        obtain ⟨a', between', h, h'⟩ := h
        cases h
        exact h'

theorem stops_bind_iff {e : ε} : Stops (x >>= f) journal e after ↔
    Stops x journal e after ∨
      ∃ a between, Ends x journal a between ∧ Stops (f a) between e after := by
  unfold Stops Ends
  rw [ExceptT.run_bind, StateT.run_bind]
  rcases hx : x.run.run journal with ⟨answer, between⟩
  cases answer with
  | error e' =>
      constructor
      · intro h
        cases h
        exact .inl rfl
      · intro h
        rcases h with h | h
        · cases h
          rfl
        · obtain ⟨a, between', h, -⟩ := h
          cases h
  | ok a =>
      constructor
      · intro h
        exact .inr ⟨a, between, rfl, h⟩
      · intro h
        rcases h with h | h
        · cases h
        · obtain ⟨a', between', h, h'⟩ := h
          cases h
          exact h'

theorem Ends.bind (hx : Ends x journal a between) (hf : Ends (f a) between b after) :
    Ends (x >>= f) journal b after :=
  ends_bind_iff.mpr ⟨a, between, hx, hf⟩

theorem ends_lift (step : Logged α) (journal : Journal) :
    Ends (liftM step : ExceptT ε Logged α) journal (step.run journal).1 (step.run journal).2 :=
  rfl

/-- A step that only has an answer to give ends with it, if the answer is no refusal. -/
theorem ends_answer {answer : Except ε α} (h : answer = .ok a) (journal : Journal) :
    Ends (ExceptT.mk (pure answer)) journal a journal := by
  rw [h]
  rfl

theorem Ends.of_toOption (h : (x.run.run journal).1.toOption = some a) :
    Ends x journal a (x.run.run journal).2 := by
  unfold Ends
  rcases hx : x.run.run journal with ⟨answer, after⟩
  rw [hx] at h
  cases answer with
  | error e => cases h
  | ok found =>
      cases h
      rfl

/-- The first of two steps that cannot be stopped. -/
theorem run_bind_of_eq {x : Logged α} {f : α → Logged β} {b : β × Journal}
    (hx : x.run journal = (a, between)) (hf : (f a).run between = b) :
    (x >>= f).run journal = b := by
  rw [StateT.run_bind, hx]
  exact hf

end Ends

/-! ## What is true of a result -/

/-- Whenever steps come to their end, the result is as described. -/
def Yields (steps : ExceptT ε Logged α) (p : α → Prop) : Prop :=
  ∀ journal result after, Ends steps journal result after → p result

theorem yields_any (x : ExceptT ε Logged α) : Yields x fun _ => True := by
  intro journal result after hends
  trivial

namespace Yields

variable {a : α} {x y : ExceptT ε Logged α} {f : α → ExceptT ε Logged β} {p : α → Prop}
  {q : β → Prop}

theorem pure (h : p a) : Yields (pure a : ExceptT ε Logged α) p := by
  intro journal result after hends
  obtain ⟨rfl, -⟩ := ends_pure_iff.mp hends
  exact h

theorem throw (e : ε) : Yields (throw e : ExceptT ε Logged α) p := by
  intro journal result after hends
  cases hends

theorem lift {step : Logged α} (h : ∀ journal, p (step.run journal).1) :
    Yields (liftM step : ExceptT ε Logged α) p := by
  intro journal result after hends
  cases hends
  exact h journal

theorem bind (hx : Yields x p) (hf : ∀ a, p a → Yields (f a) q) : Yields (x >>= f) q := by
  intro journal result after hends
  obtain ⟨a, between, ha, hresult⟩ := ends_bind_iff.mp hends
  exact hf a (hx journal a between ha) between result after hresult

/-- Nothing comes after a stop. -/
theorem throw_bind (e : ε) : Yields ((MonadExcept.throw e : ExceptT ε Logged α) >>= f) q :=
  (throw (p := fun _ => False) e).bind fun _ h => h.elim

theorem ite {c : Prop} [Decidable c] (hx : Yields x p) (hy : Yields y p) :
    Yields (if c then x else y) p := by
  split
  · exact hx
  · exact hy

/-- What holds at the start of a loop and is kept by its body holds at its end. -/
theorem forIn {γ : Type} {xs : List γ} {start : β}
    {body : γ → β → ExceptT ε Logged (ForInStep β)} (hstart : q start)
    (hbody : ∀ x b, q b → Yields (body x b) fun step => ∃ b', step = .yield b' ∧ q b') :
    Yields (forIn xs start body) q := by
  induction xs generalizing start with
  | nil => exact pure hstart
  | cons x xs ih =>
      rw [List.forIn_cons]
      refine (hbody x start hstart).bind ?_
      intro step hstep
      obtain ⟨b, rfl, hb⟩ := hstep
      exact ih hb

end Yields

theorem Ends.orStop {journal : Journal} {result : α} {stop : ε → CommandM α}
    {step : Logged (Except ε α)} (h : (step.run journal).1 = .ok result) :
    Ends (orStop stop step) journal result (step.run journal).2 := by
  refine (ends_lift step journal).bind ?_
  rw [h]
  exact ends_pure_iff.mpr ⟨rfl, rfl⟩

theorem yields_orStop {stop : ε → CommandM α} {step : Logged (Except ε α)} {p : α → Prop}
    (hstop : ∀ e, Yields (stop e) p)
    (hstep : ∀ journal result, (step.run journal).1 = .ok result → p result) :
    Yields (orStop stop step) p := by
  have hlift : Yields (liftM step : CommandM (Except ε α)) fun answer =>
      ∀ result, answer = .ok result → p result := .lift hstep
  refine hlift.bind fun answer hanswer => ?_
  cases answer with
  | error e => exact hstop e
  | ok result => exact .pure (hanswer result rfl)

/-! ## The document that is opened -/

section Opening

variable {parser : Parser} {settings : Settings} {language : Option String} {text : String}

/-- A document is made of the text it is given. -/
theorem text_ofText (journal : Journal) (document : Document)
    (h : ((Document.ofText parser settings language text).run journal).1 = .ok document) :
    document.text = text := by
  suffices hyields : Yields (Document.ofText parser settings language text :
      ExceptT OpenError Logged Document) fun document => document.text = text from
    hyields journal document _ (Prod.ext h rfl)
  -- The language, the tree, its first error and the root are found first.
  refine (yields_any _).bind fun language _ => ?_
  refine (yields_any _).bind fun _ _ => ?_
  refine (yields_any _).bind fun _ _ => ?_
  refine (yields_any _).bind fun _ _ => ?_
  refine .ite ?_ (.pure rfl)
  refine (yields_any _).bind fun _ _ => ?_
  exact (yields_any _).bind fun _ _ => .pure rfl

theorem yields_openFile (parser : Parser) (folder : Folder) (path : PathName)
    (language : Option String) (specs : List String) :
    Yields (openFile parser folder path language specs) fun document =>
      ∃ content, folder.entry? path = some (.file content) ∧
        fileText? content = some document.text := by
  unfold openFile
  refine (yields_any _).bind fun settings _ => ?_
  dsimp only
  refine .ite (.throw_bind _) ?_
  split
  · rename_i content hentry
    split
    · exact .throw _
    · rename_i text htext
      refine Yields.bind (yields_orStop (fun e => ?_) text_ofText) fun document hdocument => ?_
      · split
        · exact .throw _
        · exact .throw _
      · have hopened : ∃ content, folder.entry? path = some (.file content) ∧
            fileText? content = some document.text := ⟨content, hentry, hdocument ▸ htext⟩
        exact .ite ((yields_any _).bind fun _ _ => .pure hopened) (.pure hopened)
  · exact .throw _

end Opening

/-! ## The source that is edited -/

theorem yields_absorb (draft : Draft) (outcome : Outcome) :
    Yields (absorb draft outcome) fun result => result.source = draft.source := by
  have hqueue : Yields (liftM (draft.absorb outcome) : CommandM Draft) fun result =>
      result.source = draft.source := .lift fun journal => rfl
  refine hqueue.bind fun result hresult => ?_
  split
  · exact .throw _
  · exact .pure hresult

theorem yields_applyOperations (options : TransformOptions) (draft : Draft) :
    Yields (applyOperations options draft) fun result => result.source = draft.source := by
  have hstep : ∀ {old : Draft} (outcome : Outcome), old.source = draft.source →
      Yields (absorb old outcome) fun result => result.source = draft.source := by
    intro old outcome hold
    rw [← hold]
    exact yields_absorb old outcome
  -- The three loops end their bodies alike.
  have hbody : ∀ {old : Draft} (outcome : Outcome), old.source = draft.source →
      Yields (do let result ← absorb old outcome; pure (ForInStep.yield result)) fun step =>
        ∃ result, step = .yield result ∧ result.source = draft.source := by
    intro old outcome hold
    exact (hstep outcome hold).bind fun result hresult => .pure ⟨result, rfl, hresult⟩
  unfold applyOperations
  refine Yields.bind (Yields.forIn (q := fun result => result.source = draft.source) rfl ?_)
    fun renamed hrenamed => ?_
  · intro value old hold
    refine (yields_any _).bind fun pair _ => ?_
    obtain ⟨oldName, newName⟩ := pair
    exact hbody _ hold
  refine Yields.bind (Yields.forIn (q := fun result => result.source = draft.source) hrenamed ?_)
    fun renamedAll hrenamedAll => ?_
  · intro value old hold
    refine (yields_any _).bind fun pair _ => ?_
    obtain ⟨oldName, newName⟩ := pair
    exact hbody _ hold
  refine Yields.bind (Yields.forIn (q := fun result => result.source = draft.source) hrenamedAll ?_)
    fun removed hremoved => ?_
  · intro pattern old hold
    exact (yields_any _).bind fun outcome _ => hbody _ hold
  refine .ite ?_ (.pure hremoved)
  refine (yields_any _).bind fun outcome _ => ?_
  exact (hstep outcome hremoved).bind fun result hresult => .pure hresult

end Arborist.Command
