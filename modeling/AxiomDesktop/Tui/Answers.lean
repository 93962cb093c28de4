import AxiomDesktop.Data.Lines
import AxiomDesktop.Lib.Fallible
import AxiomDesktop.Tui.Questions
import Mathlib.Data.List.Nodup
import Mathlib.Data.List.TakeWhile

/-!
# Answers mean what was typed

What a text means as an answer (`meaning`), and where it is accepted (`IsAnswer`): a part of it
that is the number of an option is that option and any other part is itself, and the one answer
of a question without options is the whole text. `parseTuiAnswer` reads exactly the texts so
that are not `Misread`: it takes the number 0 for the first option, and a comma for the end of
the one answer (`parseTuiAnswer_iff`).

In a run in which no text that is misread is entered, the answers that are sent are those that the
texts mean, and a question that is gone back to has its text again (`answers_mean_what_was_typed`).
-/

namespace AxiomDesktop

/-! ## Parts of a text -/

namespace Text

theorem mem_dropWhileEnd {p : Char → Bool} {c : Char} {cs : List Char} (h : c ∈ cs)
    (hc : p c = false) : c ∈ dropWhileEnd p cs := by
  rw [dropWhileEnd, List.mem_reverse]
  have hmem : c ∈ cs.reverse.takeWhile p ++ cs.reverse.dropWhile p := by
    rw [List.takeWhile_append_dropWhile]
    exact List.mem_reverse.mpr h
  rcases List.mem_append.mp hmem with htaken | hkept
  · rw [List.mem_takeWhile_imp htaken] at hc
    cases hc
  · exact hkept

theorem mem_trimChars {c : Char} {cs : List Char} (h : c ∈ cs) (hc : isWhitespace c = false) :
    c ∈ trimChars cs := by
  refine mem_dropWhileEnd ?_ hc
  have hmem : c ∈ cs.takeWhile isWhitespace ++ cs.dropWhile isWhitespace := by
    rwa [List.takeWhile_append_dropWhile]
  rcases List.mem_append.mp hmem with htaken | hkept
  · rw [List.mem_takeWhile_imp htaken] at hc
    cases hc
  · exact hkept

theorem trimChars_subset (cs : List Char) : trimChars cs ⊆ cs := by
  intro c hc
  rw [trimChars, dropWhileEnd, List.mem_reverse] at hc
  exact (List.dropWhile_suffix _).subset
    (List.mem_reverse.mp ((List.dropWhile_suffix _).subset hc))

theorem isBlank_iff {s : String} : isBlank s = true ↔ trimChars s.toList = [] := by
  rw [isBlank, trim, String.isEmpty_iff, ← String.toList_inj, String.toList_ofList]
  rfl

end Text

/-! ## What a text means -/

/-- What a part of a text denotes: the option of its number, or itself. -/
def denotes (question : QuestionSpec) (part : String) : String :=
  match parseUsize part.toList with
  | some (n + 1) => question.options[n]?.getD part
  | _ => part

/-- A question takes one answer, and has no options. -/
def FreeText (question : QuestionSpec) : Prop :=
  question.options = [] ∧ question.multiple = false

instance (question : QuestionSpec) : Decidable (FreeText question) :=
  inferInstanceAs (Decidable (_ ∧ _))

/-- What a text means as the answers of a question. -/
def meaning (question : QuestionSpec) (text : String) : List String :=
  if Text.isBlank text then []
  else if FreeText question then [Text.trim text]
  else (answerParts text).map (denotes question)

/-- A text has as many parts as a question takes. -/
def TakesParts (question : QuestionSpec) (text : String) : Prop :=
  answerParts text ≠ [] ∧ (question.multiple = false → (answerParts text).length = 1)

instance (question : QuestionSpec) (text : String) : Decidable (TakesParts question text) :=
  inferInstanceAs (Decidable (_ ∧ _))

/-- A text is an answer of a question. -/
def IsAnswer (question : QuestionSpec) (text : String) : Prop :=
  if Text.isBlank text then question.required = false
  else FreeText question ∨ (TakesParts question text ∧
    (question.options = [] ∨ ∀ value ∈ meaning question text, value ∈ question.options))

instance (question : QuestionSpec) (text : String) : Decidable (IsAnswer question text) :=
  inferInstanceAs (Decidable (if Text.isBlank text then question.required = false
    else FreeText question ∨ (TakesParts question text ∧
      (question.options = [] ∨ ∀ value ∈ meaning question text, value ∈ question.options))))

/-- A part of a text is the number 0, and not the first option. -/
def IsZero (question : QuestionSpec) (part : String) : Prop :=
  parseUsize part.toList = some 0 ∧ question.options.head? ≠ some part

instance (question : QuestionSpec) (part : String) : Decidable (IsZero question part) :=
  inferInstanceAs (Decidable (_ ∧ _))

/-- A text is read as what it does not mean: it has a comma, where the whole text is the answer, or
a zero beside parts that denote options. -/
def Misread (question : QuestionSpec) (text : String) : Prop :=
  Text.isBlank text = false ∧
    if FreeText question then ',' ∈ text.toList
    else question.options ≠ [] ∧ TakesParts question text ∧
      (∃ part ∈ answerParts text, IsZero question part) ∧
      ∀ part ∈ answerParts text, IsZero question part ∨ denotes question part ∈ question.options

instance (question : QuestionSpec) (text : String) : Decidable (Misread question text) :=
  inferInstanceAs (Decidable (_ ∧ _))

section Reading

variable {question : QuestionSpec} {text : String} {values : List String}

theorem answerParts_of_blank (h : Text.isBlank text = true) : answerParts text = [] := by
  rw [Text.isBlank_iff] at h
  have hcomma : ',' ∉ text.toList := fun hmem => by
    have := Text.mem_trimChars hmem rfl
    rw [h] at this
    cases this
  rw [answerParts, Text.splitChar_of_notMem hcomma]
  simp [h]

theorem answerParts_of_notMem (hblank : Text.isBlank text = false) (h : ',' ∉ text.toList) :
    answerParts text = [Text.trim text] := by
  have hne : Text.trimChars text.toList ≠ [] := fun heq => by
    rw [Text.isBlank_iff.mpr heq] at hblank
    cases hblank
  rw [answerParts, Text.splitChar_of_notMem h]
  simp [hne, Text.trim]

/-- No part of a text has a comma. -/
theorem notMem_of_mem_answerParts {part : String} (h : part ∈ answerParts text) :
    ',' ∉ part.toList := by
  obtain ⟨cs, hcs, rfl⟩ := List.mem_map.mp h
  obtain ⟨piece, hpiece, rfl⟩ := List.mem_map.mp (List.mem_filter.mp hcs).1
  rw [String.toList_ofList]
  exact fun hmem => Text.notMem_of_mem_splitChar hpiece (Text.trimChars_subset _ hmem)

/-- Only a zero is not chosen as what it denotes. -/
theorem chosenValue_eq {part : String} (h : ¬ (question.options ≠ [] ∧ IsZero question part)) :
    chosenValue question part = denotes question part := by
  unfold chosenValue denotes
  cases hnumber : parseUsize part.toList with
  | none => rfl
  | some n =>
    cases n with
    | succ n => rfl
    | zero =>
      cases hoptions : question.options with
      | nil => rfl
      | cons first rest =>
        have hfirst : first = part := by
          by_contra hne
          refine h ⟨by simp [hoptions], hnumber, ?_⟩
          rw [hoptions]
          simpa using hne
        rw [hfirst]
        rfl

/-- A zero is chosen as the first option. -/
theorem chosenValue_zero {part : String} (hoptions : question.options ≠ [])
    (h : IsZero question part) :
    chosenValue question part ∈ question.options ∧ chosenValue question part ≠ part := by
  obtain ⟨hnumber, hfirst⟩ := h
  cases hlist : question.options with
  | nil => exact absurd hlist hoptions
  | cons first rest =>
    rw [hlist] at hfirst
    have hchosen : chosenValue question part = first := by
      rw [chosenValue, hnumber, hlist]
      rfl
    rw [hchosen]
    exact ⟨List.mem_cons_self, by simpa using hfirst⟩

theorem denotes_zero {part : String} (h : IsZero question part) : denotes question part = part := by
  rw [denotes, h.1]

/-- **What the parser reads.** -/
theorem parseTuiAnswer_ok : parseTuiAnswer text question = .ok values ↔
    if Text.isBlank text then question.required = false ∧ values = []
    else TakesParts question text ∧ values = (answerParts text).map (chosenValue question) ∧
      (question.options = [] ∨ ∀ value ∈ values, value ∈ question.options) := by
  have hcount : TakesParts question text ↔
      ¬ (((answerParts text).map (chosenValue question)).isEmpty ∨
        (¬ question.multiple ∧ ((answerParts text).map (chosenValue question)).length ≠ 1)) := by
    simp [TakesParts]
  unfold parseTuiAnswer
  by_cases hskip : Text.isBlank text ∧ ¬ question.required
  · rw [if_pos hskip, if_pos hskip.1]
    refine ⟨fun h => ⟨by simpa using hskip.2, (Except.ok.inj h).symm⟩, ?_⟩
    rintro ⟨-, rfl⟩
    rfl
  · rw [if_neg hskip]
    dsimp only
    split
    · next hbad =>
      refine ⟨fun h => (by cases h), ?_⟩
      split
      · next hblank =>
        rintro ⟨hrequired, -⟩
        exact absurd ⟨hblank, by simp [hrequired]⟩ hskip
      · rintro ⟨htakes, -⟩
        exact absurd hbad (hcount.mp htakes)
    · next hgood =>
      have hblank : ¬ Text.isBlank text = true := fun hblank => by
        simp [answerParts_of_blank hblank] at hgood
      rw [if_neg hblank]
      split
      · next hother =>
        obtain ⟨hoptions, hother⟩ := hother
        refine ⟨fun h => (by cases h), ?_⟩
        rintro ⟨-, rfl, hnone | hall⟩
        · exact absurd (List.isEmpty_iff.mpr hnone) hoptions
        · obtain ⟨value, hvalue, hnot⟩ := List.any_eq_true.mp hother
          simp [hall value hvalue] at hnot
      · next hother =>
        constructor
        · rintro ⟨⟩
          refine ⟨hcount.mpr hgood, rfl, ?_⟩
          rcases not_and_or.mp hother with hnone | hall
          · exact .inl (List.isEmpty_iff.mp (not_not.mp hnone))
          · refine .inr fun value hvalue => ?_
            by_contra hnot
            exact hall (List.any_eq_true.mpr ⟨value, hvalue, by simpa using hnot⟩)
        · rintro ⟨-, rfl, -⟩
          rfl

/-- What is chosen is what is denoted, where no part is a zero. -/
theorem map_chosenValue
    (h : ∀ part ∈ answerParts text, ¬ (question.options ≠ [] ∧ IsZero question part)) :
    (answerParts text).map (chosenValue question) = (answerParts text).map (denotes question) :=
  List.map_congr_left fun part hpart => chosenValue_eq (h part hpart)

/-- **A text that is not misread** is read as what it means. -/
theorem parseTuiAnswer_means (h : ¬ Misread question text) :
    parseTuiAnswer text question = .ok values ↔
      IsAnswer question text ∧ values = meaning question text := by
  rw [parseTuiAnswer_ok, IsAnswer, meaning]
  cases hblank : Text.isBlank text with
  | true => rfl
  | false =>
    simp only [Misread, hblank, true_and] at h
    simp only [Bool.false_eq_true, if_false]
    by_cases hfree : FreeText question
    · rw [if_pos hfree] at h
      have hparts := answerParts_of_notMem hblank h
      have hchosen : chosenValue question (Text.trim text) = Text.trim text := by
        rw [chosenValue, hfree.1]
        cases parseUsize (Text.trim text).toList <;> rfl
      simp [hfree, hfree.1, TakesParts, hparts, hchosen]
    · rw [if_neg hfree] at h
      simp only [hfree, if_false, false_or]
      by_cases hzero : ∃ part ∈ answerParts text, question.options ≠ [] ∧ IsZero question part
      · -- a zero beside which a part denotes no option, so that both refuse
        obtain ⟨zero, hmem, hoptions, hz⟩ := hzero
        have hrefused : ¬ TakesParts question text ∨ ∃ part ∈ answerParts text,
            ¬ IsZero question part ∧ denotes question part ∉ question.options := by
          by_contra hnone
          obtain ⟨htakes, hall⟩ := not_or.mp hnone
          refine h ⟨hoptions, not_not.mp htakes, ⟨zero, hmem, hz⟩, fun part hpart => ?_⟩
          by_contra hpart'
          exact hall ⟨part, hpart, not_or.mp hpart'⟩
        rcases hrefused with htakes | ⟨part, hpart, hnot, hnone⟩
        · exact ⟨fun h => absurd h.1 htakes, fun h => absurd h.1.1 htakes⟩
        · constructor
          · rintro ⟨-, rfl, hempty | hall⟩
            · exact absurd hempty hoptions
            · have hvalue := hall _ (List.mem_map_of_mem hpart)
              rw [chosenValue_eq fun hz => hnot hz.2] at hvalue
              exact absurd hvalue hnone
          · rintro ⟨⟨-, hempty | hall⟩, -⟩
            · exact absurd hempty hoptions
            · exact absurd (hall _ (List.mem_map_of_mem hpart)) hnone
      · rw [map_chosenValue fun part hpart hz => hzero ⟨part, hpart, hz⟩]
        constructor
        · rintro ⟨htakes, rfl, hall⟩
          exact ⟨⟨htakes, hall⟩, rfl⟩
        · rintro ⟨⟨htakes, hall⟩, rfl⟩
          exact ⟨htakes, rfl, hall⟩

/-- **A text that is misread** is not read as what it means. -/
theorem parseTuiAnswer_misreads (h : Misread question text) :
    ¬ ∀ values, parseTuiAnswer text question = .ok values ↔
      IsAnswer question text ∧ values = meaning question text := by
  intro hmeans
  obtain ⟨hblank, h⟩ := h
  have hmeans := fun values => parseTuiAnswer_ok.symm.trans (hmeans values)
  simp only [IsAnswer, meaning, hblank, Bool.false_eq_true, if_false] at hmeans
  by_cases hfree : FreeText question
  · rw [if_pos hfree] at h
    obtain ⟨htakes, hvalues, -⟩ := (hmeans [Text.trim text]).mpr (by simp [hfree])
    obtain ⟨part, hpart⟩ := List.length_eq_one_iff.mp (htakes.2 hfree.2)
    have hmem : part ∈ answerParts text := hpart ▸ List.mem_cons_self
    rw [hpart] at hvalues
    have hpart : Text.trim text = part := by
      have hchosen : chosenValue question part = part := by
        rw [chosenValue, hfree.1]
        cases parseUsize part.toList <;> rfl
      simpa [hchosen] using hvalues
    refine notMem_of_mem_answerParts hmem ?_
    rw [← hpart, Text.trim, String.toList_ofList]
    exact Text.mem_trimChars h rfl
  · rw [if_neg hfree] at h
    obtain ⟨hoptions, htakes, ⟨zero, hmem, hz⟩, hall⟩ := h
    have hread := (hmeans ((answerParts text).map (chosenValue question))).mp
      ⟨htakes, rfl, .inr fun value hvalue => ?_⟩
    · have heq := hread.2
      rw [if_neg hfree] at heq
      have heq := List.map_inj_left.mp heq zero hmem
      rw [denotes_zero hz] at heq
      exact (chosenValue_zero hoptions hz).2 heq
    · obtain ⟨part, hpart, rfl⟩ := List.mem_map.mp hvalue
      by_cases hz : IsZero question part
      · exact (chosenValue_zero hoptions hz).1
      · rw [chosenValue_eq fun h => hz h.2]
        exact (hall part hpart).resolve_left hz

/-- **The parser reads exactly the texts that are not misread** as what they mean. -/
theorem parseTuiAnswer_iff : (∀ values, parseTuiAnswer text question = .ok values ↔
    IsAnswer question text ∧ values = meaning question text) ↔ ¬ Misread question text :=
  ⟨fun hmeans h => parseTuiAnswer_misreads h hmeans, fun h _ => parseTuiAnswer_means h⟩

end Reading

/-! ## Runs -/

/-- The questions that are shown, with the text that was accepted last for each. -/
structure QuestionRun where
  view : QuestionView
  accepted : String → Option String

namespace QuestionRun

/-- The question that is shown. -/
def question? (r : QuestionRun) : Option QuestionSpec :=
  r.view.pending.bind PendingQuestions.question?

/-- The texts that were accepted last, where the text that is there is entered. -/
def entered (r : QuestionRun) : String → Option String :=
  match r.question? with
  | none => r.accepted
  | some question =>
    match parseTuiAnswer r.view.answerInput question with
    | .ok _ => Function.update r.accepted question.id (some r.view.answerInput)
    | .error _ => r.accepted

def press (r : QuestionRun) (key : QuestionKey) : QuestionRun where
  view := r.view.press key
  accepted := if key = .enter then r.entered else r.accepted

end QuestionRun

def questionMachine : Machine QuestionRun QuestionKey Empty where
  step r key := (r.press key, [])

/-- The questions of a request, before any event. -/
def asking (request : QuestionRequest) : QuestionRun := ⟨.ofRequest request, fun _ => none⟩

def answering (request : QuestionRequest) (keys : List QuestionKey) : QuestionRun :=
  (questionMachine.run (asking request) keys).1

/-- No text is entered that is misread. -/
def ReadsPlainly (r : QuestionRun) (key : QuestionKey) : Prop :=
  key = .enter → ∀ question ∈ r.question?, ¬ Misread question r.view.answerInput

instance (r : QuestionRun) (key : QuestionKey) : Decidable (ReadsPlainly r key) :=
  inferInstanceAs (Decidable (_ → _))

/-- A text is accepted for a question, with answers. -/
structure AnsweredBy (question : QuestionSpec) (text : String) (answers : Option (List String)) :
    Prop where
  accepts : IsAnswer question text
  answers : answers.getD [] = meaning question text

/-- What was accepted is kept. -/
structure QuestionRun.Holds (request : QuestionRequest) (r : QuestionRun) : Prop where
  asked : ∀ pending, r.view.pending = some pending →
    pending.request = request ∧ r.view.sent = none
  answers : ∀ pending, r.view.pending = some pending → ∀ question ∈ request.questions,
    ∀ text, r.accepted question.id = some text →
      AnsweredBy question text (pending.answers question.id)
  /-- The text of a question before the one that is shown is the text that was accepted. -/
  drafts : ∀ pending, r.view.pending = some pending → ∀ j < pending.index, ∀ question,
    request.questions[j]? = some question → ∃ text, r.accepted question.id = some text ∧
      pending.drafts question.id = some text
  sent : ∀ answers, r.view.sent = some answers → ∀ question ∈ request.questions,
    ∃ text, r.accepted question.id = some text ∧ AnsweredBy question text (answers question.id)

namespace QuestionRun

variable {request : QuestionRequest} {r : QuestionRun} {pending : PendingQuestions}
  {question : QuestionSpec} {values : List String}

theorem question?_eq_some : r.question? = some question ↔
    ∃ pending, r.view.pending = some pending ∧ pending.question? = some question :=
  Option.bind_eq_some_iff

theorem press_none {key : QuestionKey} (h : r.question? = none) : r.press key = r := by
  have hview : r.view.press key = r.view := by
    rw [QuestionView.press]
    cases hpending : r.view.pending with
    | none => rfl
    | some pending =>
      rw [question?, hpending] at h
      dsimp only
      rw [show pending.question? = none from h]
  have hentered : r.entered = r.accepted := by rw [entered, h]
  rw [press, hview, hentered, ite_self]

theorem press_enter (hpending : r.view.pending = some pending)
    (hquestion : pending.question? = some question) :
    r.press .enter = ⟨r.view.enter pending question, r.entered⟩ := by
  rw [press, QuestionView.press, hpending, if_pos rfl]
  dsimp only
  rw [hquestion]

/-- What Enter leaves of a text that is refused. -/
theorem press_refused {error : AxiomError} (hquestion : r.question? = some question)
    (hread : parseTuiAnswer r.view.answerInput question = .error error) :
    r.press .enter = ⟨{ r.view with status := error.message }, r.accepted⟩ := by
  obtain ⟨pending, hpending, hshown⟩ := question?_eq_some.mp hquestion
  have hentered : r.entered = r.accepted := by
    rw [entered, hquestion]
    dsimp only
    rw [hread]
  rw [press_enter hpending hshown, hentered, QuestionView.enter, hread]

/-- What Enter leaves of a text that is accepted. -/
theorem press_accepted (hpending : r.view.pending = some pending)
    (hquestion : pending.question? = some question)
    (hread : parseTuiAnswer r.view.answerInput question = .ok values) :
    (r.press .enter).accepted =
        Function.update r.accepted question.id (some r.view.answerInput) ∧
      (((r.press .enter).view.pending = some (r.view.accept pending question values) ∧
          (r.press .enter).view.sent = r.view.sent) ∨
        ((r.view.accept pending question values).question? = none ∧
          (r.press .enter).view.pending = none ∧
          (r.press .enter).view.sent = some (r.view.accept pending question values).answers)) := by
  have hshown : r.question? = some question := question?_eq_some.mpr ⟨pending, hpending, hquestion⟩
  have hentered : r.entered =
      Function.update r.accepted question.id (some r.view.answerInput) := by
    rw [entered, hshown]
    dsimp only
    rw [hread]
  rw [press_enter hpending hquestion, QuestionView.enter, hread]
  refine ⟨hentered, ?_⟩
  dsimp only
  cases hnext : (r.view.accept pending question values).question? with
  | some next => exact .inl ⟨rfl, rfl⟩
  | none => exact .inr ⟨rfl, rfl, rfl⟩

/-- What BackTab leaves. -/
theorem press_backTab (hpending : r.view.pending = some pending)
    (hquestion : pending.question? = some question) :
    (r.press .backTab).accepted = r.accepted ∧ (r.press .backTab).view.sent = r.view.sent ∧
      ∃ after : PendingQuestions, (r.press .backTab).view.pending = some after ∧
        after.request = pending.request ∧ after.index = pending.index - 1 ∧
        after.answers = pending.answers ∧
        after.drafts = Function.update pending.drafts question.id (some r.view.answerInput) ∧
        ∀ index previous, pending.index = index + 1 → after.question? = some previous →
          (r.press .backTab).view.answerInput = after.restoreDraft previous := by
  have hpress : r.press .backTab = ⟨r.view.backTab pending question, r.accepted⟩ := by
    rw [press, QuestionView.press, hpending, if_neg (by decide)]
    dsimp only
    rw [hquestion]
  rw [hpress, QuestionView.backTab]
  dsimp only
  split
  · next hindex =>
    refine ⟨rfl, rfl, _, rfl, rfl, (by rw [hindex]), rfl, rfl, fun index _ hsucc => ?_⟩
    rw [hindex] at hsucc
    cases hsucc
  · next index hindex =>
    split
    · next previous hprevious =>
      refine ⟨rfl, rfl, _, rfl, rfl, (by rw [hindex]; rfl), rfl, rfl, fun _ other _ hother => ?_⟩
      cases hprevious.symm.trans hother
      rfl
    · next hnone =>
      -- the question before one that is there is there
      have hlt : pending.index < pending.request.questions.length :=
        (List.getElem?_eq_some_iff.mp hquestion).1
      have hge := List.getElem?_eq_none_iff.mp hnone
      dsimp only at hge
      omega

namespace Holds

/-- The events that change only the text. -/
theorem congr {r' : QuestionRun} (h : r.Holds request) (hpending : r'.view.pending = r.view.pending)
    (hsent : r'.view.sent = r.view.sent) (haccepted : r'.accepted = r.accepted) :
    r'.Holds request where
  asked := by
    rw [hpending, hsent]
    exact h.asked
  answers := by
    rw [hpending, haccepted]
    exact h.answers
  drafts := by
    rw [hpending, haccepted]
    exact h.drafts
  sent := by
    rw [hsent, haccepted]
    exact h.sent

/-- What is kept of a text that is accepted. -/
theorem accept (h : r.Holds request) (hpending : r.view.pending = some pending)
    (hquestion : pending.question? = some question)
    (hids : (request.questions.map (·.id)).Nodup)
    (hread : AnsweredBy question r.view.answerInput (some values)) :
    (∀ other ∈ request.questions, ∀ text,
      Function.update r.accepted question.id (some r.view.answerInput) other.id = some text →
        AnsweredBy other text ((r.view.accept pending question values).answers other.id)) ∧
    ∀ j < pending.index + 1, ∀ other, request.questions[j]? = some other →
      ∃ text, Function.update r.accepted question.id (some r.view.answerInput) other.id = some text ∧
        (r.view.accept pending question values).drafts other.id = some text := by
  obtain ⟨hrequest, -⟩ := h.asked pending hpending
  have hmem : question ∈ request.questions := by
    rw [← hrequest]
    exact List.mem_of_getElem? hquestion
  dsimp only [QuestionView.accept]
  refine ⟨fun other hother text htext => ?_, fun j hj other hother => ?_⟩
  · by_cases hid : other.id = question.id
    · cases List.inj_on_of_nodup_map hids hother hmem hid
      rw [Function.update_self, Option.some.injEq] at htext
      cases htext
      refine ⟨hread.accepts, ?_⟩
      rw [Function.update_self, ← hread.answers]
      cases values <;> rfl
    · rw [Function.update_of_ne hid] at htext
      rw [Function.update_of_ne hid]
      exact h.answers pending hpending other hother text htext
  · by_cases hid : other.id = question.id
    · rw [hid, Function.update_self, Function.update_self]
      exact ⟨_, rfl, rfl⟩
    · rw [Function.update_of_ne hid, Function.update_of_ne hid]
      refine h.drafts pending hpending j ?_ other hother
      have hne : j ≠ pending.index := by
        rintro rfl
        rw [← hrequest] at hother
        exact hid (congrArg QuestionSpec.id (Option.some.inj (hother.symm.trans hquestion)))
      omega

theorem enter (h : r.Holds request) (hpending : r.view.pending = some pending)
    (hquestion : pending.question? = some question)
    (hids : (request.questions.map (·.id)).Nodup)
    (hplain : ¬ Misread question r.view.answerInput) : (r.press .enter).Holds request := by
  have hshown : r.question? = some question := question?_eq_some.mpr ⟨pending, hpending, hquestion⟩
  obtain ⟨hrequest, hunsent⟩ := h.asked pending hpending
  cases hread : parseTuiAnswer r.view.answerInput question with
  | error error =>
    rw [press_refused hshown hread]
    exact h.congr rfl rfl rfl
  | ok values =>
    obtain ⟨haccepts, hmeaning⟩ := (parseTuiAnswer_means hplain).mp hread
    have hanswered : AnsweredBy question r.view.answerInput (some values) := ⟨haccepts, hmeaning⟩
    obtain ⟨hanswers, hdrafts⟩ := h.accept hpending hquestion hids hanswered
    obtain ⟨haccepted, ⟨hafter, hsent⟩ | ⟨hlast, hafter, hsent⟩⟩ :=
      press_accepted hpending hquestion hread
    · rw [hunsent] at hsent
      constructor
      · rw [hafter, hsent]
        rintro _ ⟨⟩
        exact ⟨hrequest, rfl⟩
      · rw [hafter, haccepted]
        rintro _ ⟨⟩
        exact hanswers
      · rw [hafter, haccepted]
        rintro _ ⟨⟩
        exact hdrafts
      · rw [hsent]
        rintro _ ⟨⟩
    · constructor
      · rw [hafter]
        rintro _ ⟨⟩
      · rw [hafter]
        rintro _ ⟨⟩
      · rw [hafter]
        rintro _ ⟨⟩
      · rw [hsent, haccepted]
        rintro _ ⟨⟩ other hother
        -- behind the last question, every question has a text
        obtain ⟨j, hj⟩ := List.getElem?_of_mem hother
        have hlt := (List.getElem?_eq_some_iff.mp hj).1
        have hle := List.getElem?_eq_none_iff.mp hlast
        dsimp only [QuestionView.accept] at hle
        rw [hrequest] at hle
        obtain ⟨text, htext, -⟩ := hdrafts j (by omega) other hj
        exact ⟨text, htext, hanswers other hother text htext⟩

theorem backTab (h : r.Holds request) (hpending : r.view.pending = some pending)
    (hquestion : pending.question? = some question)
    (hids : (request.questions.map (·.id)).Nodup) : (r.press .backTab).Holds request := by
  obtain ⟨hrequest, hunsent⟩ := h.asked pending hpending
  obtain ⟨haccepted, hsent, after, hafter, hsame, hindex, hanswers, hdrafts, -⟩ :=
    press_backTab hpending hquestion
  rw [hunsent] at hsent
  constructor
  · rw [hafter, hsent]
    rintro _ ⟨⟩
    exact ⟨hsame.trans hrequest, rfl⟩
  · rw [hafter, haccepted]
    rintro _ ⟨⟩
    rw [hanswers]
    exact h.answers pending hpending
  · rw [hafter, haccepted]
    rintro _ ⟨⟩ j hj other hother
    rw [hindex] at hj
    have hne : other.id ≠ question.id := by
      intro hid
      rw [PendingQuestions.question?, hrequest] at hquestion
      cases List.inj_on_of_nodup_map hids (List.mem_of_getElem? hother)
        (List.mem_of_getElem? hquestion) hid
      have hlt := (List.getElem?_eq_some_iff.mp hother).1
      have hsame := (List.getElem?_inj hlt (hids.of_map _)).mp (hother.trans hquestion.symm)
      omega
    rw [hdrafts, Function.update_of_ne hne]
    exact h.drafts pending hpending j (by omega) other hother
  · rw [hsent]
    rintro _ ⟨⟩

/-- **What an event keeps**, where no text is entered that is misread. -/
theorem press {key : QuestionKey} (h : r.Holds request)
    (hids : (request.questions.map (·.id)).Nodup) (hkey : ReadsPlainly r key) :
    (r.press key).Holds request := by
  cases hshown : r.question? with
  | none =>
    rw [press_none hshown]
    exact h
  | some question =>
    obtain ⟨pending, hpending, hquestion⟩ := question?_eq_some.mp hshown
    cases key with
    | enter =>
      exact h.enter hpending hquestion hids (hkey rfl question hshown)
    | backTab => exact h.backTab hpending hquestion hids
    | char _ | backspace | paste _ =>
      refine h.congr ?_ ?_ rfl
      all_goals
        rw [QuestionRun.press, QuestionView.press, hpending]
        dsimp only
        rw [hquestion]

end Holds

end QuestionRun

theorem holds_asking (request : QuestionRequest) : (asking request).Holds request where
  asked := by
    rintro _ ⟨⟩
    exact ⟨rfl, rfl⟩
  answers := by
    rintro _ ⟨⟩ _ _ _ ⟨⟩
  drafts := by
    rintro _ ⟨⟩ j hj
    cases hj
  sent := by
    rintro _ ⟨⟩

theorem nodup_of_valid {questions : List QuestionSpec}
    (h : validateQuestionArgs questions = .ok ()) : (questions.map (·.id)).Nodup := by
  unfold validateQuestionArgs at h
  split at h
  · cases h
  · split at h
    · next hquestions => exact hquestions.2
    · cases h

/-- **A run**, in which no text is entered that is misread. -/
theorem holds_answering {request : QuestionRequest} {keys : List QuestionKey}
    (hvalid : validateQuestionArgs request.questions = .ok ())
    (h : questionMachine.Meets ReadsPlainly (asking request) keys) :
    (answering request keys).Holds request :=
  questionMachine.run_invariant (P := QuestionRun.Holds request)
    (fun _ _ hr hkey => hr.press (nodup_of_valid hvalid) hkey) (holds_asking request) h

/-- The answers of a run are those that were typed. -/
structure AnsweredAsTyped (request : QuestionRequest) (keys : List QuestionKey) : Prop where
  /-- The answers that are sent are those that the last accepted text means. -/
  sent : ∀ answers, (answering request keys).view.sent = some answers →
    ∀ question ∈ request.questions, ∃ text,
      (answering request keys).accepted question.id = some text ∧
        AnsweredBy question text (answers question.id)
  /-- Enter goes on from a text that is an answer. -/
  accepted : ∀ before pending question, keys = before ++ [.enter] →
    (answering request before).view.pending = some pending →
    pending.question? = some question →
    IsAnswer question (answering request before).view.answerInput →
      (answering request keys).accepted question.id =
          some (answering request before).view.answerInput ∧
        ((answering request keys).view.pending.map (·.index) = some (pending.index + 1) ∨
          (answering request keys).view.sent.isSome)
  /-- Enter leaves everything but the status as it is from any other text. -/
  refused : ∀ before question, keys = before ++ [.enter] →
    (answering request before).question? = some question →
    ¬ IsAnswer question (answering request before).view.answerInput →
      ∃ status, answering request keys =
        ⟨{ (answering request before).view with status }, (answering request before).accepted⟩
  /-- BackTab shows a text of the question before that means its answers. -/
  back : ∀ before pending index, keys = before ++ [.backTab] →
    (answering request before).view.pending = some pending →
    (answering request before).question?.isSome → pending.index = index + 1 →
      ∃ after previous, (answering request keys).view.pending = some after ∧
        after.index = index ∧ after.question? = some previous ∧
        AnsweredBy previous (answering request keys).view.answerInput (after.answers previous.id)

theorem answering_snoc (request : QuestionRequest) (before : List QuestionKey) (key : QuestionKey) :
    answering request (before ++ [key]) = (answering request before).press key := by
  rw [answering, questionMachine.run_snoc]
  rfl

/-- In a run in which no text is entered that is misread, the answers are those that were typed. -/
theorem answers_mean_what_was_typed (request : QuestionRequest) (keys : List QuestionKey)
    (hvalid : validateQuestionArgs request.questions = .ok ())
    (h : questionMachine.Meets ReadsPlainly (asking request) keys) :
    AnsweredAsTyped request keys where
  sent := (holds_answering hvalid h).sent
  accepted := by
    rintro before pending question rfl hpending hquestion haccepts
    have hshown := QuestionRun.question?_eq_some.mpr ⟨pending, hpending, hquestion⟩
    obtain ⟨-, hlast, -⟩ := (questionMachine.meets_append _ _ _ _).mp h
    have hplain : ¬ Misread question (answering request before).view.answerInput :=
      hlast rfl question hshown
    have hread := (parseTuiAnswer_means hplain).mpr ⟨haccepts, rfl⟩
    rw [answering_snoc]
    obtain ⟨haccepted, ⟨hafter, -⟩ | ⟨-, -, hsent⟩⟩ :=
      QuestionRun.press_accepted hpending hquestion hread
    · rw [haccepted, hafter, Function.update_self]
      exact ⟨rfl, .inl rfl⟩
    · rw [haccepted, hsent, Function.update_self]
      exact ⟨rfl, .inr rfl⟩
  refused := by
    rintro before question rfl hshown hnot
    obtain ⟨-, hlast, -⟩ := (questionMachine.meets_append _ _ _ _).mp h
    have hplain : ¬ Misread question (answering request before).view.answerInput :=
      hlast rfl question hshown
    rw [answering_snoc]
    cases hread : parseTuiAnswer (answering request before).view.answerInput question with
    | error error => exact ⟨_, QuestionRun.press_refused hshown hread⟩
    | ok values => exact absurd ((parseTuiAnswer_means hplain).mp hread).1 hnot
  back := by
    rintro before pending index rfl hpending hshown hindex
    obtain ⟨hbefore, -⟩ := (questionMachine.meets_append _ _ _ _).mp h
    have hholds := holds_answering hvalid hbefore
    have hafterHolds := holds_answering hvalid h
    obtain ⟨question, hquestion⟩ := Option.isSome_iff_exists.mp hshown
    obtain ⟨_, hsame, hquestion⟩ := QuestionRun.question?_eq_some.mp hquestion
    cases hpending.symm.trans hsame
    obtain ⟨hrequest, -⟩ := hholds.asked pending hpending
    rw [answering_snoc] at hafterHolds ⊢
    obtain ⟨haccepted, -, after, hafter, hafterRequest, hafterIndex, hanswers, hdrafts, hinput⟩ :=
      QuestionRun.press_backTab hpending hquestion
    rw [hindex, Nat.add_sub_cancel] at hafterIndex
    have hlt := (List.getElem?_eq_some_iff.mp hquestion).1
    obtain ⟨previous, hprevious⟩ : ∃ previous, request.questions[index]? = some previous :=
      ⟨_, List.getElem?_eq_getElem (by rw [← hrequest]; omega)⟩
    have hthere : after.question? = some previous := by
      rw [PendingQuestions.question?, hafterRequest, hafterIndex, hrequest, hprevious]
    obtain ⟨text, htext, hdraft⟩ :=
      hholds.drafts pending hpending index (by omega) previous hprevious
    refine ⟨after, previous, hafter, hafterIndex, hthere, ?_⟩
    have hne : previous.id ≠ question.id := by
      intro hid
      rw [PendingQuestions.question?, hrequest] at hquestion
      have hids := nodup_of_valid hvalid
      cases List.inj_on_of_nodup_map hids (List.mem_of_getElem? hprevious)
        (List.mem_of_getElem? hquestion) hid
      have hlt := (List.getElem?_eq_some_iff.mp hprevious).1
      have hsame := (List.getElem?_inj hlt (hids.of_map _)).mp (hprevious.trans hquestion.symm)
      omega
    have htyped : (((answering request before).press .backTab).view).answerInput = text := by
      rw [hinput index previous hindex hthere, PendingQuestions.restoreDraft, hdrafts,
        Function.update_of_ne hne, hdraft]
    rw [htyped]
    refine hafterHolds.answers after hafter previous (List.mem_of_getElem? hprevious) text ?_
    rw [haccepted]
    exact htext

/-- Two questions, of which the second one is answered by text. -/
def setupQuestions : QuestionRequest where
  requestId := "call"
  questions := [⟨"tests", "Run the tests?", ["yes", "no"], false, true⟩,
    ⟨"name", "Which name?", [], false, true⟩]

theorem answers_mean_what_was_typed_setup :
    AnsweredAsTyped setupQuestions [.paste "1", .enter, .backTab, .enter, .char 'a', .enter] :=
  answers_mean_what_was_typed _ _ (by decide +kernel) (by decide +kernel)

/-- The number 0 is taken for the first option, and a text with a comma is refused. -/
theorem answers_not_what_was_typed :
    validateQuestionArgs setupQuestions.questions = .ok () ∧
      ¬ AnsweredAsTyped setupQuestions [.paste "0", .enter, .paste "a", .enter] ∧
      ¬ AnsweredAsTyped setupQuestions [.paste "1", .enter, .paste "a, b", .enter] := by
  refine ⟨by decide +kernel, fun h => ?_, fun h => ?_⟩
  · have hrun : (answering setupQuestions [.paste "0", .enter, .paste "a", .enter]).view.sent.isSome ∧
        (answering setupQuestions [.paste "0", .enter, .paste "a", .enter]).accepted "tests" =
          some "0" ∧
        ¬ IsAnswer ⟨"tests", "Run the tests?", ["yes", "no"], false, true⟩ "0" := by
      decide +kernel
    obtain ⟨hsent, htext, hnot⟩ := hrun
    obtain ⟨answers, hsent⟩ := Option.isSome_iff_exists.mp hsent
    obtain ⟨text, haccepted, hanswered⟩ := h.sent answers hsent _ List.mem_cons_self
    cases htext.symm.trans haccepted
    exact hnot hanswered.accepts
  · have hrun : (answering setupQuestions [.paste "1", .enter, .paste "a, b"]).question? =
          some ⟨"name", "Which name?", [], false, true⟩ ∧
        IsAnswer ⟨"name", "Which name?", [], false, true⟩
          (answering setupQuestions [.paste "1", .enter, .paste "a, b"]).view.answerInput ∧
        (answering setupQuestions [.paste "1", .enter, .paste "a, b", .enter]).accepted "name" =
          none := by
      decide +kernel
    obtain ⟨hshown, haccepts, hnone⟩ := hrun
    obtain ⟨pending, hpending, hquestion⟩ := QuestionRun.question?_eq_some.mp hshown
    obtain ⟨haccepted, -⟩ := h.accepted [.paste "1", .enter, .paste "a, b"] pending _ rfl hpending
      hquestion haccepts
    cases hnone.symm.trans haccepted

end AxiomDesktop
