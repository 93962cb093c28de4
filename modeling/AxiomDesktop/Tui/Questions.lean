import AxiomDesktop.Plan.Tools

/-!
# Questions in the terminal

The questions of a request, which the user answers one after another (`QuestionView.press`). An
answer is a text, that `parseTuiAnswer` reads; Enter goes on to the next question where it is read,
and BackTab goes back to the question before, whose text is there again.
-/

namespace AxiomDesktop

/-- `validate_question_args`. -/
def validateQuestionArgs (questions : List QuestionSpec) : Except AxiomError Unit :=
  if questions.isEmpty ∨ questions.length > 3 then
    .error (.tool "ask_user_questions requires 1-3 questions")
  else if (∀ question ∈ questions, ¬ Text.isBlank question.id ∧ ¬ Text.isBlank question.prompt ∧
      question.options.length ≤ 5 ∧ (∀ option ∈ question.options, ¬ Text.isBlank option) ∧
      (question.multiple → question.options ≠ [])) ∧ (questions.map (·.id)).Nodup then .ok ()
  else
    .error (.tool ("questions require unique non-empty IDs/prompts, at most five non-empty " ++
      "options, and multiple selection requires explicit options"))

/-! ## Answers -/

/-- The parts of a text between its commas that are not blank. -/
def answerParts (input : String) : List String :=
  (((Text.splitChar ',' input.toList).map Text.trimChars).filter (· ≠ [])).map String.ofList

/-- What a part of a text chooses. -/
def chosenValue (question : QuestionSpec) (value : String) : String :=
  ((parseUsize value.toList).bind fun index => question.options[index - 1]?).getD value

/-- `parse_tui_answer`. -/
def parseTuiAnswer (input : String) (question : QuestionSpec) : Except AxiomError (List String) :=
  if Text.isBlank input ∧ ¬ question.required then .ok []
  else
    let values := (answerParts input).map (chosenValue question)
    if values.isEmpty ∨ (¬ question.multiple ∧ values.length ≠ 1) then
      .error (.tool ("enter one answer, or comma-separated answers when multiple selections " ++
        "are allowed"))
    else if ¬ question.options.isEmpty ∧ values.any (!question.options.contains ·) then
      .error (.tool "answer must be one of the numbered options")
    else .ok values

/-- `PendingQuestions`. -/
structure PendingQuestions where
  request : QuestionRequest
  index : Nat
  answers : String → Option (List String)
  drafts : String → Option String

namespace PendingQuestions

variable (pending : PendingQuestions)

/-- `pending.request.questions[pending.index]`. -/
def question? : Option QuestionSpec := pending.request.questions[pending.index]?

/-- `question_status`. -/
def status (question : QuestionSpec) : String :=
  let options := " · ".intercalate
    (question.options.mapIdx fun index option => toString (index + 1) ++ "=" ++ option)
  "Question " ++ toString (pending.index + 1) ++ "/" ++
    toString pending.request.questions.length ++
    (if question.required then "" else " · optional") ++ ": " ++ question.prompt ++
    (if options.isEmpty then "" else " · " ++ options)

/-- The text of answers that were given. -/
def answersText (question : QuestionSpec) (answers : List String) : String :=
  if question.options.isEmpty then ", ".intercalate answers
  else ",".intercalate (answers.filterMap fun answer =>
    (question.options.idxOf? answer).map fun index => toString (index + 1))

/-- `restore_question_draft`. -/
def restoreDraft (question : QuestionSpec) : String :=
  match pending.drafts question.id with
  | some draft => draft
  | none => ((pending.answers question.id).map (answersText question)).getD ""

end PendingQuestions

/-! ## The view -/

/-- `sanitize_terminal_text`. -/
def sanitizeTerminalText (input : String) : String :=
  String.ofList (input.toList.filter fun c => c = '\n' || c = '\t' || !Text.isControl c)

/-- `text.replace(['\n', '\r'], " ")`. -/
def singleLine (text : String) : String :=
  String.ofList (text.toList.map fun c => if c = '\n' ∨ c = '\r' then ' ' else c)

/-- What `run` has of the questions, and what it has sent. -/
structure QuestionView where
  pending : Option PendingQuestions
  answerInput : String
  answerPrompt : Option String
  /-- The question that is shown, by its place. -/
  interaction : Option (QuestionRequest × Nat)
  status : String
  sent : Option (String → Option (List String))

inductive QuestionKey where
  | char (c : Char)
  | backspace
  | paste (text : String)
  | enter
  | backTab
  deriving DecidableEq, Repr

namespace QuestionView

variable (w : QuestionView)

/-- A question is shown, with the text that is there for it. -/
def shown (pending : PendingQuestions) (question : QuestionSpec) : QuestionView :=
  { w with
    pending := some pending
    answerInput := pending.restoreDraft question
    answerPrompt := some (pending.status question)
    interaction := some (pending.request, pending.index)
    status := pending.status question }

/-- `UiMessage::Questions`. -/
def ofRequest (request : QuestionRequest) : QuestionView :=
  let pending : PendingQuestions := ⟨request, 0, fun _ => none, fun _ => none⟩
  let prompt := pending.question?.map pending.status
  { pending := some pending
    answerInput := ""
    answerPrompt := prompt
    interaction := some (request, 0)
    status := prompt.getD ""
    sent := none }

/-- The answers of a text are kept, with the text. -/
def accept (pending : PendingQuestions) (question : QuestionSpec) (values : List String) :
    PendingQuestions :=
  { pending with
    drafts := Function.update pending.drafts question.id (some w.answerInput)
    answers := Function.update pending.answers question.id
      (if values.isEmpty then none else some values)
    index := pending.index + 1 }

/-- `KeyCode::Enter`. -/
def enter (pending : PendingQuestions) (question : QuestionSpec) : QuestionView :=
  match parseTuiAnswer w.answerInput question with
  | .error error => { w with status := error.message }
  | .ok values =>
    let pending := w.accept pending question values
    match pending.question? with
    | some next => w.shown pending next
    | none =>
      { w with
        pending := none
        answerInput := ""
        answerPrompt := none
        interaction := none
        status := "Answers submitted"
        sent := some pending.answers }

/-- `KeyCode::BackTab`. -/
def backTab (pending : PendingQuestions) (question : QuestionSpec) : QuestionView :=
  let pending :=
    { pending with drafts := Function.update pending.drafts question.id (some w.answerInput) }
  match pending.index with
  | 0 => { w with pending := some pending }
  | index + 1 =>
    let pending := { pending with index }
    match pending.question? with
    | some previous => w.shown pending previous
    | none => w

/-- One event, where questions are pending. -/
def press (key : QuestionKey) : QuestionView :=
  match w.pending with
  | none => w
  | some pending =>
    match pending.question? with
    | none => w
    | some question =>
      match key with
      | .char c => { w with answerInput := w.answerInput.push c }
      | .backspace => { w with answerInput := String.ofList w.answerInput.toList.dropLast }
      | .paste text =>
        { w with answerInput := w.answerInput ++ singleLine (sanitizeTerminalText text) }
      | .enter => w.enter pending question
      | .backTab => w.backTab pending question

end QuestionView

end AxiomDesktop
