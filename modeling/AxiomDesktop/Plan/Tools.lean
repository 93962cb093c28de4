import AxiomDesktop.App.Event
import AxiomDesktop.Lib.Tasks

/-!
# The plan tools

`plan_create`, `plan_revise` and `plan_propose`, and the review that follows a proposal
(`completeInteraction`). The plans of a workspace are files that every session of it reads and
replaces; a tool reads one, changes it and replaces it in separate steps, and between any two of
them the other sessions take theirs. What the user answers, what fails and what a fresh UUID is, is
taken from the environment.
-/

/-!
## Plan artifacts

A plan, with its revision and its state, and the transitions between states (`PlanArtifact`). The
identifiers of plans and comments are drawn by the caller.
-/

namespace AxiomDesktop

inductive PlanState where
  | draft
  | proposed
  | revisionRequested
  | approved
  | abandoned
  deriving DecidableEq, Repr

namespace PlanState

/-- The name that `Debug` prints of a state. -/
def name : PlanState → String
  | draft => "Draft"
  | proposed => "Proposed"
  | revisionRequested => "RevisionRequested"
  | approved => "Approved"
  | abandoned => "Abandoned"

end PlanState

structure PlanComment where
  id : String
  startLine : Nat
  endLine : Nat
  text : String
  deriving DecidableEq, Repr

structure PlanArtifact where
  id : String
  revision : Nat
  state : PlanState
  markdown : String
  comments : List PlanComment
  deriving DecidableEq, Repr

/-- `str::lines().count()`: the pieces between line feeds, without an empty one at the end. -/
def lineCount (text : String) : Nat :=
  let pieces := Text.splitChar '\n' text.toList
  if pieces.getLast? = some [] then pieces.length - 1 else pieces.length

/-- `validate_markdown`. -/
def validateMarkdown (markdown : String) : Except AxiomError Unit :=
  if Text.isBlank markdown then .error (.invalidTransition "plan markdown cannot be empty")
  else if 1024 * 1024 < markdown.utf8ByteSize then
    .error (.invalidTransition "plan markdown exceeds the 1 MiB development limit")
  else .ok ()

namespace PlanArtifact

/-- `PlanArtifact::new`. -/
def new (id markdown : String) : PlanArtifact where
  id := id
  revision := 1
  state := .draft
  markdown := markdown
  comments := []

/-- `transition`. -/
def transition (plan : PlanArtifact) (target : PlanState) : Except AxiomError PlanArtifact :=
  let allowed := match plan.state, target with
    | .draft, .proposed | .proposed, .approved | .draft, .abandoned | .proposed, .abandoned
    | .revisionRequested, .abandoned => true
    | _, _ => false
  if allowed then .ok { plan with state := target }
  else
    .error (.invalidTransition
      ("plan cannot transition from " ++ plan.state.name ++ " to " ++ target.name))

def propose (plan : PlanArtifact) : Except AxiomError PlanArtifact := plan.transition .proposed

def approve (plan : PlanArtifact) : Except AxiomError PlanArtifact := plan.transition .approved

def abandon (plan : PlanArtifact) : Except AxiomError PlanArtifact := plan.transition .abandoned

def comment (plan : PlanArtifact) (commentId : String) (startLine endLine : Nat) (text : String) :
    Except AxiomError PlanArtifact :=
  let lineCount := max (lineCount plan.markdown) 1
  if Text.isBlank text ∨ startLine = 0 ∨ endLine < startLine ∨ lineCount < endLine then
    .error (.invalidTransition "plan comment range is invalid")
  else
    .ok { plan with comments := plan.comments ++ [⟨commentId, startLine, endLine, text⟩] }

/-- `request_revision`. -/
def requestRevision (plan : PlanArtifact) (commentId : String) (startLine endLine : Nat)
    (text : String) : Except AxiomError PlanArtifact :=
  if plan.state ≠ .proposed then
    .error (.invalidTransition "only a proposed plan can receive a revision request")
  else do
    let plan ← plan.comment commentId startLine endLine text
    return { plan with state := .revisionRequested }

/-- The revision after one: `u64::saturating_add`. -/
def nextRevision (revision : Nat) : Nat := min (revision + 1) (2 ^ 64 - 1)

def revise (plan : PlanArtifact) (expectedRevision : Nat) (markdown : String) :
    Except AxiomError PlanArtifact :=
  if plan.revision ≠ expectedRevision then
    .error (.invalidTransition ("stale plan revision: expected " ++ toString expectedRevision ++
      ", current " ++ toString plan.revision))
  else if plan.state = .approved ∨ plan.state = .abandoned then
    .error (.invalidTransition "terminal plan cannot be revised")
  else do
    validateMarkdown markdown
    return { plan with markdown, revision := nextRevision plan.revision, state := .draft }

/-- Two plans of one identifier, revision and text. -/
def SameRevision (plan other : PlanArtifact) : Prop :=
  plan.id = other.id ∧ plan.revision = other.revision ∧ plan.markdown = other.markdown

/-! ### Transitions -/

variable {plan plan' : PlanArtifact}

theorem transition_ok {target : PlanState} (h : plan.transition target = .ok plan') :
    plan' = { plan with state := target } := by
  unfold transition at h
  dsimp only at h
  split at h <;> split at h <;> cases h <;> rfl

theorem approve_ok (h : plan.approve = .ok plan') :
    plan.state = .proposed ∧ plan' = { plan with state := .approved } := by
  refine ⟨?_, transition_ok h⟩
  unfold approve transition at h
  cases hstate : plan.state <;> simp [hstate] at h ⊢

/-- A comment leaves the revision and its text as they are. -/
theorem comment_ok {commentId text : String} {startLine endLine : Nat}
    (h : plan.comment commentId startLine endLine text = .ok plan') :
    ∃ comments, plan' = { plan with comments } := by
  unfold comment at h
  dsimp only at h
  split at h
  · cases h
  · cases h
    exact ⟨_, rfl⟩

theorem requestRevision_ok {commentId text : String} {startLine endLine : Nat}
    (h : plan.requestRevision commentId startLine endLine text = .ok plan') :
    plan.state = .proposed ∧
      ∃ comments, plan' = { plan with comments, state := .revisionRequested } := by
  unfold requestRevision at h
  split at h
  · cases h
  · next hstate =>
    cases hcomment : plan.comment commentId startLine endLine text with
    | error error =>
      rw [hcomment] at h
      cases h
    | ok commented =>
      rw [hcomment] at h
      obtain ⟨comments, rfl⟩ := comment_ok hcomment
      cases h
      exact ⟨not_not.mp hstate, comments, rfl⟩

/-- **A revision** has the next number, and is a draft. -/
theorem revise_ok {expectedRevision : Nat} {markdown : String}
    (h : plan.revise expectedRevision markdown = .ok plan') :
    plan.revision = expectedRevision ∧
      plan' = { plan with markdown, revision := nextRevision plan.revision, state := .draft } := by
  unfold revise at h
  split at h
  · cases h
  · next hrevision =>
    split at h
    · cases h
    · cases hvalid : validateMarkdown markdown with
      | error error =>
        rw [hvalid] at h
        cases h
      | ok _ =>
        rw [hvalid] at h
        cases h
        exact ⟨not_not.mp hrevision, rfl⟩

end PlanArtifact

end AxiomDesktop

namespace AxiomDesktop

/-! ## Effects -/

/-- Who replaces a plan. -/
inductive PlanAuthor where
  | create
  | revise
  | propose
  /-- `complete_interaction`. -/
  | complete
  deriving DecidableEq

/-- The answers to the questions of a request, by question. -/
abbrev Answers := List (String × List String)

inductive PlanEffect where
  /-- `Uuid::new_v4`. -/
  | uuid
  /-- Reads the file of a plan. -/
  | read (id : String)
  /-- Replaces the file of a plan, by a rename. -/
  | replace (author : PlanAuthor) (plan : PlanArtifact)
  /-- Sends an event of a result. -/
  | send (event : AppEvent)
  /-- Puts questions to the user. -/
  | question (request : QuestionRequest)

@[reducible] def PlanEffect.Answer : PlanEffect → Type
  | uuid => String
  | read _ => Except AxiomError PlanArtifact
  | replace _ _ => Except AxiomError Unit
  | send _ => Unit
  | question _ => Except AxiomError Answers

/-- A program over the plans of a workspace. -/
abbrev PlanProg (α : Type) : Type := Prog PlanEffect PlanEffect.Answer α

namespace PlanProg

/-- One effect. -/
abbrev ask (e : PlanEffect) : PlanProg e.Answer := Prog.effect e

end PlanProg

open PlanProg (ask)

/-! ## Files -/

namespace PlanArtifact

/-- `PlanArtifact::load`. -/
def load (id : String) : PlanProg (Except AxiomError PlanArtifact) := do
  if ¬ id.toList.all (fun c => c.isAlphanum || c = '-') then return .error (.outsideWorkspace id)
  match ← ask (.read id) with
  | .error error => return .error error
  | .ok plan =>
    if plan.id ≠ id then
      return .error (.storage "plan file identity does not match its requested ID")
    match validateMarkdown plan.markdown with
    | .error error => return .error error
    | .ok () => return .ok plan

/-- `PlanArtifact::save`. -/
def save (author : PlanAuthor) (plan : PlanArtifact) : PlanProg (Except AxiomError Unit) :=
  match validateMarkdown plan.markdown with
  | .error error => pure (.error error)
  | .ok () => ask (.replace author plan)

end PlanArtifact

/-! ## Tools -/

/-- `ToolResult`, with the plan whose JSON its content is. -/
structure PlanToolResult where
  plan : PlanArtifact
  events : List AppEvent := []
  questions : Option QuestionRequest := none

structure CreatePlanArgs where
  markdown : String

structure RevisePlanArgs where
  planId : String
  expectedRevision : Nat
  markdown : String

structure PlanIdArgs where
  planId : String

/-- What a tool of a plan returns. -/
abbrev PlanOutcome := Except AxiomError PlanToolResult

/-- A change that is saved, with the result of the saved plan. -/
def saved (author : PlanAuthor) (changed : Except AxiomError PlanArtifact)
    (result : PlanArtifact → PlanOutcome) : PlanProg PlanOutcome :=
  match changed with
  | .error error => pure (.error error)
  | .ok plan => do
    match ← plan.save author with
    | .error error => return .error error
    | .ok () => return result plan

/-- `CreatePlan::execute`. -/
def createPlan (args : CreatePlanArgs) : PlanProg PlanOutcome := do
  let id ← ask .uuid
  saved .create (.ok (PlanArtifact.new id args.markdown)) fun plan => .ok { plan }

/-- `RevisePlan::execute`. -/
def revisePlan (args : RevisePlanArgs) : PlanProg PlanOutcome := do
  match ← PlanArtifact.load args.planId with
  | .error error => return .error error
  | .ok plan =>
    saved .revise (plan.revise args.expectedRevision args.markdown) fun plan => .ok { plan }

/-- The questions about a proposed plan. -/
def reviewRequest (plan : PlanArtifact) : QuestionRequest where
  requestId := "plan-review:" ++ plan.id ++ ":r" ++ toString plan.revision
  questions :=
    [{ id := "decision"
       prompt := "Review this plan"
       options := ["approve", "request_revision", "abandon"]
       multiple := false
       required := true },
     { id := "line_range"
       prompt := "Revision line/range (N, N-M, or all)"
       options := []
       multiple := false
       required := false },
     { id := "comment"
       prompt := "Revision comment"
       options := []
       multiple := false
       required := false }]

/-- `ProposePlan::execute`. -/
def proposePlan (args : PlanIdArgs) : PlanProg PlanOutcome := do
  match ← PlanArtifact.load args.planId with
  | .error error => return .error error
  | .ok plan =>
    saved .propose plan.propose fun plan => .ok
      { plan
        events := [.planProposed plan.id plan.revision plan.markdown]
        questions := some (reviewRequest plan) }

/-! ## Reviews -/

/-- `validate_answers`. -/
def validateAnswers (questions : List QuestionSpec) (answers : Answers) :
    Except AxiomError Answers :=
  match questions with
  | [] => .ok answers
  | question :: rest =>
    match (answers.lookup question.id).getD [] with
    | [] =>
      if question.required then .error (.tool ("missing answer for `" ++ question.id ++ "`"))
      else validateAnswers rest answers
    | values =>
      if ¬ question.multiple ∧ values.length ≠ 1 then
        .error (.tool ("invalid answer count for `" ++ question.id ++ "`"))
      else if ¬ question.options.isEmpty ∧
          values.any (fun value => !question.options.contains value) then
        .error (.tool ("answer for `" ++ question.id ++ "` is not one of its options"))
      else validateAnswers rest answers

/-- `one_answer`. -/
def oneAnswer (answers : Answers) (id : String) : Except AxiomError String :=
  match (answers.lookup id).bind List.head? with
  | some value => .ok value
  | none => .error (.tool ("missing plan review answer `" ++ id ++ "`"))

/-- `str::parse::<usize>`. -/
def parseUsize (cs : List Char) : Option Nat :=
  let digits := match cs with
    | '+' :: rest => rest
    | _ => cs
  (Text.digits? digits).filter (· < 2 ^ 64)

/-- `parse_plan_line_range`. -/
def parsePlanLineRange (value : String) (lineCount : Nat) : Except AxiomError (Nat × Nat) :=
  let lineCount := max lineCount 1
  let trimmed := Text.trimChars value.toList
  if trimmed.map Char.toLower = "all".toList ∨ trimmed = ['-'] then .ok (1, lineCount)
  else
    let cs := value.toList
    let (start, stop) :=
      if cs.contains '-' then (cs.takeWhile (· ≠ '-'), (cs.dropWhile (· ≠ '-')).drop 1)
      else (cs, cs)
    match parseUsize (Text.trimChars start), parseUsize (Text.trimChars stop) with
    | some first, some last =>
      if first = 0 ∨ last < first ∨ lineCount < last then
        .error (.tool ("plan line range must be within 1-" ++ toString lineCount))
      else .ok (first, last)
    | _, _ => .error (.tool "plan line range must be N, N-M, or all")

/-- The decision of `complete_interaction`, on the plan that is stored by then. -/
def reviewed (answers : Answers) (commentId : String) (plan : PlanArtifact) :
    Except AxiomError PlanArtifact := do
  match ← oneAnswer answers "decision" with
  | "approve" => plan.approve
  | "abandon" => plan.abandon
  | "request_revision" =>
    let lineRange ← oneAnswer answers "line_range"
    let (first, last) ← parsePlanLineRange lineRange (lineCount plan.markdown)
    let comment ← oneAnswer answers "comment"
    if comment = "-" then .error (.tool "a revision request requires a line comment")
    else plan.requestRevision commentId first last comment
  | _ => .error (.tool "unknown plan review decision")

/-- The decision that an event tells. -/
def PlanState.decision : PlanState → Option String
  | approved => some "approved"
  | revisionRequested => some "revision_requested"
  | abandoned => some "abandoned"
  | _ => none

/-- `complete_interaction` of `plan_propose`. -/
def completeInteraction (args : PlanIdArgs) (answers : Answers) : PlanProg PlanOutcome := do
  match ← PlanArtifact.load args.planId with
  | .error error => return .error error
  | .ok plan =>
    let commentId ← ask .uuid
    saved .complete (reviewed answers commentId plan) fun plan =>
      match plan.state.decision with
      | none => .error (.tool "plan review did not reach a reviewed state")
      | some decision => .ok { plan, events := [.planReviewed plan.id plan.revision decision] }

/-! ## Calls -/

inductive PlanOperation where
  | create (args : CreatePlanArgs)
  | revise (args : RevisePlanArgs)
  | propose (args : PlanIdArgs)

/-- The events of a result are sent. -/
def sendAll : List AppEvent → PlanProg Unit
  | [] => pure ()
  | event :: rest => do
    ask (.send event)
    sendAll rest

/-- What a turn does with a result: its events are sent, its questions are put to the user, and a
review is completed. -/
def interact (args : PlanIdArgs) (result : PlanToolResult) : PlanProg Unit := do
  sendAll result.events
  match result.questions with
  | none => return ()
  | some request =>
    match ← ask (.question request) with
    | .error _ => return ()
    | .ok answers =>
      match validateAnswers request.questions answers with
      | .error _ => return ()
      | .ok answers =>
        match ← completeInteraction args answers with
        | .error _ => return ()
        | .ok completed => sendAll completed.events

/-- A call of a plan tool. -/
def PlanOperation.call : PlanOperation → PlanProg Unit
  | create args => do let _ ← createPlan args
  | revise args => do let _ ← revisePlan args
  | propose args => do
    match ← proposePlan args with
    | .error _ => return ()
    | .ok result => interact args result

/-! ## The workspace -/

/-- A proposal with the answers of the user. -/
structure PlanReview where
  /-- The events that were sent before the questions. -/
  events : List AppEvent
  request : QuestionRequest
  answers : Answers

/-- What happened to the plans of a workspace. -/
inductive PlanRecord where
  | loaded (task : Nat) (plan : PlanArtifact)
  /-- A plan took the place of another one. The review is the one of the task, if there is one. -/
  | replaced (task : Nat) (author : PlanAuthor) (plan : PlanArtifact)
    (before : Option PlanArtifact) (review : Option PlanReview)

structure PlanWorld where
  plans : String → Option PlanArtifact := fun _ => none
  /-- The UUIDs that were drawn. -/
  drawn : List String := []
  /-- The events that a task has sent. -/
  sent : Nat → List AppEvent := fun _ => []
  reviews : Nat → Option PlanReview := fun _ => none
  /-- The last record first. -/
  log : List PlanRecord := []

/-- What the environment chooses in an effect. -/
inductive PlanChoice where
  | go
  | failed (error : AxiomError)
  | uuid (id : String)
  | answered (answers : Except AxiomError Answers)

def planExec (w : PlanWorld) (i : Nat) :
    (e : PlanEffect) → PlanChoice → Option (PlanWorld × e.Answer)
  | .uuid, .uuid id => if id ∈ w.drawn then none else some ({ w with drawn := id :: w.drawn }, id)
  | .read id, .go =>
    match w.plans id with
    | some plan => some ({ w with log := .loaded i plan :: w.log }, .ok plan)
    | none => some (w, .error (.io .notFound))
  | .read _, .failed error => some (w, .error error)
  | .replace author plan, .go =>
    some ({ w with
      plans := Function.update w.plans plan.id (some plan)
      log := .replaced i author plan (w.plans plan.id) (w.reviews i) :: w.log }, .ok ())
  | .replace _ _, .failed error => some (w, .error error)
  | .send event, .go => some ({ w with sent := Function.update w.sent i (event :: w.sent i) }, ())
  | .question request, .answered answers =>
    let review := answers.toOption.map fun answers => ⟨w.sent i, request, answers⟩
    some ({ w with reviews := Function.update w.reviews i review }, answers)
  | _, _ => none

/-- The tool calls of the sessions of a workspace. -/
def planSystem :
    TaskSystem PlanWorld PlanEffect PlanEffect.Answer PlanChoice Empty PlanOperation where
  exec := planExec
  event _ := Empty.elim
  start w _ operation := some (w, operation.call)

abbrev PlanPool : Type := Pool PlanWorld PlanEffect PlanEffect.Answer

abbrev PlanStep : Type := PoolStep PlanChoice Empty PlanOperation

end AxiomDesktop
