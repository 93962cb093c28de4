import AxiomDesktop.Inference.Request
import AxiomDesktop.Lib.Tasks
import AxiomDesktop.Policy.Engine
import AxiomDesktop.Workspace.Patch

/-!
# Authorizing a tool call

`authorize` (`AgentEngine::authorize`): the effects a tool call reports are put to the policy, and
the ones it asks about to the user, before the tool runs. The policy of a session is shared by its
calls, and an approval may add a grant to it; other calls take steps between any two effects of a
call. What a tool reports and what the user answers is taken from the environment.
-/

namespace AxiomDesktop

/-! ## Texts of the policy -/

/-- The name that `Debug` prints of a class. -/
def EffectClass.name : EffectClass → String
  | .toolUse => "ToolUse"
  | .fileRead => "FileRead"
  | .fileWrite => "FileWrite"
  | .fileDelete => "FileDelete"
  | .process => "Process"
  | .repositoryMutation => "RepositoryMutation"
  | .network => "Network"
  | .mcp => "Mcp"
  | .scopeChange => "ScopeChange"
  | .credentialAccess => "CredentialAccess"
  | .planWrite => "PlanWrite"

/-- `describe_effect`. -/
def describeEffect : Effect → String
  | .toolUse name _ => "use tool " ++ name
  | .fileRead path => "read " ++ path.display
  | .fileWrite path => "write " ++ path.display
  | .fileDelete path => "delete " ++ path.display
  | .process program args shell cwd env =>
    "run " ++ (if shell then "shell " else "") ++ program ++
      (if args.isEmpty then "" else " " ++ " ".intercalate args) ++ " in " ++ cwd.display ++
      (if env.isEmpty then "" else " with environment " ++ ",".intercalate (env.map (·.1)))
  | .network url => "connect to " ++ url
  | .repositoryMutation operation cwd =>
    "mutate repository with `" ++ operation ++ "` in " ++ cwd.display
  | .mcp server tool sideEffecting =>
    "call MCP " ++ server ++ "/" ++ tool ++ " (" ++
      (if sideEffecting then "side effects declared" else "read-only declared") ++ ")"
  | .scopeChange scope => "expand scope: " ++ scope
  | .credentialAccess service => "access credentials for " ++ service
  | .planWrite path => "update plan artifact " ++ path.display

/-- `describe_grant`. -/
def describeGrant : ScopedGrant → String
  | .exact effect => "exactly " ++ describeEffect effect
  | .filePrefix effectClass path => effectClass.name ++ " within " ++ path.display
  | .networkOrigin origin => "network origin " ++ origin
  | .mcpServer server sideEffecting =>
    "MCP server " ++ server ++ " (" ++
      (if sideEffecting then "side-effecting tools" else "read-only tools") ++ ")"

/-! ## Prompts -/

/-- `ApprovalChoice::is_allowed`. -/
def ApprovalChoice.isAllowed (choice : ApprovalChoice) : Bool := choice ≠ .deny

/-- `ApprovalChoice::as_str`. -/
def ApprovalChoice.asStr : ApprovalChoice → String
  | .deny => "deny"
  | .allowOnce => "allow_once"
  | .allowExactSession => "allow_exact_session"
  | .allowPrefixSession => "allow_prefix_session"

/-- An approval request with the texts that the user sees of it. -/
structure ApprovalPrompt extends ApprovalRequest where
  requestId : String
  explanation : String
  suggestedPrefixScope : Option String

namespace ApprovalPrompt

/-- `ApprovalRequest::new`. -/
def new (host : PolicyHost) (requestId : String) (decision : PolicyDecision) : ApprovalPrompt where
  requestId := requestId
  explanation := decision.explanation ++ ": " ++ describeEffect decision.normalizedEffect
  effect := decision.normalizedEffect
  allowSessionGrants := decision.sessionGrantAllowed
  suggestedPrefixScope :=
    if decision.sessionGrantAllowed then
      (suggestedPrefix host decision.normalizedEffect).map describeGrant
    else none

/-- `ApprovalRequest::offered_choices`. -/
def offeredChoices (prompt : ApprovalPrompt) : List ApprovalChoice :=
  [.allowOnce] ++ (if prompt.allowSessionGrants then [.allowExactSession] else []) ++
    (if prompt.suggestedPrefixScope.isSome then [.allowPrefixSession] else []) ++ [.deny]

end ApprovalPrompt

/-! ## The call -/

/-- The fields of `TurnContext` that `authorize` reads. -/
structure AuthorizeContext where
  sessionId : String
  cwd : Path
  permissionProfile : PermissionProfile
  webEnabled : Bool
  imageToolsAvailable : Bool
  /-- `mcp.is_some()`. -/
  mcp : Bool
  /-- `approval.is_some()`. -/
  approval : Bool
  deriving DecidableEq

/-- The fields of `ToolContext` that a tool may read. -/
structure ToolContext where
  sessionId : String
  modelId : String
  cwd : Path
  permissionProfile : PermissionProfile

/-- `ToolRegistry`, by the access of its tools. -/
abbrev ToolRegistry := String → Option ToolAccess

/-- `ToolRegistry::access`. -/
def ToolRegistry.access (tools : ToolRegistry) (name : String) : Except AxiomError ToolAccess :=
  match tools name with
  | some access => .ok access
  | none => .error (.tool ("unknown tool `" ++ name ++ "`"))

inductive AuthorizeError where
  | error (error : AxiomError)
  /-- `AxiomError::ApprovalDeclined`. -/
  | approvalDeclined
  deriving DecidableEq

/-- What an approval handler answers. -/
inductive ApprovalAnswer where
  | responded (choice : ApprovalChoice)
  | failed (error : AxiomError)
  /-- The call is cancelled before it answers. -/
  | cancelled

/-- The events that `authorize` sends. -/
inductive PermissionEvent where
  | required (requestId explanation : String) (effect : Effect) (choices : List String)
  | resolved (requestId : String) (allowed : Bool) (choice : Option String)

/-- A call of `authorize`. -/
structure AuthorizeOperation where
  tools : ToolRegistry
  context : AuthorizeContext
  toolName : String
  arguments : Json

inductive AuthorizeEffect where
  /-- `settings_for(&context.session_id).await.model`. -/
  | model
  /-- `policy_for`. -/
  | policyFor (context : AuthorizeContext)
  /-- `tools.effects`. -/
  | effects (name : String) (context : ToolContext) (arguments : Json)
  /-- `evaluate` and `evaluate_desktop_mcp` of a policy. -/
  | evaluate (policy : Nat) (desktopMcp : Bool) (profile : PermissionProfile) (effect : Effect)
  /-- `ApprovalRequest::new`. -/
  | newRequest (decision : PolicyDecision)
  | send (event : PermissionEvent)
  /-- `handler.request`. -/
  | request (prompt : ApprovalPrompt)
  /-- `apply_approval` of a policy. -/
  | apply (policy : Nat) (prompt : ApprovalPrompt) (choice : ApprovalChoice)
  /-- `authorize` returns. -/
  | report (operation : AuthorizeOperation) (result : Except AuthorizeError Unit)

/-- The answers to an effect: a policy is known by a number, and the answer of `send` says whether
the channel is closed. -/
@[reducible] def AuthorizeEffect.Answer : AuthorizeEffect → Type
  | model => String
  | policyFor _ => Except AxiomError Nat
  | effects _ _ _ => Except AxiomError (List Effect)
  | evaluate _ _ _ _ => PolicyDecision
  | newRequest _ => ApprovalPrompt
  | send _ => Bool
  | request _ => ApprovalAnswer
  | apply _ _ _ => Except AxiomError Unit
  | report _ _ => Unit

/-- A program over the policies of the sessions. -/
abbrev AuthorizeProg (α : Type) : Type := Prog AuthorizeEffect AuthorizeEffect.Answer α

namespace AgentEngine

def ask (e : AuthorizeEffect) : AuthorizeProg e.Answer := Prog.effect e

/-- The decision is about the use of a tool. -/
def isToolUse (decision : PolicyDecision) : Bool := decision.normalizedEffect matches .toolUse ..

variable (tools : ToolRegistry) (context : AuthorizeContext) (toolName : String) (arguments : Json)

/-- The call is one of a tool of the desktop's MCP selection. -/
def desktopMcp : Bool := context.mcp && Text.startsWith "mcp__" toolName

/-- The checks before the policy. -/
def admitTool : Except AxiomError Unit := do
  if !context.webEnabled then
    if (← tools.access toolName) = .web then
      throw (.permissionDenied
        "Web is off for this message. The user must enable Web in the chat before searching or fetching pages.")
  if !context.imageToolsAvailable then
    if (← tools.access toolName) = .image then
      throw (.permissionDenied
        "Image creation and editing require a vision-capable model and the installed image service.")

/-- The effect that stands for the use of the tool itself. -/
def toolEffects : Except AxiomError (List Effect) :=
  if desktopMcp context toolName then .ok []
  else do
    let access ← tools.access toolName
    return [.toolUse toolName access]

/-- The decisions of a policy on a list of effects. -/
def evaluateAll (policy : Nat) : List Effect → AuthorizeProg (List PolicyDecision)
  | [] => return []
  | effect :: rest => do
    let decision ← ask
      (.evaluate policy (desktopMcp context toolName) context.permissionProfile effect)
    let decisions ← evaluateAll policy rest
    return decision :: decisions

/-- The effects that a prompt for a tool lists. -/
def concreteEffects (decisions : List PolicyDecision) : List Effect :=
  (decisions.filter (!isToolUse ·)).map (·.normalizedEffect)

/-- The decisions that are put to the user. -/
def asked (decisions : List PolicyDecision) : List PolicyDecision :=
  decisions.filter fun decision =>
    decision.kind = .ask &&
      (desktopMcp context toolName || context.permissionProfile ≠ .confirm || isToolUse decision)

/-- What a prompt for a tool asks. -/
def question : String :=
  "Allow " ++ String.ofList (toolName.toList.map fun c => if c = '_' then ' ' else c) ++ "?"

/-- The explanation of a prompt. -/
def explain (concrete : List Effect) (decision : PolicyDecision) (prompt : ApprovalPrompt) :
    ApprovalPrompt :=
  let prompt :=
    if desktopMcp context toolName then
      { prompt with
        explanation := describeEffect prompt.effect ++ "\nArguments: " ++
          (truncateUtf8 arguments.toText (16 * 1024)).1 }
    else prompt
  if isToolUse decision then
    let listed := "\n".intercalate (concrete.map describeEffect)
    { prompt with
      explanation :=
        if listed.isEmpty then question toolName else question toolName ++ "\n" ++ listed }
  else prompt

/-- The answer to a prompt; without a handler it is a denial. -/
def response (prompt : ApprovalPrompt) : AuthorizeProg (Except AuthorizeError ApprovalChoice) := do
  if context.approval then
    match ← ask (.request prompt) with
    | .responded choice => return .ok choice
    | .cancelled => return .error (.error .cancelled)
    | .failed error =>
      if ← ask (.send (.resolved prompt.requestId false (some "failed_closed"))) then
        return .error (.error .cancelled)
      else return .error (.error error)
  else return .ok .deny

/-- What follows an answer. -/
def settle (policy : Nat) (prompt : ApprovalPrompt) (choice : ApprovalChoice) :
    AuthorizeProg (Except AuthorizeError Unit) := do
  match ← ask (.apply policy prompt choice) with
  | .error error =>
    if ← ask (.send (.resolved prompt.requestId false (some "rejected_scope"))) then
      return .error (.error .cancelled)
    else return .error (.error error)
  | .ok () =>
    if ← ask (.send (.resolved prompt.requestId choice.isAllowed (some choice.asStr))) then
      return .error (.error .cancelled)
    else if choice.isAllowed then return .ok ()
    else if context.approval then return .error .approvalDeclined
    else return .error (.error (.permissionDenied "approval handler is unavailable"))

/-- A round of the loop over the decisions that are put to the user. -/
def askUser (policy : Nat) (concrete : List Effect) (decision : PolicyDecision) :
    AuthorizeProg (Except AuthorizeError Unit) := do
  let prompt ← ask (.newRequest decision)
  let prompt := explain context toolName arguments concrete decision prompt
  if ← ask (.send (.required prompt.requestId prompt.explanation prompt.effect
      (prompt.offeredChoices.map (·.asStr)))) then
    return .error (.error .cancelled)
  else
    match ← response context prompt with
    | .error error => return .error error
    | .ok choice => settle context policy prompt choice

/-- The loop over the decisions that are put to the user. -/
def askAll (policy : Nat) (concrete : List Effect) :
    List PolicyDecision → AuthorizeProg (Except AuthorizeError Unit)
  | [] => return .ok ()
  | decision :: rest => do
    match ← askUser context toolName arguments policy concrete decision with
    | .error error => return .error error
    | .ok () => askAll policy concrete rest

/-- What follows the decisions: a denial ends the call before any question. -/
def decide (policy : Nat) (decisions : List PolicyDecision) :
    AuthorizeProg (Except AuthorizeError Unit) :=
  match decisions.find? (·.kind = .deny) with
  | some decision => return .error (.error (.permissionDenied decision.explanation))
  | none =>
    askAll context toolName arguments policy (concreteEffects decisions)
      (asked context toolName decisions)

/-- `authorize`. -/
def authorize : AuthorizeProg (Except AuthorizeError Unit) := do
  match admitTool tools context toolName with
  | .error error => return .error (.error error)
  | .ok () =>
    let modelId ← ask .model
    match ← ask (.policyFor context) with
    | .error error => return .error (.error error)
    | .ok policy =>
      match toolEffects tools context toolName with
      | .error error => return .error (.error error)
      | .ok own =>
        let toolContext : ToolContext :=
          { sessionId := context.sessionId, modelId, cwd := context.cwd,
            permissionProfile := context.permissionProfile }
        match ← ask (.effects toolName toolContext arguments) with
        | .error error => return .error (.error error)
        | .ok reported =>
          let decisions ← evaluateAll context toolName policy (own ++ reported)
          decide context toolName arguments policy decisions

/-- A call of `authorize`, and its return. -/
def call : AuthorizeProg Unit := do
  let result ← authorize tools context toolName arguments
  ask (.report ⟨tools, context, toolName, arguments⟩ result)

end AgentEngine

/-! ## Sessions and their policies -/

/-- The decision of a policy on an effect of a call. -/
def PolicyEngine.evaluateCall (host : PolicyHost) (engine : PolicyEngine) (desktopMcp : Bool)
    (profile : PermissionProfile) (effect : Effect) : PolicyDecision :=
  if desktopMcp then engine.evaluateDesktopMcp host effect else engine.evaluate host profile effect

/-- What has happened in a call. -/
inductive AuthorizeEntry where
  /-- The tool has reported its effects. -/
  | reported (effects : List Effect)
  | decided (effect : Effect) (decision : PolicyDecision)
  /-- The handler has answered a prompt. -/
  | answered (prompt : ApprovalPrompt) (choice : ApprovalChoice)
  /-- The handler has failed, or the call was cancelled before it answered. -/
  | failed (prompt : ApprovalPrompt)
  /-- The policy has refused the scope of an answer. -/
  | rejected (prompt : ApprovalPrompt) (choice : ApprovalChoice)

/-- A grant, with the call that has recorded it and the answer it comes from. -/
structure RecordedGrant where
  call : Nat
  policy : Nat
  prompt : ApprovalPrompt
  choice : ApprovalChoice
  grant : ScopedGrant

/-- A return of `authorize`, with what had happened in the call. -/
structure AuthorizeReturn where
  operation : AuthorizeOperation
  result : Except AuthorizeError Unit
  log : List AuthorizeEntry

structure AuthorizeWorld where
  /-- The rules of the user's configuration. -/
  policyRules : List PolicyRule
  /-- The policies that were made. -/
  engines : List PolicyEngine := []
  /-- The policies of the sessions. -/
  policies : String → Option Nat := fun _ => none
  /-- What has happened in the call of a task. -/
  log : Nat → List AuthorizeEntry := fun _ => []
  recorded : List RecordedGrant := []
  returned : List AuthorizeReturn := []

/-- What the environment chooses in an effect. -/
inductive AuthorizeChoice where
  | go
  | model (id : String)
  /-- The file system and the parser that the policy meets. -/
  | host (host : PolicyHost)
  /-- With the rules of the project. -/
  | project (host : PolicyHost) (rules : Except AxiomError (List PolicyRule))
  | effects (reported : Except AxiomError (List Effect))
  | request (host : PolicyHost) (id : String)
  | channel (closed : Bool)
  | answer (answer : ApprovalAnswer)

namespace AuthorizeWorld

variable (w : AuthorizeWorld)

/-- Something happens in a call. -/
def note (i : Nat) (entry : AuthorizeEntry) : AuthorizeWorld :=
  { w with log := Function.update w.log i (w.log i ++ [entry]) }

/-- A session is given a new policy. -/
def addPolicy (sessionId : String) (engine : PolicyEngine) : AuthorizeWorld :=
  { w with
    engines := w.engines ++ [engine]
    policies := Function.update w.policies sessionId (some w.engines.length) }

/-- An approval of a call is applied to a policy. -/
def applyApproval (i policy : Nat) (engine : PolicyEngine) (host : PolicyHost)
    (prompt : ApprovalPrompt) (choice : ApprovalChoice) : AuthorizeWorld × Except AxiomError Unit :=
  match engine.approvedGrant host prompt.toApprovalRequest choice with
  | .error error => (w.note i (.rejected prompt choice), .error error)
  | .ok none => (w, .ok ())
  | .ok (some grant) =>
    ({ w with
        engines := w.engines.set policy (engine.applyApproval host prompt.toApprovalRequest choice)
        recorded := ⟨i, policy, prompt, choice, grant⟩ :: w.recorded }, .ok ())

end AuthorizeWorld

def authorizeExec (w : AuthorizeWorld) (i : Nat) :
    (e : AuthorizeEffect) → AuthorizeChoice → Option (AuthorizeWorld × e.Answer)
  | .model, .model id => some (w, id)
  | .policyFor context, .project host rules =>
    match w.policies context.sessionId with
    | some policy => some (w, .ok policy)
    | none =>
      match rules.bind fun rules =>
          PolicyEngine.forWorkspaceWithRules host context.cwd (w.policyRules ++ rules) with
      | .error error => some (w, .error error)
      | .ok engine => some (w.addPolicy context.sessionId engine, .ok w.engines.length)
  | .effects _ _ _, .effects (.ok reported) => some (w.note i (.reported reported), .ok reported)
  | .effects _ _ _, .effects (.error error) => some (w, .error error)
  | .evaluate policy desktopMcp profile effect, .host host =>
    w.engines[policy]?.map fun engine =>
      let decision := engine.evaluateCall host desktopMcp profile effect
      (w.note i (.decided effect decision), decision)
  | .newRequest decision, .request host id => some (w, .new host id decision)
  | .send _, .channel closed => some (w, closed)
  | .request prompt, .answer (.responded choice) =>
    some (w.note i (.answered prompt choice), .responded choice)
  | .request prompt, .answer answer => some (w.note i (.failed prompt), answer)
  | .apply policy prompt choice, .host host =>
    w.engines[policy]?.map fun engine => w.applyApproval i policy engine host prompt choice
  | .report operation result, .go =>
    some ({ w with returned := ⟨operation, result, w.log i⟩ :: w.returned }, ())
  | _, _ => none

/-- A call begins. -/
def authorizeStart (w : AuthorizeWorld) (_task : Nat) (o : AuthorizeOperation) :
    Option (AuthorizeWorld × AuthorizeProg Unit) :=
  some (w, AgentEngine.call o.tools o.context o.toolName o.arguments)

/-- The calls of an agent over the policies of its sessions. -/
def authorizeSystem :
    TaskSystem AuthorizeWorld AuthorizeEffect AuthorizeEffect.Answer AuthorizeChoice String
      AuthorizeOperation where
  exec := authorizeExec
  -- A session is forgotten; a call of it goes on with the policy that it has.
  event w sessionId := some { w with policies := Function.update w.policies sessionId none }
  start := authorizeStart

end AxiomDesktop
