import AxiomDesktop.Policy.Effect

/-!
# The policy engine

`PolicyEngine`: an effect is normalized, checked against the hard denials, the configured rules,
the permission profile and the grants of the session, in that order
(`evaluateWithDefaults`); an approval adds a grant (`applyApproval`). The engine is made for one
workspace, so `roots` holds one path.
-/

namespace AxiomDesktop

/-! ## Paths -/

/-- The loop of `normalize_for_policy` from a path that does not exist, its components reversed:
it climbs to an ancestor that does, and puts the names it passed below where that leads. -/
def climb (fs : FileSystem) : List String → List String → Path
  | [], missing => missing
  | c :: rest, missing =>
    -- `file_name` and `parent` leave out single dots, and `..` has no file name.
    if c = "." then climb fs rest missing
    else
      let missing := if c = ".." then missing else c :: missing
      match fs.canonicalize (rest.dropWhile (· = ".")).reverse with
      | .ok ancestor => ancestor ++ missing
      | .error _ => climb fs rest missing

/-- `normalize_for_policy`. -/
def normalizeForPolicy (fs : FileSystem) (components : List String) : Path :=
  match fs.canonicalize components with
  | .ok path => path
  | .error _ => climb fs components.reverse []

/-- An absolute path through real directories, as a path text. -/
def Path.text (p : Path) : PathText := { absolute := true, components := p }

/-- The components of a path from the root, where a relative one starts at the workspace. -/
def absoluteIn (root : Path) (path : PathText) : List String :=
  if path.absolute then path.components else root ++ path.components

structure PolicyEngine where
  /-- The one path of `roots`. -/
  root : Path
  rules : List PolicyRule := []
  grants : List ScopedGrant := []
  deriving DecidableEq

/-- `normalize_rule`. -/
def normalizeRule (host : PolicyHost) (root : Path) (rule : PolicyRule) :
    Except AxiomError PolicyRule := do
  rule.validate
  match rule.resourcePrefix, rule.effect with
  | some resourcePrefix, some effectClass =>
    let normalized ←
      match effectClass with
      | .fileRead | .fileWrite | .fileDelete | .planWrite =>
        pure (normalizeForPolicy host.fs (absoluteIn root (.ofText resourcePrefix))).display
      | .network =>
        match host.parseUrl resourcePrefix with
        | .error error => .error (.config s!"invalid network policy prefix: {error}")
        | .ok url =>
          if (url.scheme ≠ "http" ∧ url.scheme ≠ "https") ∨ url.host.isNone then
            .error (.config "network policy prefixes require an http(s) URL")
          else pure url.text
      | .process | .toolUse | .repositoryMutation | .mcp | .scopeChange | .credentialAccess =>
        pure (Text.trim resourcePrefix)
    if normalized.isEmpty then
      .error (.config "normalized policy resource prefix cannot be empty")
    else pure { rule with resourcePrefix := some normalized }
  -- `validate` has refused a prefix without a class.
  | _, _ => pure rule

/-- `profile_default`. -/
def profileDefault (profile : PermissionProfile) (effect : Effect) : DecisionKind × String × Bool :=
  match profile, effect with
  | .none, _ => (.deny, "tools are disabled", false)
  | _, .toolUse _ .image =>
    (.allow, "image tool requires a vision-capable model and the native image service", false)
  | _, .toolUse _ .interaction => (.allow, "the user decides whether to answer", false)
  | .web, .toolUse _ .web | .web, .network _ => (.allow, "allowed by web-only profile", false)
  | .web, _ => (.deny, "web profile permits only web tools", false)
  | .observe, .toolUse _ .read | .observe, .fileRead _ | .observe, .mcp _ _ false =>
    (.allow, "allowed by read-only profile", false)
  | .observe, _ => (.deny, "observe profile permits only read tools", false)
  | .confirm, .toolUse _ _ => (.ask, "confirm profile requires approval for this tool", false)
  | .confirm, _ => (.allow, "tool invocation was confirmation-gated", false)
  | .fullAccess, _ => (.allow, "allowed by full-access profile", false)

/-- `suggested_prefix`. -/
def suggestedPrefix (host : PolicyHost) (effect : Effect) : Option ScopedGrant :=
  let scope (path : PathText) : Option ScopedGrant :=
    let isDir :=
      match host.fs.canonicalize path.components with
      | .ok p => host.fs.isDir p
      | .error _ => false
    if isDir then some (.filePrefix (.of effect) path)
    else if path.named = [] then none
    else some (.filePrefix (.of effect) { path with components := path.named.dropLast })
  match effect with
  | .fileRead path | .fileWrite path | .fileDelete path => scope path
  | .network url => (networkOrigin host url).map .networkOrigin
  | .mcp server _ sideEffecting => some (.mcpServer server sideEffecting)
  | _ => none

namespace PolicyEngine

/-- `PolicyEngine::for_workspace_with_rules`. -/
def forWorkspaceWithRules (host : PolicyHost) (root : Path) (rules : List PolicyRule) :
    Except AxiomError PolicyEngine := do
  let root ← (host.fs.canonicalize root).mapError .io
  let rules ← rules.mapM (normalizeRule host root)
  pure { root, rules }

variable (host : PolicyHost) (engine : PolicyEngine)

/-- `PolicyEngine::normalize_path`. -/
def normalizePath (path : PathText) : PathText :=
  (normalizeForPolicy host.fs (absoluteIn engine.root path)).text

/-- A name an effect carries, trimmed; it has to be there and free of NUL. -/
def normalizeName (name : String) (message : String) : Except AxiomError String :=
  let name := Text.trim name
  if name.isEmpty || hasNul name then .error (.permissionDenied message) else .ok name

/-- `PolicyEngine::normalize`. -/
def normalize : Effect → Except AxiomError Effect
  | .toolUse name access => do
    let name ← normalizeName name "tool name must be non-empty and NUL-free"
    pure (.toolUse name access)
  | .fileRead path => pure (.fileRead (engine.normalizePath host path))
  | .fileWrite path => pure (.fileWrite (engine.normalizePath host path))
  | .fileDelete path => pure (.fileDelete (engine.normalizePath host path))
  | .process program args shell cwd env =>
    let program := Text.trim program
    if program.isEmpty || hasNul program || args.any hasNul ||
        env.any (fun v => !isAllowedChildEnvKey v.1 || hasNul v.1 || hasNul v.2) then
      .error (.permissionDenied
        "process program/arguments/environment are invalid or not allowlisted")
    else
      let basename := normalizedExecutableName program
      pure (.process program args
        (shell || windowsScriptProgram program || invokesShell basename args)
        (engine.normalizePath host cwd) (dedupKeys none (env.mergeSort envLe)))
  | .repositoryMutation operation cwd => do
    let operation ← normalizeName operation
      "repository mutation must have a non-empty/NUL-free operation"
    pure (.repositoryMutation operation (engine.normalizePath host cwd))
  | .network url =>
    match host.parseUrl url with
    | .error error => .error (.permissionDenied s!"invalid network destination: {error}")
    | .ok parsed =>
      if (parsed.scheme ≠ "http" ∧ parsed.scheme ≠ "https") ∨ ¬ parsed.username.isEmpty ∨
          parsed.password.isSome ∨ parsed.host.isNone then
        .error (.permissionDenied
          "network destinations require an http(s) URL without embedded credentials")
      else pure (.network parsed.text)
  | .mcp server tool sideEffecting => do
    let server ← normalizeName server "MCP server and tool names must be non-empty/NUL-free"
    let tool ← normalizeName tool "MCP server and tool names must be non-empty/NUL-free"
    pure (.mcp server tool sideEffecting)
  | .scopeChange scope => do
    let scope ← normalizeName scope "scope changes must have a non-empty/NUL-free identity"
    pure (.scopeChange scope)
  | .credentialAccess service => do
    let service ← normalizeName service "credential service must be non-empty and NUL-free"
    pure (.credentialAccess service)
  | .planWrite path => pure (.planWrite (engine.normalizePath host path))

/-- The path lies in the workspace. -/
def contains (path : PathText) : Bool := path.startsWith engine.root.text

/-- The programs that are denied whatever is configured. -/
def privilegedPrograms : List String :=
  ["sudo", "doas", "su", "mount", "umount", "mkfs", "shutdown", "reboot", "poweroff"]

/-- `PolicyEngine::hard_denial`. -/
def hardDenial : Effect → Option String
  | .fileRead path | .fileWrite path | .fileDelete path =>
    if engine.contains path then none
    else some s!"{path.display} is outside authorized workspace roots"
  | .planWrite path =>
    if path.startsWith (engine.root ++ [".axiomcli", "plans"]).text then none
    else some s!"{path.display} is outside the dedicated plan artifact directory"
  | .process program _ _ cwd _ =>
    if engine.contains cwd = false then
      some s!"process cwd {cwd.display} is outside authorized workspace roots"
    else if privilegedPrograms.contains (normalizedExecutableName program) then
      some ("privileged/destructive program `" ++ program ++ "` is hard-denied")
    else none
  | .repositoryMutation _ cwd =>
    if engine.contains cwd then none
    else some s!"repository mutation cwd {cwd.display} is outside authorized workspace roots"
  | .credentialAccess _ =>
    some "credential/keychain access is unavailable in this early release and hard-denied"
  | .toolUse .. | .network _ | .mcp .. | .scopeChange _ => none

/-- The first rule of an action that matches. -/
def findRule (action : RuleAction) (effect : Effect) : Option PolicyRule :=
  engine.rules.find? fun rule => rule.matchesEffect effect && rule.action = action

/-- The profile is one whose denials no rule or grant lifts. -/
def restricted : PermissionProfile → Bool
  | .none | .web | .observe => true
  | .confirm | .fullAccess => false

/-- `PolicyEngine::evaluate_with_defaults`. -/
def evaluateWithDefaults (profile : PermissionProfile) (effect : Effect) (desktopMcp : Bool) :
    PolicyDecision :=
  match engine.normalize host effect with
  | .error error => ⟨.deny, error.message, effect, false⟩
  | .ok normalized =>
    match engine.hardDenial normalized with
    | some reason => ⟨.deny, reason, normalized, false⟩
    | none =>
      match engine.findRule .deny normalized with
      | some rule =>
        ⟨.deny, rule.reason.getD "denied by a configured policy rule", normalized, false⟩
      | none =>
        let (kind, explanation, grantable) := profileDefault profile normalized
        if restricted profile ∧ kind = .deny then ⟨kind, explanation, normalized, grantable⟩
        else
          match engine.findRule .ask normalized with
          | some rule =>
            ⟨.ask, rule.reason.getD "approval required by a configured policy rule", normalized,
              false⟩
          | none =>
            if engine.grants.any (·.matchesEffect host normalized) then
              ⟨.allow, "allowed by a narrow session grant", normalized, true⟩
            else if desktopMcp then ⟨.ask, "MCP requires approval", normalized, true⟩
            else ⟨kind, explanation, normalized, grantable⟩

/-- `PolicyEngine::evaluate`. -/
def evaluate (profile : PermissionProfile) (effect : Effect) : PolicyDecision :=
  engine.evaluateWithDefaults host profile effect false

/-- `PolicyEngine::evaluate_desktop_mcp`. -/
def evaluateDesktopMcp (effect : Effect) : PolicyDecision :=
  match effect with
  | .mcp .. => engine.evaluateWithDefaults host .confirm effect true
  | _ => ⟨.deny, "invalid MCP effect", effect, false⟩

/-- `PolicyEngine::ensure_grantable`. -/
def ensureGrantable (effect : Effect) : Except AxiomError Unit :=
  match engine.normalize host effect with
  | .error error => .error error
  | .ok normalized =>
    match engine.hardDenial normalized with
    | some reason => .error (.permissionDenied reason)
    | none =>
      if engine.rules.any (·.matchesEffect normalized) then
        .error (.permissionDenied
          "configured ask/deny rules cannot be overridden by a session grant")
      else .ok ()

/-- `PolicyEngine::apply_approval`: the grant it adds, if any. -/
def approvedGrant (request : ApprovalRequest) (choice : ApprovalChoice) :
    Except AxiomError (Option ScopedGrant) :=
  match choice with
  | .deny | .allowOnce => .ok none
  | .allowExactSession | .allowPrefixSession =>
    if request.allowSessionGrants = false then
      .error (.permissionDenied
        "this configured approval cannot be converted into a session grant")
    else
      match engine.ensureGrantable host request.effect with
      | .error error => .error error
      | .ok _ =>
        if choice = .allowExactSession then .ok (some (.exact request.effect))
        else
          match suggestedPrefix host request.effect with
          | some scope => .ok (some scope)
          | none =>
            .error (.permissionDenied "this operation has no safe predefined prefix scope")

/-- `PolicyEngine::apply_approval`: the engine after it. -/
def applyApproval (request : ApprovalRequest) (choice : ApprovalChoice) : PolicyEngine :=
  match engine.approvedGrant host request choice with
  | .ok (some grant) => { engine with grants := engine.grants ++ [grant] }
  | _ => engine

end PolicyEngine

end AxiomDesktop
