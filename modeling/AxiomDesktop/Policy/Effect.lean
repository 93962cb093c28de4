import AxiomDesktop.App.Event
import Mathlib.Order.Lattice

/-!
# Effects and policy rules

What a tool wants to do (`Effect`), the rules a user or a project restricts it with
(`PolicyRule`), and what a user granted for the session (`ScopedGrant`). What the policy takes from
outside is the file system and the URL parser (`PolicyHost`).
-/

namespace AxiomDesktop

/-- A path as a program names it: absolute, or relative to the workspace, with the components the
operating system reads in it. -/
abbrev PathText := LinkTarget

namespace PathText

/-- `Path::new`. -/
def ofText (text : PathBuf) : PathText :=
  { absolute := Text.startsWith "/" text, components := Path.components text }

/-- `Path::components`, which leaves out single dots. -/
def named (p : PathText) : List String := p.components.filter (· ≠ ".")

/-- `Path::starts_with`. -/
def startsWith (p base : PathText) : Bool :=
  p.absolute = base.absolute && base.named.isPrefixOf p.named

/-- `Path::display`. -/
def display (p : PathText) : String :=
  if p.absolute then Path.display p.components else "/".intercalate p.components

end PathText

/-- `reqwest::Url`, by what the policy reads of it. -/
structure Url where
  scheme : String
  username : String
  password : Option String
  host : Option String
  port : Option Nat
  /-- `to_string`, after `set_fragment(None)`. -/
  text : String

/-- What the policy takes from outside. -/
structure PolicyHost where
  fs : FileSystem
  /-- `reqwest::Url::parse`. -/
  parseUrl : String → Except String Url

inductive ToolAccess where
  | interaction
  | web
  | image
  | read
  | write
  deriving DecidableEq, Repr

inductive Effect where
  | toolUse (name : String) (access : ToolAccess)
  | fileRead (path : PathText)
  | fileWrite (path : PathText)
  | fileDelete (path : PathText)
  | process (program : String) (args : List String) (shell : Bool) (cwd : PathText)
      (env : List (String × String))
  | repositoryMutation (operation : String) (cwd : PathText)
  | network (url : String)
  | mcp (server tool : String) (sideEffecting : Bool)
  | scopeChange (scope : String)
  | credentialAccess (service : String)
  | planWrite (path : PathText)
  deriving DecidableEq

inductive EffectClass where
  | toolUse
  | fileRead
  | fileWrite
  | fileDelete
  | process
  | repositoryMutation
  | network
  | mcp
  | scopeChange
  | credentialAccess
  | planWrite
  deriving DecidableEq, Repr

/-- `EffectClass::of`. -/
def EffectClass.of : Effect → EffectClass
  | .toolUse .. => .toolUse
  | .fileRead .. => .fileRead
  | .fileWrite .. => .fileWrite
  | .fileDelete .. => .fileDelete
  | .process .. => .process
  | .repositoryMutation .. => .repositoryMutation
  | .network .. => .network
  | .mcp .. => .mcp
  | .scopeChange .. => .scopeChange
  | .credentialAccess .. => .credentialAccess
  | .planWrite .. => .planWrite

/-- `effect_path`. -/
def effectPath : Effect → Option PathText
  | .fileRead path | .fileWrite path | .fileDelete path | .planWrite path => some path
  | _ => none

/-- `effect_matches_prefix`. -/
def effectMatchesPrefix (effect : Effect) (text : String) : Bool :=
  match effect with
  | .toolUse name _ => Text.startsWith text name
  | .fileRead path | .fileWrite path | .fileDelete path | .planWrite path =>
    path.startsWith (.ofText text)
  | .process program _ _ _ _ => Text.startsWith text program
  | .repositoryMutation operation _ => Text.startsWith text operation
  | .network url => Text.startsWith text url
  | .mcp server tool _ => Text.startsWith text (server ++ "/" ++ tool)
  | .scopeChange scope => Text.startsWith text scope
  | .credentialAccess service => Text.startsWith text service

/-! ## Rules -/

inductive RuleAction where
  | ask
  | deny
  deriving DecidableEq, Repr

structure PolicyRule where
  action : RuleAction
  effect : Option EffectClass := none
  resourcePrefix : Option String := none
  reason : Option String := none
  deriving DecidableEq, Repr

/-- `value.contains('\0')`. -/
def hasNul (value : String) : Bool := value.toList.contains (Char.ofNat 0)

namespace PolicyRule

/-- `PolicyRule::validate`. -/
def validate (rule : PolicyRule) : Except AxiomError Unit :=
  if rule.resourcePrefix.any fun value => value.isEmpty || hasNul value then
    .error (.config "policy rule resource_prefix must be non-empty and contain no NUL")
  else if rule.reason.any fun value => Text.isBlank value || hasNul value then
    .error (.config "policy rule reason must be non-empty and contain no NUL")
  else if rule.resourcePrefix.isSome ∧ rule.effect.isNone then
    .error (.config "policy rules with resource_prefix must select an effect class")
  else .ok ()

/-- `PolicyRule::matches`. -/
def matchesEffect (rule : PolicyRule) (effect : Effect) : Bool :=
  rule.effect.all (· = EffectClass.of effect) &&
    rule.resourcePrefix.all (effectMatchesPrefix effect)

end PolicyRule

/-! ## Decisions and grants -/

inductive DecisionKind where
  | allow
  | ask
  | deny
  deriving DecidableEq, Repr

namespace DecisionKind

/-- How restrictive a decision is: allow, ask, deny. -/
def rank : DecisionKind → Nat
  | allow => 0
  | ask => 1
  | deny => 2

theorem rank_injective : Function.Injective rank := by
  intro a b h
  cases a <;> cases b <;> first | rfl | cases h

instance : LinearOrder DecisionKind := LinearOrder.lift' rank rank_injective

end DecisionKind

structure PolicyDecision where
  kind : DecisionKind
  explanation : String
  normalizedEffect : Effect
  /-- False for an explicit configured `ask`: such a rule stays an ask even after another operation
  was approved for the session. -/
  sessionGrantAllowed : Bool

inductive ApprovalChoice where
  | deny
  | allowOnce
  | allowExactSession
  | allowPrefixSession
  deriving DecidableEq, Repr

/-- An approval request, by what `apply_approval` reads of it. -/
structure ApprovalRequest where
  effect : Effect
  allowSessionGrants : Bool

inductive ScopedGrant where
  | exact (effect : Effect)
  | filePrefix (effectClass : EffectClass) (path : PathText)
  | networkOrigin (origin : String)
  | mcpServer (server : String) (sideEffecting : Bool)
  deriving DecidableEq

/-- `network_origin`. -/
def networkOrigin (host : PolicyHost) (url : String) : Option String :=
  match host.parseUrl url with
  | .error _ => none
  | .ok parsed =>
    parsed.host.map fun name =>
      parsed.scheme ++ "://" ++ name ++ (parsed.port.map fun n => s!":{n}").getD ""

/-- `ScopedGrant::matches`. -/
def ScopedGrant.matchesEffect (host : PolicyHost) (grant : ScopedGrant) (effect : Effect) : Bool :=
  match grant, effect with
  | .exact granted, requested => granted = requested
  | .filePrefix effectClass path, requested =>
    effectClass = EffectClass.of requested && (effectPath requested).any (·.startsWith path)
  | .networkOrigin origin, .network url => AxiomDesktop.networkOrigin host url = some origin
  | .mcpServer server sideEffecting, .mcp requested _ requestedSideEffecting =>
    server = requested && sideEffecting = requestedSideEffecting
  | _, _ => false

/-! ## Programs -/

/-- The characters `normalized_executable_name` drops at both ends of a program. -/
def isQuoting (c : Char) : Bool := ['\'', '"', '`', '&', '(', ')', ';', '|'].contains c

/-- What follows the last separator of a path, of either kind. -/
def basename (cs : List Char) : List Char :=
  (cs.reverse.takeWhile fun c => c ≠ '/' && c ≠ '\\').reverse

/-- `normalized_executable_name`. -/
def normalizedExecutableName (program : String) : String :=
  let trimmed := Text.dropWhileEnd isQuoting ((Text.trimChars program.toList).dropWhile isQuoting)
  let lowercase := (basename trimmed).map Char.toLower
  let stem := [".exe", ".com", ".cmd", ".bat"].findSome? fun suffix =>
    Text.stripSuffix suffix.toList lowercase
  String.ofList (stem.getD lowercase)

/-- `invokes_shell`. -/
def invokesShell (program : String) (args : List String) : Bool :=
  let lower (argument : String) := argument.toList.map Char.toLower
  if ["sh", "bash", "zsh", "fish", "dash"].contains program then
    (args.take 2).any fun argument => (lower argument).head? = some '-' && (lower argument).contains 'c'
  else if program = "cmd" then
    (args.take 2).any fun argument => ["/c", "/k"].contains (String.ofList (lower argument))
  else if program = "powershell" ∨ program = "pwsh" then
    args.any fun argument =>
      ["-c", "-command", "-ec", "-encodedcommand", "-f", "-file"].contains
        (String.ofList (lower argument))
  else false

/-- `windows_script_program`. -/
def windowsScriptProgram (program : String) : Bool :=
  let name := (basename (Text.trimChars program.toList)).map Char.toLower
  [".cmd", ".bat", ".ps1"].any fun extension => extension.toList.isSuffixOf name

/-- `is_allowed_child_env_key`. -/
def isAllowedChildEnvKey (key : String) : Bool :=
  ["CI", "RUST_BACKTRACE", "RUST_LOG", "NODE_ENV", "CARGO_TERM_COLOR", "NO_COLOR"].contains key

/-- The order of `sort` on the variables of an environment. -/
def envLe (a b : String × String) : Bool := a.1 < b.1 || (a.1 = b.1 && a.2 ≤ b.2)

/-- `dedup_by` on the keys, behind a key: of neighbours with one key the first stays. -/
def dedupKeys : Option String → List (String × String) → List (String × String)
  | _, [] => []
  | previous, a :: rest =>
    if previous = some a.1 then dedupKeys previous rest else a :: dedupKeys (some a.1) rest

end AxiomDesktop
