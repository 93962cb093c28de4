import AxiomDesktop.Auth.Manager

/-!
# Managers over one credential store

The processes that share the system credential store: managers with their locks, the tasks that run
their operations, and the writes that outlive the operation that began them (`LateWrite`). Each
effect of a task, each outcome of a late write and each new operation is a step of
`authSystem`, in any order.

The lock of a manager is an exclusive lock on the file its `credentialScope` names. A late write
keeps a clone of its task's handle, so that the file is locked until both are gone. A process that
is started again is a new manager; the old one takes no more operations.

What has happened is kept beside the state (`sent`, `issued`, `stored`, `changes`, `validations`,
`reports`) and read by no operation.
-/

namespace AxiomDesktop.Auth

/-! ## Where a credential is -/

structure Scope where
  /-- The account name of the keyring entry. -/
  entry : String
  lockPath : List String
  deriving DecidableEq, Repr

def KEYRING_ACCOUNT_PREFIX : String := "native-refresh-token-v1"

/-- A name of a staging profile. -/
def isProfileName (name : String) : Bool :=
  name ≠ "" && name.utf8ByteSize ≤ 48 &&
    name.toList.all fun c => c.isLower || c.isDigit || c = '-'

/-- `parts.windows(3).any(..)`. -/
def hasStagingProfile : List String → Bool
  | a :: b :: c :: rest =>
    (a = ".axiom-staging" && b = "profiles" && isProfileName c) || hasStagingProfile (b :: c :: rest)
  | _ => false

/-- `Path::parent`, of the components of a path, or the working directory. -/
def lockDirectory (clientIdPath : List String) : List String :=
  if clientIdPath = [] ∨ clientIdPath = ["/"] then ["."] else clientIdPath.dropLast

/-- `credential_scope`: `digest` is the encoded SHA-256 of a text, `debug` a build with debug
assertions. -/
def credentialScope (digest : String → String) (debug : Bool) (origin : String)
    (clientIdPath : List String) : Scope :=
  let namedStaging :=
    debug && origin = "https://api-staging.axiom.stream" && hasStagingProfile clientIdPath
  let scope := if namedStaging then origin ++ "\x00" ++ "/".intercalate clientIdPath else origin
  { entry := KEYRING_ACCOUNT_PREFIX ++ "-" ++ digest scope
    lockPath := lockDirectory clientIdPath ++ [".native-session-" ++ digest scope ++ ".lock"] }

/-! ## The state -/

/-- The store of a manager. -/
inductive Backend where
  | keyring
  | unavailable (detail : String)
  | environment
  deriving DecidableEq, Repr

/-- An access token that was committed in a generation, and the account of its bundle. -/
structure CommittedToken where
  generation : Nat
  token : String
  accountId : String
  deriving DecidableEq, Repr

structure Manager where
  scope : Scope
  backend : Backend := .keyring
  /-- `new_with_paths` has returned it. -/
  built : Bool := false
  state : AuthState := {}
  /-- The task that holds `operations`. -/
  operations : Option Nat := none
  committed : List CommittedToken := []

/-- A task's handle of a lock file, with what it has loaded since it has it. -/
structure Hold where
  path : List String
  seen : Option (Option String) := none
  deriving DecidableEq, Repr

/-- A write that the caller does not wait for any longer. -/
inductive LateWrite where
  | save (credential : String) (compared : Option String) (seen : Option (Option String))
  /-- A save that has landed is loaded again. -/
  | cleanup (credential : String)
  /-- It is there, and is deleted. -/
  | remove (credential : String)
  | delete (compared : Option String) (seen : Option (Option String))
  deriving DecidableEq, Repr

/-- A refresh token sent to the refresh endpoint. -/
structure Sent where
  token : String
  manager : Nat
  task : Nat
  deriving DecidableEq, Repr

/-- A write to the credential store that took effect, with the last value its manager had loaded in
the hold of its lock. -/
structure Change where
  manager : Nat
  entry : String
  before : Option String
  after : Option String
  read : Option (Option String)
  compared : Option String
  deriving DecidableEq, Repr

/-- A validation has published an account, or cleared the session, of a generation. -/
structure Validation where
  manager : Nat
  generation : Nat
  token : String
  deriving DecidableEq, Repr

/-- What a task has read last. -/
structure Marks where
  /-- The generation of the state the access token was read from. -/
  token : Option Nat := none
  /-- The generation `clear_if_generation` has compared. -/
  cleared : Option Nat := none
  /-- The generation of the state the expected refresh token was read from. -/
  expected : Option Nat := none
  /-- The access token presented to the session endpoint. -/
  presented : Option String := none
  deriving DecidableEq, Repr

structure World where
  /-- The entries of the system credential store. -/
  store : String → Option String := fun _ => none
  managers : Nat → Option Manager := fun _ => none
  nextManager : Nat := 0
  /-- The manager of a task. -/
  owner : Nat → Nat := fun _ => 0
  /-- The task whose handle locks a file. -/
  locks : List String → Option Nat := fun _ => none
  holds : Nat → Option Hold := fun _ => none
  late : Nat → Option LateWrite := fun _ => none
  sent : List Sent := []
  /-- The refresh tokens of the replies, with the task that got them. -/
  issued : List (String × Nat) := []
  /-- The values the store has held. -/
  stored : List String := []
  changes : List Change := []
  marks : Nat → Marks := fun _ => {}
  validations : List Validation := []
  reports : List (Nat × Report) := []

/-- What the environment chooses in an effect. -/
inductive Choice where
  | go
  | time (now : Nat)
  | cancelled
  | fail (detail : String)
  /-- A write lasts longer than its timeout. -/
  | late
  | refreshed (reply : RefreshReply)
  | exchanged (reply : Except AxiomError ExchangeResponse)
  | created (reply : Except AxiomError Unit)
  | session (reply : SessionReply)

namespace World

variable (w : World) (i : Nat)

def setManager (m : Nat) (manager : Manager) : World :=
  { w with managers := Function.update w.managers m (some manager) }

def setMarks (marks : Marks) : World := { w with marks := Function.update w.marks i marks }

/-- A validation is noted with the token it presented. -/
def note (manager : Nat) (generation : Option Nat) : World :=
  match (w.marks i).presented, generation with
  | some token, some generation =>
    { w with validations := ⟨manager, generation, token⟩ :: w.validations }
  | _, _ => w

/-- A critical section is noted. -/
def noteState (m : Nat) (state : AuthState) : StateOp → World
  | .read .token => w.setMarks i { w.marks i with token := some state.generation }
  | .read .clearedGeneration => w.setMarks i { w.marks i with cleared := some state.generation }
  | .read .expectedRefresh => w.setMarks i { w.marks i with expected := some state.generation }
  | .publishAccount generation account _ =>
    if state.mayPublish generation account then w.note i m (some state.generation) else w
  | .clearLocalAuthorization _ => w.note i m (some state.generation)
  | _ => w

/-- A bundle's access token is noted. -/
def commitToken (state : AuthState) (committed : List CommittedToken) :
    StateOp → List CommittedToken
  | .commitBundle bundle force previous =>
    ⟨(state.apply (.commitBundle bundle force previous)).generation, bundle.accessToken,
      bundle.account.id⟩ :: committed
  | _ => committed

/-- A critical section of a manager. -/
def enter (m : Nat) (manager : Manager) (op : StateOp) : World :=
  (w.noteState i m manager.state op).setManager m
    { manager with
      state := manager.state.apply op
      committed := commitToken manager.state manager.committed op }

/-- A value of the store is replaced. -/
def replace (m : Nat) (entry : String) (value compared : Option String)
    (seen : Option (Option String)) : World :=
  { w with
    store := Function.update w.store entry value
    stored := value.toList ++ w.stored
    changes := ⟨m, entry, w.store entry, value, seen, compared⟩ :: w.changes }

/-- The last value the task has loaded in its hold. -/
def seen : Option (Option String) := (w.holds i).bind (·.seen)

/-- A task takes the lock of a file. -/
def take (path : List String) : World :=
  { w with
    locks := Function.update w.locks path (some i)
    holds := Function.update w.holds i (some { path }) }

/-- A task has loaded a value. -/
def look (value : Option String) : World :=
  { w with
    holds := Function.update w.holds i
      ((w.holds i).map fun hold => { hold with seen := some value }) }

/-- A refresh token is sent. -/
def send (sent : Sent) : World := { w with sent := sent :: w.sent }

/-- What the task has loaded is not the stored value any longer. -/
def forget : World :=
  { w with holds := Function.update w.holds i ((w.holds i).map fun hold => { hold with seen := none }) }

/-- A write of the task that takes effect. -/
def put (m : Nat) (entry : String) (value compared : Option String) : World :=
  (w.replace m entry value compared (w.seen i)).forget i

def setLate (write : LateWrite) : World :=
  { w with late := Function.update w.late i (some write) }

/-- A write of the task that the task does not wait for. -/
def delay (write : LateWrite) : World := (w.setLate i write).forget i

/-- The handle of the task is dropped: the file is free, unless a late write holds it. -/
def release (path : List String) : World :=
  { w with
    holds := Function.update w.holds i none
    locks := if w.late i = none then Function.update w.locks path none else w.locks }

/-- A late write has ended: its clone of the handle is dropped. -/
def endLate (path : List String) : World :=
  { w with
    late := Function.update w.late i none
    locks := if w.holds i = none then Function.update w.locks path none else w.locks }

/-- The refresh token of a reply is noted. -/
def issue (tokens : Option TokenResponse) : World :=
  { w with issued := (tokens.map fun response => (response.refreshToken, i)).toList ++ w.issued }

end World

/-- The tokens of a reply to a refresh. -/
def RefreshReply.tokens : RefreshReply → Option TokenResponse
  | .response tokens => some tokens
  | _ => none

/-- The tokens of a reply to an exchange. -/
def exchangeTokens : Except AxiomError ExchangeResponse → Option TokenResponse
  | .ok response => response.tokens
  | .error _ => none

/-- What `new_with_paths` returns. -/
def Manager.finish (manager : Manager) (state : AuthState) (available : Bool) : Manager :=
  { manager with
    built := true
    state
    backend := if available then .keyring else .unavailable (state.unavailableDetail.getD "") }

/-- The errors of the stores that hold no credential. -/
def Backend.refusal : Backend → Option String
  | keyring => none
  | unavailable detail => some detail
  | environment => some "AXIOM_API_KEY is an environment-owned automation credential"

theorem Backend.refusal_none {backend : Backend} (h : backend.refusal = none) :
    backend = .keyring := by
  cases backend with
  | keyring => rfl
  | unavailable detail => cases h
  | environment => cases h

open World in
/-- An effect of a task of a manager. -/
def execIn (w : World) (i m : Nat) (manager : Manager) :
    (e : Effect) → Choice → Option (World × e.Answer)
  | .now, .time now => some (w, now)
  | .state op, .go =>
    if manager.built then some (w.enter i m manager op, manager.state) else none
  | .lockOperations _, .go =>
    if manager.operations = none then
      some (w.setManager m { manager with operations := some i }, true)
    else none
  | .lockOperations true, .cancelled => some (w, false)
  | .unlockOperations, .go => some (w.setManager m { manager with operations := none }, ())
  | .lock, .go =>
    if w.locks manager.scope.lockPath = none then
      some (w.take i manager.scope.lockPath, .ok ())
    else none
  | .lock, .fail detail => some (w, .error detail)
  | .unlock, .go => some (w.release i manager.scope.lockPath, ())
  | .load, .go =>
    match manager.backend with
    | .keyring =>
      some (w.look i (w.store manager.scope.entry), .ok (w.store manager.scope.entry))
    | .unavailable detail => some (w, .error detail)
    | .environment => some (w, .ok none)
  | .load, .fail detail => some (w, .error detail)
  | .save credential compared, .go =>
    match manager.backend.refusal with
    | none => some (w.put i m manager.scope.entry (some credential) compared, .ok)
    | some detail => some (w, .error detail)
  | .save _ _, .fail detail => some (w, .error detail)
  | .save credential compared, .late =>
    if manager.backend = .keyring then
      some (w.delay i (.save credential compared (w.seen i)), .timedOut)
    else none
  | .delete compared, .go =>
    match manager.backend.refusal with
    | none => some ((w.note i m (w.marks i).expected).put i m manager.scope.entry none compared, .ok)
    | some detail => some (w, .error detail)
  | .delete _, .fail detail => some (w, .error detail)
  | .delete compared, .late =>
    if manager.backend = .keyring then
      some ((w.note i m (w.marks i).expected).delay i (.delete compared (w.seen i)), .timedOut)
    else none
  | .deleteNow compared, .go =>
    match manager.backend.refusal with
    | none => some (w.put i m manager.scope.entry none compared, .ok ())
    | some detail => some (w, .error detail)
  | .deleteNow _, .fail detail => some (w, .error detail)
  | .refresh token, .refreshed reply =>
    some ((w.send ⟨token, m, i⟩).issue i reply.tokens, reply)
  | .exchange, .exchanged reply => some (w.issue i (exchangeTokens reply), reply)
  | .createAuthorization, .created reply => some (w, reply)
  | .session token, .session reply =>
    some (w.setMarks i { w.marks i with presented := some token }, reply)
  | .revoke _, .go => some (w, ())
  | .build state available, .go =>
    if manager.built = false ∧ manager.backend ≠ .environment then
      some (w.setManager m (manager.finish state available), ())
    else none
  | .report report, .go => some ({ w with reports := (i, report) :: w.reports }, ())
  | _, _ => none

/-- An effect of a task. -/
def exec (w : World) (i : Nat) (e : Effect) (choice : Choice) : Option (World × e.Answer) :=
  match w.managers (w.owner i) with
  | some manager => execIn w i (w.owner i) manager e choice
  | none => none

/-! ## What an effect does -/

/-- The ends of an effect of a task. -/
inductive Executed (w : World) (i m : Nat) (manager : Manager) :
    (e : Effect) → Choice → World → e.Answer → Prop where
  | now (now : Nat) : Executed w i m manager .now (.time now) w now
  | state (op : StateOp) (hbuilt : manager.built = true) :
    Executed w i m manager (.state op) .go (w.enter i m manager op) manager.state
  | lockOperations (cancellable : Bool) (hfree : manager.operations = none) :
    Executed w i m manager (.lockOperations cancellable) .go
      (w.setManager m { manager with operations := some i }) true
  | lockCancelled : Executed w i m manager (.lockOperations true) .cancelled w false
  | unlockOperations :
    Executed w i m manager .unlockOperations .go
      (w.setManager m { manager with operations := none }) ()
  | lock (hfree : w.locks manager.scope.lockPath = none) :
    Executed w i m manager .lock .go (w.take i manager.scope.lockPath) (.ok ())
  | lockFailed (detail : String) : Executed w i m manager .lock (.fail detail) w (.error detail)
  | unlock : Executed w i m manager .unlock .go (w.release i manager.scope.lockPath) ()
  | load (hbackend : manager.backend = .keyring) :
    Executed w i m manager .load .go (w.look i (w.store manager.scope.entry))
      (.ok (w.store manager.scope.entry))
  | loadNothing (hbackend : manager.backend = .environment) :
    Executed w i m manager .load .go w (.ok none)
  | loadFailed (choice : Choice) (detail : String)
      (hfailed : choice = .fail detail ∨ manager.backend = .unavailable detail) :
    Executed w i m manager .load choice w (.error detail)
  | save (credential : String) (compared : Option String) (hbackend : manager.backend = .keyring) :
    Executed w i m manager (.save credential compared) .go
      (w.put i m manager.scope.entry (some credential) compared) .ok
  | saveFailed (credential : String) (compared : Option String) (choice : Choice) (detail : String)
      (hfailed : choice = .fail detail ∨ manager.backend.refusal = some detail) :
    Executed w i m manager (.save credential compared) choice w (.error detail)
  | saveLate (credential : String) (compared : Option String)
      (hbackend : manager.backend = .keyring) :
    Executed w i m manager (.save credential compared) .late
      (w.delay i (.save credential compared (w.seen i))) .timedOut
  | delete (compared : Option String) (hbackend : manager.backend = .keyring) :
    Executed w i m manager (.delete compared) .go
      ((w.note i m (w.marks i).expected).put i m manager.scope.entry none compared) .ok
  | deleteFailed (compared : Option String) (choice : Choice) (detail : String)
      (hfailed : choice = .fail detail ∨ manager.backend.refusal = some detail) :
    Executed w i m manager (.delete compared) choice w (.error detail)
  | deleteLate (compared : Option String) (hbackend : manager.backend = .keyring) :
    Executed w i m manager (.delete compared) .late
      ((w.note i m (w.marks i).expected).delay i (.delete compared (w.seen i))) .timedOut
  | deleteNow (compared : Option String) (hbackend : manager.backend = .keyring) :
    Executed w i m manager (.deleteNow compared) .go
      (w.put i m manager.scope.entry none compared) (.ok ())
  | deleteNowFailed (compared : Option String) (choice : Choice) (detail : String)
      (hfailed : choice = .fail detail ∨ manager.backend.refusal = some detail) :
    Executed w i m manager (.deleteNow compared) choice w (.error detail)
  | refresh (token : String) (reply : RefreshReply) :
    Executed w i m manager (.refresh token) (.refreshed reply)
      ((w.send ⟨token, m, i⟩).issue i reply.tokens) reply
  | exchange (reply : Except AxiomError ExchangeResponse) :
    Executed w i m manager .exchange (.exchanged reply) (w.issue i (exchangeTokens reply)) reply
  | createAuthorization (reply : Except AxiomError Unit) :
    Executed w i m manager .createAuthorization (.created reply) w reply
  | session (token : String) (reply : SessionReply) :
    Executed w i m manager (.session token) (.session reply)
      (w.setMarks i { w.marks i with presented := some token }) reply
  | revoke (token : String) : Executed w i m manager (.revoke token) .go w ()
  | build (state : AuthState) (available : Bool)
      (hbuilt : manager.built = false ∧ manager.backend ≠ .environment) :
    Executed w i m manager (.build state available) .go
      (w.setManager m (manager.finish state available)) ()
  | report (report : Report) :
    Executed w i m manager (.report report) .go
      { w with reports := (i, report) :: w.reports } ()

/-- **What an effect of a task does.** -/
theorem exec_executed {w w' : World} {i : Nat} {e : Effect} {choice : Choice} {r : e.Answer}
    (h : exec w i e choice = some (w', r)) :
    ∃ manager, w.managers (w.owner i) = some manager ∧
      Executed w i (w.owner i) manager e choice w' r := by
  unfold exec at h
  split at h
  · next manager hmanager =>
    refine ⟨manager, hmanager, ?_⟩
    unfold execIn at h
    split at h
    -- the effects with a condition
    case h_2 | h_3 | h_6 | h_13 | h_16 | h_24 =>
      split at h
      · cases h
        constructor
        assumption
      · cases h
    -- a load, by the backend
    case h_9 =>
      split at h
      · cases h
        exact .load ‹_›
      · cases h
        exact .loadFailed _ _ (.inr ‹_›)
      · cases h
        exact .loadNothing ‹_›
    -- a write, by the backend
    case h_11 | h_14 | h_17 =>
      split at h
      · cases h
        constructor
        exact Backend.refusal_none ‹_›
      · cases h
        constructor
        exact .inr ‹_›
    -- a failure
    case h_10 | h_12 | h_15 | h_18 =>
      cases h
      constructor
      exact .inl rfl
    -- what cannot happen
    case h_26 => cases h
    all_goals
      cases h
      constructor
  · cases h

/-! ## Late writes -/

/-- What becomes of a late write. -/
inductive LateOutcome where
  | landed
  /-- It fails, or its process has ended before it lands. -/
  | failed
  /-- The process has ended before it cleaned up. -/
  | abandoned
  deriving DecidableEq, Repr

/-- A late write of a task goes on. -/
def lateEvent (w : World) (i m : Nat) (manager : Manager) : LateWrite → LateOutcome → Option World
  | .save credential compared seen, .landed =>
    some ((w.replace m manager.scope.entry (some credential) compared seen).setLate i
      (.cleanup credential))
  | .save _ _ _, .failed => some (w.endLate i manager.scope.lockPath)
  | .cleanup credential, .landed =>
    if w.store manager.scope.entry = some credential then
      some (w.setLate i (.remove credential))
    else some (w.endLate i manager.scope.lockPath)
  | .cleanup _, .failed | .cleanup _, .abandoned => some (w.endLate i manager.scope.lockPath)
  | .remove credential, .landed =>
    some ((w.replace m manager.scope.entry none (some credential) (some (some credential))).endLate i
      manager.scope.lockPath)
  | .remove _, .failed => some (w.endLate i manager.scope.lockPath)
  | .delete compared seen, .landed =>
    some ((w.replace m manager.scope.entry none compared seen).endLate i manager.scope.lockPath)
  | .delete _ _, .failed => some (w.endLate i manager.scope.lockPath)
  | _, _ => none

/-- An outcome of the late write of a task. -/
structure LateStep where
  task : Nat
  outcome : LateOutcome
  deriving DecidableEq, Repr

def lateStep (w : World) (step : LateStep) : Option World :=
  match w.late step.task, w.managers (w.owner step.task) with
  | some write, some manager =>
    lateEvent w step.task (w.owner step.task) manager write step.outcome
  | _, _ => none

/-- The ends of a step of a late write. -/
inductive LateMoved (w : World) (i m : Nat) (manager : Manager) :
    LateWrite → LateOutcome → World → Prop where
  | saved (credential : String) (compared : Option String) (seen : Option (Option String)) :
    LateMoved w i m manager (.save credential compared seen) .landed
      ((w.replace m manager.scope.entry (some credential) compared seen).setLate i
        (.cleanup credential))
  | found (credential : String) (hstore : w.store manager.scope.entry = some credential) :
    LateMoved w i m manager (.cleanup credential) .landed (w.setLate i (.remove credential))
  | lost (credential : String) (hstore : w.store manager.scope.entry ≠ some credential) :
    LateMoved w i m manager (.cleanup credential) .landed (w.endLate i manager.scope.lockPath)
  | removed (credential : String) :
    LateMoved w i m manager (.remove credential) .landed
      ((w.replace m manager.scope.entry none (some credential) (some (some credential))).endLate i
        manager.scope.lockPath)
  | deleted (compared : Option String) (seen : Option (Option String)) :
    LateMoved w i m manager (.delete compared seen) .landed
      ((w.replace m manager.scope.entry none compared seen).endLate i manager.scope.lockPath)
  | dropped (write : LateWrite) :
    LateMoved w i m manager write .failed (w.endLate i manager.scope.lockPath)
  | abandoned (credential : String) :
    LateMoved w i m manager (.cleanup credential) .abandoned (w.endLate i manager.scope.lockPath)

/-- **What a step of a late write does.** -/
theorem lateStep_moved {w w' : World} {step : LateStep} (h : lateStep w step = some w') :
    ∃ write manager, w.late step.task = some write ∧
      w.managers (w.owner step.task) = some manager ∧
      LateMoved w step.task (w.owner step.task) manager write step.outcome w' := by
  unfold lateStep at h
  split at h
  · next write manager hwrite hmanager =>
    refine ⟨write, manager, hwrite, hmanager, ?_⟩
    generalize step.outcome = outcome at h
    unfold lateEvent at h
    split at h
    -- a save that has landed is loaded again
    case h_3 =>
      split at h
      · cases h
        exact .found _ ‹_›
      · cases h
        exact .lost _ ‹_›
    case h_10 => cases h
    all_goals
      cases h
      constructor
  · cases h

/-! ## Operations -/

/-- What a manager is asked for. -/
inductive Call where
  | accessToken (minimumRemaining : Nat)
  | accountOperation
  | validate
  | startNativeLogin
  | pollExchange (authGeneration : Nat)
  | logout
  deriving DecidableEq, Repr

inductive AuthOperation where
  /-- `new_with_paths`. -/
  | build (origin : String) (clientIdPath : List String)
  /-- `new_with_paths`, with an automation key. -/
  | buildEnvironment (key origin : String) (clientIdPath : List String)
  | call (manager : Nat) (call : Call)
  deriving DecidableEq, Repr

open AuthManager in
/-- The program of a call. -/
def Call.program (env : AuthEnvironment) : Call → Operation Unit
  | accessToken minimumRemaining => do
    let result ← AuthManager.accessToken env minimumRemaining
    ask (.report (.accessToken result))
  | accountOperation => do
    let result ← accessTokenForAccountOperation env
    ask (.report (.accountOperation result))
  | validate => do
    let status ← validateWithRevision env
    ask (.report (.validation status))
  | startNativeLogin => do
    let result ← AuthManager.startNativeLogin
    ask (.report (.loginStarted result))
  | pollExchange authGeneration => do
    let result ← AuthManager.pollExchange env authGeneration
    ask (.report (.login result))
  | logout => do
    let result ← logoutWithCancellation env
    ask (.report (.logout result))

/-- What managers take from their environment. -/
structure SystemEnvironment where
  auth : AuthEnvironment
  digest : String → String
  debug : Bool

namespace World

variable (w : World)

/-- A new manager, and the task that builds it. -/
def addManager (task : Nat) (manager : Manager) : World :=
  { w.setManager w.nextManager manager with
    nextManager := w.nextManager + 1
    owner := Function.update w.owner task w.nextManager }

end World

/-- An operation begins. -/
def start (env : SystemEnvironment) (w : World) (task : Nat) :
    AuthOperation → Option (World × Operation Unit)
  | .build origin clientIdPath =>
    some (w.addManager task { scope := credentialScope env.digest env.debug origin clientIdPath },
      AuthManager.newWithPaths)
  | .buildEnvironment key origin clientIdPath =>
    some (w.addManager task
      { scope := credentialScope env.digest env.debug origin clientIdPath
        backend := .environment
        built := true
        state := { automationKey := some key, source := .environment } }, .ret ())
  | .call m call =>
    match w.managers m with
    | some manager =>
      if manager.built then
        some ({ w with owner := Function.update w.owner task m }, call.program env.auth)
      else none
    | none => none

/-- The managers over the credential store. -/
def authSystem (env : SystemEnvironment) :
    TaskSystem World Effect Effect.Answer Choice LateStep AuthOperation where
  exec := exec
  event := lateStep
  start := start env

end AxiomDesktop.Auth
