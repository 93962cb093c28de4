import AxiomDesktop.App.Event
import AxiomDesktop.Lib.Machine
import Mathlib.Logic.Function.Basic

/-!
# Switching the account

`AccountWorkTracker`, the generation-bound `SessionStore` handles, and the tasks that use them. A
function here is what one critical section computes from the state its lock protects; a task is at
a `SwitchPhase`, and each of its steps is one such section. An interleaving of the tasks is a list
of steps (`AccountSystem.machine`).

A `CancellationToken` is a number, a `Uuid` of a guard is a number from a supply, and a database
connection is told from a later one to the same file by the number of its activation.
-/

namespace AxiomDesktop

/-- A `CancellationToken`. -/
abbrev Token := Nat

/-- The id of an `AccountWorkGuard`. -/
abbrev GuardId := Nat

abbrev AccountId := String

/-! ## The tracker -/

structure AccountWorkState where
  switching : Bool := false
  switchExcluded : Option GuardId := none
  active : List (GuardId × Token) := []
  deriving DecidableEq, Repr

namespace AccountWorkState

variable (state : AccountWorkState)

/-- `AccountWorkTracker::register`. -/
def register (id : GuardId) (cancellation : Token) : Except AxiomError AccountWorkState :=
  if state.switching then
    .error (.invalidTransition "the Axiom account is changing; retry after account status settles")
  else .ok { state with active := state.active ++ [(id, cancellation)] }

/-- `Drop` of an `AccountWorkGuard`. -/
def remove (id : GuardId) : AccountWorkState :=
  { state with active := state.active.filter (·.1 ≠ id) }

/-- The section of `AccountWorkTracker::start_switch`, with the tokens it cancels afterwards. -/
def startSwitch (excluding : Option GuardId) :
    Except AxiomError (AccountWorkState × List Token) :=
  if state.switching then
    .error (.invalidTransition "an Axiom account transition is already in progress")
  else
    .ok ({ state with switching := true, switchExcluded := excluding },
      (state.active.filter fun entry => some entry.1 ≠ excluding).map (·.2))

/-- What `AccountWorkTracker::drain_switch` waits for. -/
def drained : Bool := state.active.all fun entry => some entry.1 = state.switchExcluded

/-- `AccountWorkTracker::finish_switch`. -/
def finishSwitch : AccountWorkState := { state with switching := false, switchExcluded := none }

end AccountWorkState

/-! ## The store -/

/-- An open database: the account it is of, if it is not of a fixed path, and the number of the
activation that made it the store's. -/
structure Connection where
  account : Option AccountId
  activation : Nat
  deriving DecidableEq, Repr

structure StoreState where
  connection : Option Connection := none
  accountId : Option AccountId := none
  generation : Nat := 0
  deriving DecidableEq, Repr

structure StoreBinding where
  generation : Nat
  accountId : Option AccountId
  deriving DecidableEq, Repr

/-- A handle on the store; `routed` says that the path follows the account. -/
structure SessionStore where
  routed : Bool := true
  binding : Option StoreBinding := none
  deriving DecidableEq, Repr

def bindingMatches (binding : Option StoreBinding) (state : StoreState) : Bool :=
  match binding with
  | none => true
  | some binding => binding.generation = state.generation && binding.accountId = state.accountId

def advanceStoreGeneration (state : StoreState) : Except AxiomError StoreState :=
  if state.generation + 1 < 2 ^ 64 then .ok { state with generation := state.generation + 1 }
  else .error (.storage "account store generation overflowed")

def staleAccountBinding : AxiomError :=
  .invalidTransition "account-scoped local store changed while the operation was pending"

def boundStoreSwitch : AxiomError :=
  .invalidTransition "an account-bound local store handle cannot change the active account"

def authenticationRequired : AxiomError :=
  .invalidTransition "authentication required; no account-scoped local store is active"

namespace SessionStore

variable (store : SessionStore) (state : StoreState)

/-- `SessionStore::lock`, through which every method reaches the database. -/
def lock : Except AxiomError Connection :=
  if bindingMatches store.binding state = false then .error staleAccountBinding
  else
    match state.connection with
    | none => .error authenticationRequired
    | some connection => .ok connection

/-- `ensure_active_account_binding`. -/
def ensureActiveAccountBinding : Except AxiomError Unit := do
  let _ ← store.lock state
  pure ()

/-- `bind_active_account`. -/
def bindActiveAccount : Except AxiomError SessionStore :=
  if store.binding.isSome then do
    store.ensureActiveAccountBinding state
    pure store
  else if state.connection.isNone || (store.routed && state.accountId.isNone) then
    .error authenticationRequired
  else .ok { store with binding := some ⟨state.generation, state.accountId⟩ }

/-- The first section of `activate_account`: nothing is left to do, or the old database is
closed. -/
def beginActivation (account : AccountId) : Except AxiomError (Option StoreState) :=
  if store.binding.isSome then .error boundStoreSwitch
  else if store.routed = false then
    .error (.invalidTransition "this local store is not account-routed")
  else if state.accountId = some account && state.connection.isSome then .ok none
  else do
    let state ← advanceStoreGeneration state
    pure (some { state with connection := none, accountId := none })

/-- `deactivate_account`. -/
def deactivateAccount : Except AxiomError StoreState :=
  if store.binding.isSome then .error boundStoreSwitch
  else do
    let state ← advanceStoreGeneration state
    pure { state with connection := none, accountId := none }

end SessionStore

/-- The last section of `activate_account`, with the connection that was opened. -/
def StoreState.endActivation (state : StoreState) (account : AccountId)
    (connection : Connection) : StoreState :=
  { state with connection := some connection, accountId := some account }

/-! ## The tasks -/

/-- An `AccountStoreWork`. The connection that was open when the store was bound is not part of
it: no section reads it. -/
structure AccountStoreWork where
  store : SessionStore
  cancellation : Token
  guard : GuardId
  boundBeside : Option Connection
  deriving DecidableEq, Repr

/-- What `begin_account_switch` and `commit_account_store_switch` are called with. -/
structure AccountSwitch where
  store : Option SessionStore
  account : Option AccountId
  excludingTask : Option GuardId := none
  deriving DecidableEq, Repr

/-- How far a task has come: the name says what was done last. -/
inductive SwitchPhase where
  | idle
  /-- `register_store`: the guard is taken. -/
  | registered (store : SessionStore) (guard : GuardId) (cancellation : Token)
  /-- `register_store`: the store is bound. -/
  | bound (work : AccountStoreWork)
  /-- `read` or `mutate`: the work was not cancelled. -/
  | entered (work : AccountStoreWork)
  /-- `read` or `mutate`: the operation runs. -/
  | operating (work : AccountStoreWork)
  /-- `read` or `mutate`: the work was not cancelled after the operation. -/
  | operated (work : AccountStoreWork)
  /-- `publish`: the tracker is locked and its state checked. -/
  | checked (work : AccountStoreWork)
  /-- `publish`: the closure runs. -/
  | publishing (work : AccountStoreWork)
  /-- `begin_account_switch`: the registry is marked. -/
  | marked (switch : AccountSwitch)
  /-- `begin_account_switch`: `start_switch` failed. -/
  | refused
  /-- `start_switch`: its section has run, these tokens are still to be cancelled. -/
  | cancelling (tokens : List Token) (switch : AccountSwitch)
  /-- `begin_account_switch` returned. -/
  | started (switch : AccountSwitch)
  /-- `commit_account_store_switch`: the previous work is drained. -/
  | drained (switch : AccountSwitch)
  /-- `activate_account`: the old database is closed. -/
  | closed (account : AccountId)
  /-- `activate_account`: the new database is open. -/
  | opened (account : AccountId)
  /-- `commit_account_store_switch`: the store is done. -/
  | switched
  /-- `finish_account_switch`: the registry is unmarked. -/
  | unmarked
  /-- The task ended between the beginning and the end of a switch. -/
  | abandoned
  deriving DecidableEq, Repr

/-- What the tasks share, and their phases. -/
structure AccountSystem (Task : Type*) where
  /-- `account_switching` of the session registry. -/
  accountSwitching : Bool := false
  tracker : AccountWorkState := {}
  /-- The task that keeps the tracker's mutex from one step to the next. -/
  trackerOwner : Option Task := none
  store : StoreState := {}
  /-- The task that keeps the store's `switch` mutex. -/
  switchOwner : Option Task := none
  cancelled : List Token := []
  /-- The works that `register_store` returned. -/
  works : List AccountStoreWork := []
  guards : GuardId := 0
  activations : Nat := 0
  phase : Task → SwitchPhase := fun _ => .idle

/-- What a task does next: it starts something, or goes on from where it is. The tokens of session
works, which a switch cancels as well, are cancelled by `cancel`. -/
inductive TaskStep where
  | register (store : SessionStore) (cancellation : Token)
  /-- `read` or `mutate`. -/
  | operate (work : AccountStoreWork)
  | publish (work : AccountStoreWork)
  | switchAccount (switch : AccountSwitch)
  | cancel (token : Token)
  | dropGuard (guard : GuardId)
  | proceed
  /-- A time-out, a file system error, or the error of a closure. -/
  | fail
  deriving DecidableEq, Repr

namespace AccountSystem

variable {Task : Type*} [DecidableEq Task] (s : AccountSystem Task) (t : Task)

/-- The task comes to a phase. -/
def moveTo (phase : SwitchPhase) : AccountSystem Task :=
  { s with phase := Function.update s.phase t phase }

/-- The two halves of `ensure_current`. -/
def isCancelled (work : AccountStoreWork) : Bool := s.cancelled.contains work.cancellation

def isBound (work : AccountStoreWork) : Bool :=
  (work.store.ensureActiveAccountBinding s.store).toBool

/-- The section of `register`, in an idle task. -/
def register (store : SessionStore) (cancellation : Token) : AccountSystem Task :=
  match s.tracker.register s.guards cancellation with
  | .error _ => s
  | .ok tracker =>
    { s with tracker, guards := s.guards + 1 }.moveTo t (.registered store s.guards cancellation)

/-- The section of `publish` up to the binding. -/
def publish (work : AccountStoreWork) : AccountSystem Task :=
  if s.tracker.switching || !(s.tracker.active.any (·.1 = work.guard)) || s.isCancelled work then s
  else { s with trackerOwner := some t }.moveTo t (.checked work)

/-- The registry's section of `begin_account_switch`. -/
def switchAccount (switch : AccountSwitch) : AccountSystem Task :=
  if s.accountSwitching then s
  else { s with accountSwitching := true }.moveTo t (.marked switch)

/-- The section of `start_switch`. -/
def startSwitch (switch : AccountSwitch) : AccountSystem Task :=
  match s.tracker.startSwitch switch.excludingTask with
  | .error _ => s.moveTo t .refused
  | .ok (tracker, tokens) => { s with tracker }.moveTo t (.cancelling tokens switch)

/-- `commit_account_store_switch` once the work is drained: the section of `deactivate_account`, or
the first of `activate_account`. -/
def changeStore (switch : AccountSwitch) : AccountSystem Task :=
  match switch.store, switch.account with
  | none, _ => s.moveTo t .switched
  | some store, none =>
    match store.deactivateAccount s.store with
    | .error _ => s.moveTo t .switched
    | .ok state => { s with store := state }.moveTo t .switched
  | some store, some account =>
    match store.beginActivation s.store account with
    | .error _ | .ok none => s.moveTo t .switched
    | .ok (some state) => { s with store := state, switchOwner := some t }.moveTo t (.closed account)

/-- The next section of the task. A section waits for its mutex, and `drain_switch` for the last
guard. -/
def proceed : AccountSystem Task :=
  match s.phase t with
  | .registered store guard cancellation =>
    match store.bindActiveAccount s.store with
    | .error _ => s.moveTo t .idle
    | .ok store => s.moveTo t (.bound ⟨store, cancellation, guard, s.store.connection⟩)
  | .bound work =>
    if s.isCancelled work then s.moveTo t .idle
    else { s with works := s.works ++ [work] }.moveTo t .idle
  | .entered work => s.moveTo t (if s.isBound work then .operating work else .idle)
  | .operating work => s.moveTo t (if s.isCancelled work then .idle else .operated work)
  | .operated _ => s.moveTo t .idle
  | .checked work =>
    if s.isBound work then s.moveTo t (.publishing work)
    else { s with trackerOwner := none }.moveTo t .idle
  | .publishing _ => { s with trackerOwner := none }.moveTo t .idle
  | .marked switch => if s.trackerOwner.isSome then s else s.startSwitch t switch
  | .refused => { s with accountSwitching := false }.moveTo t .idle
  | .cancelling [] switch => s.moveTo t (.started switch)
  | .cancelling (token :: tokens) switch =>
    { s with cancelled := token :: s.cancelled }.moveTo t (.cancelling tokens switch)
  | .started switch =>
    if s.trackerOwner.isSome || !s.tracker.drained then s else s.moveTo t (.drained switch)
  | .drained switch => if s.switchOwner.isSome then s else s.changeStore t switch
  | .closed account => s.moveTo t (.opened account)
  | .opened account =>
    { s with
        store := s.store.endActivation account ⟨some account, s.activations⟩
        activations := s.activations + 1
        switchOwner := none }.moveTo t .switched
  | .switched => { s with accountSwitching := false }.moveTo t .unmarked
  | .unmarked =>
    if s.trackerOwner.isSome then s
    else { s with tracker := s.tracker.finishSwitch }.moveTo t .idle
  | .idle | .abandoned => s

/-- The task meets an error that is not the work of a section. -/
def fail : AccountSystem Task :=
  match s.phase t with
  | .operating _ => s.moveTo t .idle
  | .publishing _ => { s with trackerOwner := none }.moveTo t .idle
  | .started _ => s.moveTo t .abandoned
  | .closed _ => { s with switchOwner := none }.moveTo t .switched
  | _ => s

/-- One step of a task. -/
def step : TaskStep → AccountSystem Task
  | .register store cancellation =>
    if s.phase t = .idle ∧ s.trackerOwner = none then s.register t store cancellation else s
  | .operate work =>
    if s.phase t = .idle ∧ work ∈ s.works ∧ s.isCancelled work = false then
      s.moveTo t (.entered work)
    else s
  | .publish work =>
    if s.phase t = .idle ∧ work ∈ s.works ∧ s.trackerOwner = none then s.publish t work else s
  | .switchAccount switch => if s.phase t = .idle then s.switchAccount t switch else s
  | .cancel token => { s with cancelled := token :: s.cancelled }
  | .dropGuard guard =>
    if s.trackerOwner = none then { s with tracker := s.tracker.remove guard } else s
  | .proceed => s.proceed t
  | .fail => s.fail t

/-- The interleavings of the tasks. -/
def machine : Machine (AccountSystem Task) (Task × TaskStep) Empty where
  step s action := (s.step action.1 action.2, [])

/-- The system at the beginning: no task has done anything, and the store is signed out or has a
database open. -/
def start (store : StoreState) : AccountSystem Task :=
  { store, activations := (store.connection.map (·.activation + 1)).getD 0 }

end AccountSystem

end AxiomDesktop
