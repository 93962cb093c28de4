import AxiomDesktop.Lib.Machine
import AxiomDesktop.Session.Collections
import AxiomDesktop.Session.Events
import AxiomDesktop.Session.Queries

/-!
# The store as a machine

`store` runs the operations that write the threads of a store, each as the transaction it is: an
operation that fails leaves the tables. What a call takes from outside, its random identifiers and
readings of the clock, comes with the operation.
-/

namespace AxiomDesktop.Store

/-- The operations of `SessionStore` that write threads. -/
inductive Write where
  | appendBatch (envelopes : List EventEnvelope) (clientItemId : Option String)
      (preferences : Option (String × ThinkingLevel)) (replacement : Option PromptRevision)
  | rename (threadId title now : String)
  | archive (threadId : String) (archived : Bool) (now : String)
  | setTitleIfAbsent (threadId title now : String)
  | beginTitleGeneration (threadId fallback generation now : String)
  | finishTitleGeneration (threadId generation : String) (title : Option String) (now : String)
  | assignThreadCollection (threadId : String) (collectionId : Option String) (now : String)
  | deleteCollection (id now : String)
  | recordRequestUsage (threadId : String) (usage : RequestUsage)
  | reconcileRequestUsage (threadId : String) (snapshots : List RequestUsage)
  | interruptIncompleteTurns (now : String)
  | deleteSessions (ids : List String)

/-- The tables an operation leaves. -/
def Write.run (env : Environment) (op : Write) (db : Database) : Database :=
  match op with
  | .appendBatch envelopes clientItemId preferences replacement =>
    (Store.appendBatch env envelopes clientItemId preferences replacement db).2
  | .rename threadId title now => (Store.rename threadId title now db).2
  | .archive threadId archived now => (Store.archive threadId archived now db).2
  | .setTitleIfAbsent threadId title now => (Store.setTitleIfAbsent threadId title now db).2
  | .beginTitleGeneration threadId fallback generation now =>
    (Store.beginTitleGeneration threadId fallback generation now db).2
  | .finishTitleGeneration threadId generation title now =>
    (Store.finishTitleGeneration threadId generation title now db).2
  | .assignThreadCollection threadId collectionId now =>
    (Store.assignThreadCollection env threadId collectionId now db).2
  | .deleteCollection id now => (Store.deleteCollection env id now db).2
  | .recordRequestUsage threadId usage => (Store.recordRequestUsage env threadId usage db).2
  | .reconcileRequestUsage threadId snapshots =>
    (Store.reconcileRequestUsage env threadId snapshots db).2
  | .interruptIncompleteTurns now => Store.interruptIncompleteTurns now db
  | .deleteSessions ids => (Store.deleteSessions ids db).2

/-- The store: one operation after the other. -/
def store : Machine Database (Environment × Write) Empty where
  step db op := (op.2.run op.1 db, [])

/-! ## A sample session

One session at one instant, for the runs that show what a theorem cannot say. -/

namespace Sample

def time : DateTime where
  rfc3339 := "2026-01-01T00:00:00+00:00"
  rfc3339Millis := "2026-01-01T00:00:00.000Z"
  timestampMillis := "1767225600000"

def session : SessionId := ⟨1⟩

/-- The thread of the session. -/
def thread : String := session.toString

/-- Identifiers that differ from call to call of the store. -/
def env (call : String) : Environment where
  uuid n := if n = 0 then call ++ ".0" else call ++ ".1"
  utcNow _ := time

/-- An event of the session. -/
def event (e : AppEvent) : EventEnvelope where
  schemaVersion := 1
  sequence := 1
  occurredAt := time
  correlationId := ⟨0⟩
  origin := .acp
  sessionId := session
  event := e

/-- The events of one call of `append_all`. -/
def append (events : List AppEvent) : Write := .appendBatch (events.map event) none none none

/-- The session is created. -/
def create : Environment × Write := (env "create", append [.sessionCreated "/work" .acp .web])

def turn : TurnId := ⟨1⟩

/-- One call of `append_all` after the session was created. -/
def call (name : String) (events : List AppEvent) : Environment × Write := (env name, append events)

end Sample

end AxiomDesktop.Store
