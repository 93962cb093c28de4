import Mathlib.Data.List.Sort
import AxiomDesktop.Lib.Ranks
import AxiomDesktop.Session.Timeline

/-!
# Collections

The transactions on the collections, each of which ends in one more revision of the collections:
they are created, renamed, collapsed and moved, and threads are assigned to them.
`assignThreadCollection` and `deleteCollection`, which takes the threads of a collection out of it
and closes the gap in the positions, also count the revision of every thread they concern.
-/

namespace AxiomDesktop.Store

open Fallible

/-- `Collection`. -/
structure Collection where
  id : String
  name : String
  collapsed : Bool
  position : Nat
  threadIds : List String
  createdAt : String
  updatedAt : String
  deriving DecidableEq, Repr

/-- `CollectionState`. -/
structure CollectionState where
  revision : Nat
  collections : List Collection
  deriving DecidableEq, Repr

/-- `CollectionChange`. -/
structure CollectionChange where
  collectionId : Option String
  state : CollectionState
  deriving DecidableEq, Repr

namespace Database

variable (db : Database)

/-- The collections, `ORDER BY position, id`. -/
def collectionsInOrder : List StoredCollection :=
  db.collections.rows.insertionSort fun a b => toLex (a.position, a.id) ≤ toLex (b.position, b.id)

/-- The threads of a collection, `ORDER BY assigned_at, thread_id`. -/
def threadsOf (collectionId : String) : List String :=
  ((db.threadCollections.rows.filter fun c => c.collectionId = collectionId).insertionSort
    fun a b => toLex (a.assignedAt, a.threadId) ≤ toLex (b.assignedAt, b.threadId)).map (·.threadId)

/-- `collection_state`. -/
def collectionState : CollectionState where
  revision := db.collectionRevision
  collections := db.collectionsInOrder.map fun c =>
    { id := c.id
      name := c.name
      collapsed := c.collapsed
      position := c.position
      threadIds := db.threadsOf c.id
      createdAt := c.createdAt
      updatedAt := c.updatedAt }

end Database

/-- `bump_collection_revision`, and the state the transaction returns. -/
def bumpCollectionRevision (collectionId : Option String) : StoreM CollectionChange := do
  modifyTables fun db => { db with collectionRevision := db.collectionRevision + 1 }
  let db ← tables
  pure { collectionId, state := db.collectionState }

def collectionNotFound (id : String) : AxiomError :=
  .storage ("collection " ++ id ++ " was not found")

/-- The positions `0, 1, ..` in the order of the collections. -/
def renumber (ids : List String) (now : String) (db : Database) : Database :=
  { db with
    collections := db.collections.update (fun c => ids.contains c.id)
      (fun c => { c with position := ids.idxOf c.id, updatedAt := now }) fun _ => rfl }

def MAX_COLLECTION_NAME_BYTES : Nat := 120

/-- `validate_collection_name`. -/
def validateCollectionName (name : String) : Except AxiomError String :=
  let name := Text.trim name
  if name.isEmpty || name.utf8ByteSize > MAX_COLLECTION_NAME_BYTES then
    .error (.storage "collection name must contain 1 to 120 bytes")
  else .ok name

/-- `SessionStore::create_collection`. -/
def createCollection (env : Environment) (name now : String) (db : Database) :
    Except AxiomError CollectionChange × Database :=
  match validateCollectionName name with
  | .error e => (.error e, db)
  | .ok name =>
    transaction env (do
      let id ← newUuid
      let db ← tables
      let position := nextRank (db.collections.rows.map (·.position))
      let collections ← okOr
        (db.collections.insert? { id, name, position, createdAt := now, updatedAt := now })
        (constraintFailed "collections.id")
      modifyTables fun db => { db with collections }
      bumpCollectionRevision (some id)) db

/-- `update_collection`: one statement on a collection that must be there. -/
def updateCollection (env : Environment) (id : String) (f : StoredCollection → StoredCollection)
    (hf : ∀ c, (f c).id = c.id) (db : Database) : Except AxiomError CollectionChange × Database :=
  transaction env (do
    let db ← tables
    failIf (!db.collections.any fun c => c.id = id) (collectionNotFound id)
    modifyTables fun db =>
      { db with collections := db.collections.update (fun c => c.id = id) f hf }
    bumpCollectionRevision (some id)) db

/-- `SessionStore::rename_collection`. -/
def renameCollection (env : Environment) (id name now : String) (db : Database) :
    Except AxiomError CollectionChange × Database :=
  match validateCollectionName name with
  | .error e => (.error e, db)
  | .ok name =>
    updateCollection env id (fun c => { c with name, updatedAt := now }) (fun _ => rfl) db

/-- `SessionStore::set_collection_collapsed`. -/
def setCollectionCollapsed (env : Environment) (id : String) (collapsed : Bool) (now : String)
    (db : Database) : Except AxiomError CollectionChange × Database :=
  updateCollection env id (fun c => { c with collapsed, updatedAt := now }) (fun _ => rfl) db

/-- `SessionStore::move_collection`. -/
def moveCollection (env : Environment) (id : String) (position : Int) (now : String)
    (db : Database) : Except AxiomError CollectionChange × Database :=
  match position with
  | .negSucc _ => (.error (.storage "collection position cannot be negative"), db)
  | .ofNat position =>
    transaction env (do
      let db ← tables
      let ids := db.collectionsInOrder.map (·.id)
      failIf (!ids.contains id) (collectionNotFound id)
      failIf (ids.length ≤ position)
        (.storage ("collection position must be between 0 and " ++ toString (ids.length - 1)))
      modifyTables (renumber (moveTo ids id position) now)
      bumpCollectionRevision (some id)) db

/-- `SessionStore::delete_collection`. -/
def deleteCollection (env : Environment) (id now : String) (db : Database) :
    Except AxiomError CollectionChange × Database :=
  transaction env (do
    let db ← tables
    let assigned := (db.threadCollections.rows.filter fun c => c.collectionId = id).map (·.threadId)
    failIf (!db.collections.any fun c => c.id = id) (collectionNotFound id)
    modifyTables fun db =>
      { db with
        collections := db.collections.delete fun c => c.id = id
        threadCollections := db.threadCollections.delete fun c => c.collectionId = id }
    let db ← tables
    modifyTables (renumber (db.collectionsInOrder.map (·.id)) now)
    assigned.forM fun threadId =>
      updateThread threadId fun t => { t with revision := t.revision + 1, updatedAt := now }
    bumpCollectionRevision (some id)) db

/-- `INSERT INTO thread_collections .. ON CONFLICT(thread_id) DO UPDATE`. -/
def upsertThreadCollection (row : ThreadCollection) (db : Database) : Database :=
  { db with
    threadCollections :=
      match db.threadCollections.insert? row with
      | some threadCollections => threadCollections
      | none =>
        db.threadCollections.update (fun c => c.threadId = row.threadId)
          (fun c => { c with collectionId := row.collectionId, assignedAt := row.assignedAt })
          fun _ => rfl }

/-- `SessionStore::assign_thread_collection`. -/
def assignThreadCollection (env : Environment) (threadId : String) (collectionId : Option String)
    (now : String) (db : Database) : Except AxiomError CollectionChange × Database :=
  transaction env (do
    ensureThread threadId
    match collectionId with
    | some collectionId => do
      let db ← tables
      failIf (!db.collections.any fun c => c.id = collectionId) (collectionNotFound collectionId)
      modifyTables (upsertThreadCollection { threadId, collectionId, assignedAt := now })
    | none =>
      modifyTables fun db =>
        { db with threadCollections := db.threadCollections.delete fun c => c.threadId = threadId }
    updateThread threadId fun t => { t with revision := t.revision + 1, updatedAt := now }
    bumpCollectionRevision collectionId) db

end AxiomDesktop.Store
