import AxiomDesktop.Data.Fragments
import AxiomDesktop.Data.Uuid
import AxiomDesktop.Lib.Paging
import AxiomDesktop.Session.Queries
import Mathlib.Data.List.DropRight
import Mathlib.Data.List.Sort
import Mathlib.Data.Prod.Lex

/-!
# The catalog page by page

A listing that follows the cursors of the catalog gives every thread that the query is about once,
in the order of the catalog, as far as its pages suffice (`list_threads_complete`). The cursor of a
page is the key of its last row, which is read back (`decodeThreadCursor_encode`), and what is
behind it in the order of the catalog is what follows that row.
-/

/-!
## The catalog of threads

`SessionStore::thread_catalog` with its cursors, the request handler over it, and the loop of the
client that follows the cursors (`AxiomAcpClient.listThreads`).
-/

namespace AxiomDesktop.Store

def MAX_THREAD_CATALOG_PAGE : Nat := 200
def MAX_THREAD_QUERY_BYTES : Nat := 512

/-! ### Cursors -/

/-- `encode_thread_cursor`. -/
def encodeThreadCursor (updatedAt id : String) : String :=
  String.ofList (Base64.encodeUrlSafe (Text.bytes (Json.arr [.str updatedAt, .str id]).toText))

/-- `decode_thread_cursor`. -/
def decodeThreadCursor (cursor : String) : Except AxiomError (String × String) :=
  if cursor.utf8ByteSize > 2048 then .error (.storage "thread catalog cursor is too long")
  else
    match ((Base64.urlSafeNoPad cursor.toList).bind Text.fromUtf8).bind Json.ofText with
    | some (.arr [.str updatedAt, .str id]) =>
      if id = "" then .error (.storage "thread catalog cursor is invalid") else .ok (updatedAt, id)
    | _ => .error (.storage "thread catalog cursor is invalid")

/-! ### The catalog -/

/-- `COALESCE(last_user_message_at,'')`. -/
def StoredThread.catalogTime (t : StoredThread) : String := t.lastUserMessageAt.getD ""

/-- `lower` of SQLite, which knows the letters of ASCII. -/
def lower (s : String) : String := String.ofList (s.toList.map Char.toLower)

/-- `instr(lower(text), lower(query))>0`. -/
def mentions (text query : String) : Bool := (lower query).toList <:+: (lower text).toList

/-- The rows that a query of the catalog is about. -/
def inCatalog (query : Option String) (includeArchived : Bool) (t : StoredThread) : Bool :=
  (!t.archived || includeArchived) &&
    query.all fun query => mentions (t.title.getD "") query || mentions t.id query

/-- The rows behind a cursor. -/
def behindCursor (cursor : Option (String × String)) (t : StoredThread) : Bool :=
  cursor.all fun (time, id) => t.catalogTime < time || (t.catalogTime = time && id < t.id)

/-- `ORDER BY COALESCE(last_user_message_at,'') DESC, id ASC`. -/
def inCatalogOrder (threads : List StoredThread) : List StoredThread :=
  threads.insertionSort fun a b =>
    b.catalogTime < a.catalogTime ∨ (a.catalogTime = b.catalogTime ∧ a.id ≤ b.id)

structure ThreadCatalogPage where
  threads : List ThreadSummary
  nextCursor : Option String

/-- The query that is searched for: without blanks around it, and none where it is blank. -/
def catalogQuery (query : Option String) : Option String := (query.map Text.trim).filter (· ≠ "")

/-- The page of the rows that were read: where there is one more than asked for, it is left out, and
the page has a cursor. -/
def catalogPage (limit : Nat) (stored : List StoredThread) : ThreadCatalogPage :=
  let threads := stored.map (·.decode)
  if threads.length > limit then
    let threads := threads.dropLast
    { threads
      nextCursor := threads.getLast?.map fun thread =>
        encodeThreadCursor (thread.lastUserMessageAt.getD "") thread.id }
  else { threads, nextCursor := none }

/-- `SessionStore::thread_catalog`. -/
def threadCatalog (db : Database) (query : Option String) (includeArchived : Bool)
    (cursor : Option String) (limit : Nat) : Except AxiomError ThreadCatalogPage := do
  if limit = 0 ∨ limit > MAX_THREAD_CATALOG_PAGE then
    throw (.storage s!"thread catalog page size must be between 1 and {MAX_THREAD_CATALOG_PAGE}")
  let query := catalogQuery query
  if query.any (·.utf8ByteSize > MAX_THREAD_QUERY_BYTES) then
    throw (.storage s!"thread catalog query cannot exceed {MAX_THREAD_QUERY_BYTES} bytes")
  let cursor ← cursor.mapM decodeThreadCursor
  let stored := (inCatalogOrder (db.threads.rows.filter fun t =>
    inCatalog query includeArchived t && behindCursor cursor t)).take (limit + 1)
  pure (catalogPage limit stored)

/-! ### The request and its loop -/

structure ListThreadsRequest where
  query : Option String := none
  includeArchived : Bool := false
  limit : Option UInt32 := none
  cursor : Option String := none

/-- How a listing fails. -/
inductive ListThreadsError where
  | internal (message : String)
  | agent (error : AxiomError)
  | protocol (message : String)
  deriving DecidableEq, Repr

/-- The rows of a page. -/
def pageSize (limit : Option UInt32) : Nat := max 1 (min 200 (limit.getD 200).toNat)

/-- The handler `list_threads`, where the extension is negotiated and the store is there. -/
def listThreadsPage (db : Database) (request : ListThreadsRequest) :
    Except ListThreadsError ThreadCatalogPage :=
  if request.query.any (·.utf8ByteSize > MAX_THREAD_QUERY_BYTES) then
    .error (.internal "session query is too long")
  else
    (threadCatalog db (catalogQuery request.query) request.includeArchived request.cursor
      (pageSize request.limit)).mapError .agent

/-- `AxiomAcpClient.listThreads`, while the store does not change. -/
def listThreads (db : Database) (request : ListThreadsRequest) :
    Except ListThreadsError (List ThreadSummary) :=
  let fetch cursor :=
    (listThreadsPage db { request with cursor, limit := some (request.limit.getD 200) }).map fun page =>
      (page.threads, page.nextCursor)
  Paging.collect fetch (.protocol "thread catalog pagination exceeded its safety limit") 10000
    request.cursor []

end AxiomDesktop.Store

namespace AxiomDesktop

/-! ## Queries -/

namespace Text

theorem trimChars_trimChars (cs : List Char) : trimChars (trimChars cs) = trimChars cs := by
  have hhead : (trimChars cs).dropWhile isWhitespace = trimChars cs := by
    by_cases hnil : trimChars cs = []
    · rw [hnil]
      rfl
    · obtain ⟨c, rest, hcons⟩ := List.exists_cons_of_ne_nil hnil
      obtain ⟨tail, htail⟩ : trimChars cs <+: cs.dropWhile isWhitespace := List.rdropWhile_prefix _ _
      have hfirst := List.head?_dropWhile_not isWhitespace cs
      rw [← htail, hcons] at hfirst
      rw [hcons]
      exact List.dropWhile_cons_of_neg (by simpa using hfirst)
  have hlast : dropWhileEnd isWhitespace (trimChars cs) = trimChars cs :=
    List.rdropWhile_idempotent _ _
  conv_lhs => rw [trimChars, hhead, hlast]

theorem trim_trim (s : String) : trim (trim s) = trim s := by
  rw [trim, trim, String.toList_ofList, trimChars_trimChars]

theorem utf8ByteSize_trim (s : String) : (trim s).utf8ByteSize ≤ s.utf8ByteSize := by
  obtain ⟨before, hbefore⟩ := List.dropWhile_suffix (l := s.toList) isWhitespace
  obtain ⟨behind, hbehind⟩ : trimChars s.toList <+: s.toList.dropWhile isWhitespace :=
    List.rdropWhile_prefix _ _
  rw [trim, utf8ByteSize_ofList, utf8ByteSize_toList s, ← hbefore, ← hbehind, byteSize_append,
    byteSize_append, hbehind, hbefore]
  omega

end Text

namespace Store

theorem catalogQuery_catalogQuery (query : Option String) :
    catalogQuery (catalogQuery query) = catalogQuery query := by
  unfold catalogQuery
  rcases query with _ | query
  · rfl
  · by_cases hblank : Text.trim query = ""
    · simp [hblank, Option.filter]
    · simp [hblank, Option.filter, Text.trim_trim]

/-! ## Cursors -/

/-- **A cursor is read back.** -/
theorem decodeThreadCursor_encode {time id : String} (hid : id ≠ "")
    (hsize : (encodeThreadCursor time id).utf8ByteSize ≤ 2048) :
    decodeThreadCursor (encodeThreadCursor time id) = .ok (time, id) := by
  have hnumbers : Json.Numbers (.arr [.str time, .str id]) := ⟨trivial, trivial, trivial⟩
  rw [decodeThreadCursor, if_neg (Nat.not_lt.mpr hsize), encodeThreadCursor, String.toList_ofList,
    Base64.urlSafeNoPad_encode, Option.bind_some, Text.fromUtf8_bytes, Option.bind_some,
    Json.ofText_toText hnumbers]
  exact if_neg hid

/-! ## The order of the catalog -/

/-- The place of a thread in the order of the catalog. -/
def catalogKey (t : StoredThread) : Lex (Stringᵒᵈ × String) := toLex (OrderDual.toDual t.catalogTime, t.id)

variable {a b : StoredThread}

theorem catalogKey_le : catalogKey a ≤ catalogKey b ↔
    b.catalogTime < a.catalogTime ∨ (a.catalogTime = b.catalogTime ∧ a.id ≤ b.id) := by
  rw [catalogKey, catalogKey, Prod.Lex.toLex_le_toLex]
  rfl

theorem catalogKey_lt : catalogKey a < catalogKey b ↔
    b.catalogTime < a.catalogTime ∨ (a.catalogTime = b.catalogTime ∧ a.id < b.id) := by
  rw [catalogKey, catalogKey, Prod.Lex.toLex_lt_toLex]
  rfl

theorem inCatalogOrder_perm (threads : List StoredThread) : (inCatalogOrder threads).Perm threads :=
  List.perm_insertionSort _ _

/-- The order of the catalog is that of the keys, which are different for different threads. -/
theorem inCatalogOrder_pairwise {threads : List StoredThread} (hids : (threads.map (·.id)).Nodup) :
    (inCatalogOrder threads).Pairwise fun a b => catalogKey a < catalogKey b := by
  have hle : (inCatalogOrder threads).Pairwise fun a b => catalogKey a ≤ catalogKey b := by
    have htotal : Std.Total fun a b : StoredThread =>
        b.catalogTime < a.catalogTime ∨ (a.catalogTime = b.catalogTime ∧ a.id ≤ b.id) :=
      ⟨fun a b => by simpa only [← catalogKey_le] using le_total (catalogKey a) (catalogKey b)⟩
    have htrans : IsTrans StoredThread fun a b =>
        b.catalogTime < a.catalogTime ∨ (a.catalogTime = b.catalogTime ∧ a.id ≤ b.id) :=
      ⟨fun a b c => by
        simp only [← catalogKey_le]
        exact le_trans⟩
    exact (List.pairwise_insertionSort _ threads).imp catalogKey_le.mpr
  have hne : (inCatalogOrder threads).Pairwise fun a b => a.id ≠ b.id := by
    have hnodup := ((inCatalogOrder_perm threads).map (·.id)).nodup_iff.mpr hids
    exact List.pairwise_map.mp hnodup
  refine (hle.and hne).imp fun {a b} h => lt_of_le_of_ne h.1 fun heq => h.2 ?_
  exact congrArg (fun key => (ofLex key).2) heq

/-- Rows can be left out before or after the sorting. -/
theorem inCatalogOrder_filter {threads : List StoredThread} (hids : (threads.map (·.id)).Nodup)
    (p : StoredThread → Bool) :
    inCatalogOrder (threads.filter p) = (inCatalogOrder threads).filter p := by
  have hsub : ((threads.filter p).map (·.id)).Nodup := hids.sublist (List.filter_sublist.map _)
  refine List.Perm.eq_of_pairwise (fun a b _ _ hab hba => absurd hab (lt_asymm hba))
    (inCatalogOrder_pairwise hsub) ((inCatalogOrder_pairwise hids).filter p) ?_
  exact (inCatalogOrder_perm _).trans ((inCatalogOrder_perm threads).symm.filter p)

/-- What is behind the cursor of a thread follows it in the order of the catalog. -/
theorem behindCursor_iff : behindCursor (some (a.catalogTime, a.id)) b = true ↔
    catalogKey a < catalogKey b := by
  rw [catalogKey_lt]
  simp only [behindCursor, Option.all_some, Bool.or_eq_true, Bool.and_eq_true, decide_eq_true_eq]
  exact or_congr Iff.rfl (and_congr_left' eq_comm)

/-! ## A page -/

variable {db : Database} {query : Option String} {includeArchived : Bool} {limit : Nat}

/-- The threads that a query is about, in the order of the catalog. -/
def catalog (db : Database) (query : Option String) (includeArchived : Bool) : List StoredThread :=
  inCatalogOrder (db.threads.rows.filter (inCatalog (catalogQuery query) includeArchived))

/-- The cursor behind a thread. -/
def cursorOf (t : StoredThread) : String := encodeThreadCursor t.catalogTime t.id

theorem catalog_pairwise (db : Database) (query : Option String) (includeArchived : Bool) :
    (catalog db query includeArchived).Pairwise fun a b => catalogKey a < catalogKey b :=
  inCatalogOrder_pairwise (db.threads.unique.sublist (List.filter_sublist.map _))

theorem catalogPage_eq (limit : Nat) (rest : List StoredThread) :
    catalogPage limit (rest.take (limit + 1)) =
      { threads := (Paging.answer StoredThread.decode cursorOf limit rest).1
        nextCursor := (Paging.answer StoredThread.decode cursorOf limit rest).2 } := by
  unfold catalogPage Paging.answer
  dsimp only
  rw [List.length_map]
  by_cases hmore : limit < rest.length
  · have hlookahead := (Paging.length_lookahead limit rest).mpr hmore
    rw [if_pos hlookahead, if_pos hmore, ← List.map_dropLast, Paging.dropLast_lookahead hmore,
      List.getLast?_map, Option.map_map]
    rfl
  · have hlookahead := mt (Paging.length_lookahead limit rest).mp hmore
    have hle := Nat.le_of_not_lt hmore
    rw [if_neg hlookahead, if_neg hmore, List.take_of_length_le hle,
      List.take_of_length_le (Nat.le_succ_of_le hle)]

/-- The query and the size of a page are within the limits of the catalog. -/
structure Asked (query : Option String) (limit : Nat) : Prop where
  pos : 0 < limit
  limit : limit ≤ MAX_THREAD_CATALOG_PAGE
  query : (catalogQuery query).any (·.utf8ByteSize > MAX_THREAD_QUERY_BYTES) = false

theorem threadCatalog_ok (hasked : Asked query limit) {cursor : Option String}
    {place : Option (String × String)} (hcursor : cursor.mapM decodeThreadCursor = .ok place) :
    threadCatalog db query includeArchived cursor limit = .ok (catalogPage limit
      (((catalog db query includeArchived).filter (behindCursor place)).take (limit + 1))) := by
  have hsize : ¬ (limit = 0 ∨ limit > MAX_THREAD_CATALOG_PAGE) := by
    have hpos := hasked.pos
    have hmax := hasked.limit
    omega
  have hquery : ¬ (catalogQuery query).any (·.utf8ByteSize > MAX_THREAD_QUERY_BYTES) = true := by
    rw [hasked.query]
    exact Bool.false_ne_true
  have hrows : inCatalogOrder (db.threads.rows.filter fun t =>
      inCatalog (catalogQuery query) includeArchived t && behindCursor place t) =
        (catalog db query includeArchived).filter (behindCursor place) := by
    rw [catalog, ← inCatalogOrder_filter (db.threads.unique.sublist (List.filter_sublist.map _)),
      List.filter_filter]
    congr 1
    exact List.filter_congr fun t _ => Bool.and_comm _ _
  rw [← hrows]
  unfold threadCatalog
  rw [if_neg hsize]
  dsimp only
  rw [if_neg hquery, hcursor]
  rfl

/-! ## The rows that the program writes -/

/-- A row of `threads` as the program writes it: its key is the text of a session, and its time is
one that `to_rfc3339_opts` writes. -/
structure Dated (t : StoredThread) : Prop where
  id : ∃ session : SessionId, t.id = session.toString
  time : ∀ at_ ∈ t.lastUserMessageAt, Json.Plain at_ ∧ at_.utf8ByteSize ≤ 64

/-- The cursor behind a row is within the limit of the cursors. -/
theorem Dated.cursor {t : StoredThread} (h : Dated t) : t.id ≠ "" ∧ (cursorOf t).utf8ByteSize ≤ 2048 := by
  obtain ⟨session, hid⟩ := h.id
  obtain ⟨hplain, hsize⟩ := Text.uuid_plain session.uuid
  have hid' : t.id.utf8ByteSize = 36 := by rw [hid, SessionId.toString, hsize]
  have htime : Json.Plain t.catalogTime ∧ t.catalogTime.utf8ByteSize ≤ 64 := by
    unfold StoredThread.catalogTime
    cases htime : t.lastUserMessageAt with
    | none => decide
    | some time => exact h.time time htime
  constructor
  · intro hnil
    rw [hnil] at hid'
    exact absurd hid' (by decide)
  · have hjson := Json.size_arr [.str t.catalogTime, .str t.id]
    have hquoted : (Json.str t.catalogTime).toText.utf8ByteSize = t.catalogTime.utf8ByteSize + 2 :=
      Json.size_quote htime.1
    have hquoted' : (Json.str t.id).toText.utf8ByteSize = t.id.utf8ByteSize + 2 :=
      Json.size_quote (by rw [hid]; exact hplain)
    simp only [List.map_cons, List.map_nil, List.sum_cons, List.sum_nil, hquoted, hquoted', hid'] at hjson
    have hlength := Base64.length_encodeUrlSafe
      (Text.bytes (Json.arr [.str t.catalogTime, .str t.id]).toText)
    have hbytes : (Text.bytes (Json.arr [.str t.catalogTime, .str t.id]).toText).length =
        (Json.arr [.str t.catalogTime, .str t.id]).toText.utf8ByteSize := rfl
    have hsize := Text.byteSize_le
      (Base64.encodeUrlSafe (Text.bytes (Json.arr [.str t.catalogTime, .str t.id]).toText))
    have htime := htime.2
    rw [cursorOf, encodeThreadCursor, Text.utf8ByteSize_ofList]
    omega

/-! ## The listing -/

variable {request : ListThreadsRequest}

/-- A page of the listing, by its cursor. -/
def listingPage (db : Database) (request : ListThreadsRequest) (cursor : Option String) :
    Except ListThreadsError (List ThreadSummary × Option String) :=
  (listThreadsPage db { request with cursor, limit := some (request.limit.getD 200) }).map fun page =>
    (page.threads, page.nextCursor)

theorem listingPage_ok (hquery : ∀ query ∈ request.query, query.utf8ByteSize ≤ MAX_THREAD_QUERY_BYTES)
    {cursor : Option String} {place : Option (String × String)}
    (hcursor : cursor.mapM decodeThreadCursor = .ok place) :
    listingPage db request cursor = .ok (Paging.answer StoredThread.decode cursorOf (pageSize request.limit)
      ((catalog db request.query request.includeArchived).filter (behindCursor place))) := by
  have hlong : ¬ request.query.any (·.utf8ByteSize > MAX_THREAD_QUERY_BYTES) = true := by
    rw [Option.any_eq_true]
    rintro ⟨query, hmem, hsize⟩
    exact absurd (hquery query hmem) (Nat.not_le.mpr (of_decide_eq_true hsize))
  have hasked : Asked (catalogQuery request.query) (pageSize request.limit) := by
    refine ⟨?_, ?_, ?_⟩
    · unfold pageSize
      omega
    · unfold pageSize MAX_THREAD_CATALOG_PAGE
      omega
    · rw [catalogQuery_catalogQuery]
      unfold catalogQuery
      rcases hq : request.query with _ | query
      · rfl
      · have hsize := hquery query hq
        have htrim := Text.utf8ByteSize_trim query
        by_cases hblank : Text.trim query = ""
        · simp [Option.filter, hblank]
        · simp [Option.filter, hblank]
          omega
  have hpage : threadCatalog db (catalogQuery request.query) request.includeArchived cursor
      (pageSize request.limit) = _ := threadCatalog_ok hasked hcursor
  have hcatalog : catalog db (catalogQuery request.query) request.includeArchived =
      catalog db request.query request.includeArchived := by
    rw [catalog, catalogQuery_catalogQuery, catalog]
  have hsame : pageSize (some (request.limit.getD 200)) = pageSize request.limit := rfl
  unfold listingPage listThreadsPage
  dsimp only
  rw [if_neg hlong, hsame, hpage, hcatalog, catalogPage_eq]
  rfl

theorem listing_paged (hdb : ∀ t ∈ db.threads.rows, Dated t)
    (hquery : ∀ query ∈ request.query, query.utf8ByteSize ≤ MAX_THREAD_QUERY_BYTES) :
    Paging.Paged (listingPage db request) StoredThread.decode cursorOf (pageSize request.limit)
      (catalog db request.query request.includeArchived) where
  first := by
    have hfirst : listingPage db request none = _ := listingPage_ok hquery rfl
    have hall : (catalog db request.query request.includeArchived).filter (behindCursor none) =
        catalog db request.query request.includeArchived := List.filter_eq_self.mpr fun _ _ => rfl
    rw [hall] at hfirst
    exact hfirst
  behind := by
    intro front a rest hrows
    have hmem : a ∈ catalog db request.query request.includeArchived := by
      rw [hrows]
      exact List.mem_append_right _ List.mem_cons_self
    have ha : a ∈ db.threads.rows := List.mem_of_mem_filter ((inCatalogOrder_perm _).mem_iff.mp hmem)
    obtain ⟨hid, hsize⟩ := (hdb a ha).cursor
    have hdecode : (some (cursorOf a)).mapM decodeThreadCursor = .ok (some (a.catalogTime, a.id)) := by
      have hread := decodeThreadCursor_encode hid hsize
      show (some <$> decodeThreadCursor (encodeThreadCursor a.catalogTime a.id)) = _
      rw [hread]
      rfl
    rw [listingPage_ok hquery hdecode]
    have hsorted := catalog_pairwise db request.query request.includeArchived
    rw [hrows] at hsorted
    have hbehind : (front ++ a :: rest).filter (behindCursor (some (a.catalogTime, a.id))) = rest := by
      conv_rhs => rw [← Paging.filter_behind hsorted]
      refine List.filter_congr fun b _ => Bool.eq_iff_iff.mpr ?_
      rw [behindCursor_iff, decide_eq_true_eq]
    rw [hrows, hbehind]

/-- A listing is the catalog, as far as its pages suffice. -/
theorem listThreads_eq (hdb : ∀ t ∈ db.threads.rows, Dated t) (hcursor : request.cursor = none)
    (hquery : ∀ query ∈ request.query, query.utf8ByteSize ≤ MAX_THREAD_QUERY_BYTES) :
    listThreads db request =
      if (catalog db request.query request.includeArchived).length ≤ 10000 * pageSize request.limit then
        .ok ((catalog db request.query request.includeArchived).map StoredThread.decode)
      else .error (.protocol "thread catalog pagination exceeded its safety limit") := by
  have hpos : 0 < pageSize request.limit := by
    unfold pageSize
    omega
  rw [← Paging.collect_first (listing_paged hdb hquery) hpos (by omega), ← hcursor]
  rfl

/-- **A listing is complete.** Following the cursors of the catalog from the start ends. Where the
pages suffice, it gives every thread that the query is about exactly once, those with a later
message of the user first and those of one time by their ids; otherwise the client gives up. -/
theorem list_threads_complete (hdb : ∀ t ∈ db.threads.rows, Dated t) (hcursor : request.cursor = none)
    (hquery : ∀ query ∈ request.query, query.utf8ByteSize ≤ MAX_THREAD_QUERY_BYTES) :
    let found := db.threads.rows.filter (inCatalog (catalogQuery request.query) request.includeArchived)
    (found.length ≤ 10000 * pageSize request.limit → ∃ threads, listThreads db request = .ok threads ∧
      threads.Perm (found.map StoredThread.decode) ∧ (threads.map (·.id)).Nodup ∧
      threads.Pairwise fun a b => b.lastUserMessageAt.getD "" < a.lastUserMessageAt.getD "" ∨
        (a.lastUserMessageAt.getD "" = b.lastUserMessageAt.getD "" ∧ a.id < b.id)) ∧
    (10000 * pageSize request.limit < found.length → listThreads db request =
      .error (.protocol "thread catalog pagination exceeded its safety limit")) := by
  intro found
  have hperm : (catalog db request.query request.includeArchived).Perm found := inCatalogOrder_perm _
  have hlist := listThreads_eq hdb hcursor hquery
  rw [hperm.length_eq] at hlist
  constructor
  · intro hle
    refine ⟨_, hlist.trans (if_pos hle), hperm.map _, ?_, ?_⟩
    · rw [List.map_map]
      have hnodup : (found.map (·.id)).Nodup := db.threads.unique.sublist (List.filter_sublist.map _)
      exact (hperm.map _).nodup_iff.mpr hnodup
    · exact List.pairwise_map.mpr
        ((catalog_pairwise db request.query request.includeArchived).imp catalogKey_lt.mp)
  · intro hlt
    exact hlist.trans (if_neg (Nat.not_le.mpr hlt))

/-! ## More threads than the client has pages for -/

/-- The row of a thread that has no message yet. -/
def quietThread (i : Nat) : StoredThread where
  id := (SessionId.mk (BitVec.ofNat 128 i)).toString
  cwd := "/"
  origin := .acp
  profile := .observe
  createdAt := "2026-01-01T00:00:00.000Z"
  updatedAt := "2026-01-01T00:00:00.000Z"

theorem quietThread_dated (i : Nat) : Dated (quietThread i) where
  id := ⟨_, rfl⟩
  time := nofun

/-- A store with so many threads. -/
def quietStore (count : Nat) (h : count ≤ 2 ^ 48) : Database where
  threads :=
    { rows := (List.range count).map quietThread
      unique := by
        rw [List.map_map]
        refine List.Nodup.map_on (fun i hi j hj heq => ?_) List.nodup_range
        rw [List.mem_range] at hi hj
        exact Text.uuid_ofNat (by omega) (by omega) heq }

theorem quietStore_dated (count : Nat) (h : count ≤ 2 ^ 48) :
    ∀ t ∈ (quietStore count h).threads.rows, Dated t := by
  intro t ht
  obtain ⟨i, _, rfl⟩ := List.mem_map.mp ht
  exact quietThread_dated i

theorem quietStore_found (count : Nat) (h : count ≤ 2 ^ 48) :
    (quietStore count h).threads.rows.filter (inCatalog (catalogQuery none) false) =
      (List.range count).map quietThread := by
  refine List.filter_eq_self.mpr fun t ht => ?_
  obtain ⟨i, _, rfl⟩ := List.mem_map.mp ht
  rfl

/-- Two threads on a page each. -/
theorem list_threads_two : ∃ threads,
    listThreads (quietStore 2 (by omega)) { limit := some 1 } = .ok threads ∧ threads.length = 2 := by
  have hfound := quietStore_found 2 (by omega)
  have hdated := quietStore_dated 2 (by omega)
  obtain ⟨threads, hlist, hperm, _⟩ :=
    (@list_threads_complete (quietStore 2 (by omega)) { limit := some 1 } hdated rfl nofun).1 (by
      show List.length (List.filter _ _) ≤ _
      rw [hfound]
      decide)
  refine ⟨threads, hlist, ?_⟩
  rw [hperm.length_eq, List.length_map]
  show List.length (List.filter _ _) = 2
  rw [hfound]
  rfl

/-- With a thread on a page, ten thousand and one threads are not listed. -/
theorem list_threads_exceeded : (∀ t ∈ (quietStore 10001 (by omega)).threads.rows, Dated t) ∧
    listThreads (quietStore 10001 (by omega)) { limit := some 1 } =
      .error (.protocol "thread catalog pagination exceeded its safety limit") := by
  have hdated := quietStore_dated 10001 (by omega)
  refine ⟨hdated, ?_⟩
  rw [@listThreads_eq (quietStore 10001 (by omega)) { limit := some 1 } hdated rfl nofun]
  refine if_neg ?_
  rw [catalog, (inCatalogOrder_perm _).length_eq, quietStore_found 10001 (by omega), List.length_map,
    List.length_range]
  decide

end Store

end AxiomDesktop
