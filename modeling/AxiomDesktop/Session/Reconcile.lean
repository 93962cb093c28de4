import AxiomDesktop.Session.Frame

/-!
# Reconciliation as a function

`reconcileRequestUsage` takes the snapshots of a batch one after the other: each is checked against
the record it names (`matchesStored`) and, where that is not settled, settles it (`settleStored`).
The batch is accepted if the thread exists and every snapshot passes (`accepts`), and then it leaves
what the snapshots made of the records (`reconcileRequestUsage_eq`); otherwise it changes nothing.
-/

namespace AxiomDesktop.Store

open Fallible

variable {t : String} {s s' : Database}

/-! ## Records by id -/

/-- The request of a record is the key of its row. -/
def Database.Keyed (s : Database) : Prop :=
  ∀ u ∈ s.requestUsage.rows, u.record.requestId = u.requestId

theorem record?_eq_some {id : String} {r : RequestUsage} :
    s.record? t id = some r ↔
      ∃ u ∈ s.requestUsage.rows, u.requestId = id ∧ u.threadId = t ∧ u.record = r := by
  unfold Database.record?
  constructor
  · intro h
    obtain ⟨u, hu, hr⟩ := Option.map_eq_some_iff.mp h
    obtain ⟨hget, hthread⟩ := Option.filter_eq_some_iff.mp hu
    obtain ⟨hmem, hid⟩ := Rows.get?_mem hget
    exact ⟨u, hmem, hid, by simpa using hthread, hr⟩
  · rintro ⟨u, hmem, rfl, rfl, rfl⟩
    rw [Rows.get?_of_mem hmem]
    simp

theorem record?_requestId (hkeyed : s.Keyed) {id : String} {r : RequestUsage}
    (h : s.record? t id = some r) : r.requestId = id := by
  obtain ⟨u, hmem, hid, -, rfl⟩ := record?_eq_some.mp h
  rw [hkeyed u hmem, hid]

/-! ## One snapshot -/

/-- The checks of a snapshot against the record it names. -/
def matchesStored (t : String) (s : Database) (snapshot : RequestUsage) : Bool :=
  snapshot.validateCounters && !snapshot.responseVerified &&
    (s.record? t snapshot.requestId).all fun stored =>
      stored.modelId = snapshot.modelId &&
        (stored.providerId = "" || stored.providerId = snapshot.providerId)

/-- What a snapshot does to the records: it settles the record it names, if that is not settled. -/
def settleStored (t : String) (s : Database) (snapshot : RequestUsage) : Database :=
  match s.record? t snapshot.requestId with
  | none => s
  | some stored =>
    if stored.settled || !snapshot.settled then s
    else
      { s with
        requestUsage := s.requestUsage.update
          (fun u => u.requestId = stored.requestId && u.threadId = t)
          (fun u => { u with record := settle snapshot stored }) fun _ => rfl }

theorem reconcileSnapshot_ok {snapshot : RequestUsage} {tx tx' : Transaction} {u : PUnit} :
    (reconcileSnapshot t snapshot).exec tx = (.ok u, tx') ↔
      matchesStored t tx.db snapshot = true ∧ tx' = { tx with db := settleStored t tx.db snapshot } := by
  unfold reconcileSnapshot matchesStored settleStored
  rw [exec_bind_ok]
  constructor
  · rintro ⟨_, tx₁, hcheck, h⟩
    obtain ⟨hvalid, rfl⟩ := exec_failIf_ok.mp hcheck
    rw [exec_tables_bind] at h
    simp only [Bool.or_eq_true, Bool.not_eq_true', not_or, Bool.not_eq_false,
      Bool.not_eq_true] at hvalid
    generalize tx.db.record? t snapshot.requestId = found at h ⊢
    cases found with
    | none =>
      rw [exec_pure] at h
      obtain ⟨-, rfl⟩ := Prod.mk.inj h
      exact ⟨by simp [hvalid], rfl⟩
    | some stored =>
      obtain ⟨_, tx₂, hcheck, hset⟩ := exec_bind_ok.mp h
      obtain ⟨hidentity, rfl⟩ := exec_failIf_ok.mp hcheck
      refine ⟨by simpa [hvalid, or_iff_not_imp_left] using hidentity, ?_⟩
      dsimp only
      split at hset
      · rename_i hskip
        rw [exec_pure] at hset
        obtain ⟨-, rfl⟩ := Prod.mk.inj hset
        rw [if_pos hskip]
      · rename_i hskip
        unfold updateUsage at hset
        rw [exec_modifyTables] at hset
        obtain ⟨-, rfl⟩ := Prod.mk.inj hset
        rw [if_neg hskip]
  · rintro ⟨hmatch, rfl⟩
    simp only [Bool.and_eq_true, Bool.not_eq_true'] at hmatch
    obtain ⟨⟨hcounters, hunverified⟩, hall⟩ := hmatch
    refine ⟨⟨⟩, tx, exec_failIf_ok.mpr ⟨by simp [hcounters, hunverified], rfl⟩, ?_⟩
    rw [exec_tables_bind]
    cases hstored : tx.db.record? t snapshot.requestId with
    | none => rfl
    | some stored =>
      rw [hstored] at hall
      dsimp only
      refine exec_bind_ok.mpr ⟨⟨⟩, tx, exec_failIf_ok.mpr ⟨?_, rfl⟩, ?_⟩
      · simpa [or_iff_not_imp_left] using hall
      · split
        · rfl
        · rfl

/-! ## The batch -/

/-- Every snapshot passes its checks when its turn comes. -/
def matchesAll (t : String) : List RequestUsage → Database → Bool
  | [], _ => true
  | snapshot :: rest, s => matchesStored t s snapshot && matchesAll t rest (settleStored t s snapshot)

/-- The batches that are accepted. -/
def accepts (t : String) (snapshots : List RequestUsage) (s : Database) : Bool :=
  s.hasThread t && matchesAll t snapshots s

theorem reconcileAll_ok {snapshots : List RequestUsage} {tx tx' : Transaction} {u : PUnit} :
    (snapshots.forM (reconcileSnapshot t)).exec tx = (.ok u, tx') ↔
      matchesAll t snapshots tx.db = true ∧
        tx' = { tx with db := snapshots.foldl (settleStored t) tx.db } := by
  induction snapshots generalizing tx with
  | nil => simp [matchesAll, eq_comm]
  | cons snapshot rest ih =>
    show (reconcileSnapshot t snapshot >>= fun _ => rest.forM (reconcileSnapshot t)).exec tx = _ ↔ _
    rw [exec_bind_ok, matchesAll, Bool.and_eq_true, List.foldl_cons]
    constructor
    · rintro ⟨_, tx₁, hfirst, hrest⟩
      obtain ⟨hmatch, rfl⟩ := reconcileSnapshot_ok.mp hfirst
      obtain ⟨hall, rfl⟩ := ih.mp hrest
      exact ⟨⟨hmatch, hall⟩, rfl⟩
    · rintro ⟨⟨hmatch, hall⟩, rfl⟩
      exact ⟨⟨⟩, _, reconcileSnapshot_ok.mpr ⟨hmatch, rfl⟩, ih.mpr ⟨hall, rfl⟩⟩

/-- **A reconciliation** either is accepted as a whole or changes nothing. -/
theorem reconcileRequestUsage_eq (env : Environment) (snapshots : List RequestUsage) (s : Database) :
    (reconcileRequestUsage env t snapshots s).2 =
      if accepts t snapshots s then snapshots.foldl (settleStored t) s else s := by
  unfold reconcileRequestUsage
  cases h : transaction env (do
    ensureThread t
    snapshots.forM (reconcileSnapshot t)) s with
  | mk result s' =>
    cases result with
    | ok u =>
      obtain ⟨tx', hexec, rfl⟩ := transaction_ok h
      obtain ⟨_, tx₁, hensure, hall⟩ := exec_bind_ok.mp hexec
      obtain ⟨hthread, rfl⟩ := ensureThread_ok hensure
      obtain ⟨hmatch, rfl⟩ := reconcileAll_ok.mp hall
      rw [if_pos (by rw [accepts, hthread, hmatch]; rfl)]
    | error e =>
      rw [transaction_error h]
      split
      · rename_i hacc
        obtain ⟨hthread, hmatch⟩ := Bool.and_eq_true_iff.mp hacc
        have hexec : (do
            ensureThread t
            snapshots.forM (reconcileSnapshot t) : StoreM PUnit).exec { db := s, env } =
              (.ok ⟨⟩, { db := snapshots.foldl (settleStored t) s, env }) := by
          refine exec_bind_ok.mpr ⟨⟨⟩, { db := s, env }, ?_, reconcileAll_ok.mpr ⟨hmatch, rfl⟩⟩
          rw [ensureThread, exec_tables_bind, exec_failIf_ok]
          exact ⟨by simpa [Database.hasThread] using hthread, rfl⟩
        unfold transaction at h
        rw [hexec] at h
        cases h
      · rfl

/-! ## What a batch settles -/

/-- Whether a snapshot settles the record it names. -/
def settlesRecord (t : String) (s : Database) (snapshot : RequestUsage) : Bool :=
  snapshot.settled && (s.record? t snapshot.requestId).any fun stored => !stored.settled

theorem settleStored_eq_self {snapshot : RequestUsage} (h : settlesRecord t s snapshot = false) :
    settleStored t s snapshot = s := by
  unfold settleStored
  split
  · rfl
  · rename_i stored hstored
    refine if_pos ?_
    rw [settlesRecord, hstored, Option.any_some] at h
    cases hs : stored.settled <;> cases hn : snapshot.settled <;> simp_all

/-- The rows a snapshot leaves. -/
theorem mem_settleStored (hkeyed : s.Keyed) {snapshot : RequestUsage} {u : StoredUsage} :
    u ∈ (settleStored t s snapshot).requestUsage.rows ↔
      ∃ v ∈ s.requestUsage.rows,
        u = if v.requestId = snapshot.requestId ∧ v.threadId = t ∧ v.record.settled = false ∧
            snapshot.settled = true then { v with record := settle snapshot v.record } else v := by
  unfold settleStored
  cases hstored : s.record? t snapshot.requestId with
  | none =>
    have hnone : ∀ v ∈ s.requestUsage.rows, ¬ (v.requestId = snapshot.requestId ∧
        v.threadId = t ∧ v.record.settled = false ∧ snapshot.settled = true) := by
      rintro v hv ⟨hid, hthread, -⟩
      have := record?_eq_some.mpr ⟨v, hv, hid, hthread, rfl⟩
      rw [hstored] at this
      cases this
    constructor
    · exact fun hu => ⟨u, hu, (if_neg (hnone u hu)).symm⟩
    · rintro ⟨v, hv, rfl⟩
      rw [if_neg (hnone v hv)]
      exact hv
  | some stored =>
    obtain ⟨w, hw, hwid, hwthread, hwrecord⟩ := record?_eq_some.mp hstored
    have hid : stored.requestId = snapshot.requestId := record?_requestId hkeyed hstored
    have hv : ∀ v ∈ s.requestUsage.rows, v.requestId = snapshot.requestId → v = w :=
      fun v hv h => s.requestUsage.eq_of_key hv hw (h.trans hwid.symm)
    dsimp only
    split
    · rename_i hskip
      have hnone : ∀ v ∈ s.requestUsage.rows, ¬ (v.requestId = snapshot.requestId ∧
          v.threadId = t ∧ v.record.settled = false ∧ snapshot.settled = true) := by
        rintro v hmem ⟨hvid, -, hunsettled, hsettled⟩
        rw [hv v hmem hvid, hwrecord] at hunsettled
        simp [hunsettled, hsettled] at hskip
      constructor
      · exact fun hu => ⟨u, hu, (if_neg (hnone u hu)).symm⟩
      · rintro ⟨v, hmem, rfl⟩
        rw [if_neg (hnone v hmem)]
        exact hmem
    · rename_i hskip
      simp only [Bool.or_eq_true, Bool.not_eq_true', not_or, Bool.not_eq_true,
        Bool.not_eq_false] at hskip
      have hedit : ∀ v ∈ s.requestUsage.rows,
          Rows.edit (fun u => u.requestId = stored.requestId && u.threadId = t)
            (fun u => { u with record := settle snapshot stored }) v =
          if v.requestId = snapshot.requestId ∧ v.threadId = t ∧ v.record.settled = false ∧
            snapshot.settled = true then { v with record := settle snapshot v.record } else v := by
        intro v hmem
        unfold Rows.edit
        by_cases hvid : v.requestId = snapshot.requestId
        · obtain rfl := hv v hmem hvid
          simp [hid, hvid, hwthread, hwrecord, hskip]
        · simp [hid, hvid]
      rw [Rows.mem_update]
      constructor
      · rintro ⟨v, hmem, rfl⟩
        exact ⟨v, hmem, hedit v hmem⟩
      · rintro ⟨v, hmem, rfl⟩
        exact ⟨v, hmem, hedit v hmem⟩

theorem settleStored_keyed (hkeyed : s.Keyed) (snapshot : RequestUsage) :
    (settleStored t s snapshot).Keyed := by
  intro u hu
  obtain ⟨v, hv, rfl⟩ := (mem_settleStored hkeyed).mp hu
  split
  · exact hkeyed v hv
  · exact hkeyed v hv

theorem settleStored_others (snapshot : RequestUsage) {t' : String} (hne : t' ≠ t) :
    SameThread t' s (settleStored t s snapshot) := by
  unfold settleStored
  split
  · exact .refl _ _
  · split
    · exact .refl _ _
    · refine sameThread_usage hne ?_ fun _ => rfl
      intro u hu
      simpa using (Bool.and_eq_true_iff.mp hu).2

theorem settleStored_tables (snapshot : RequestUsage) :
    (settleStored t s snapshot).threads = s.threads ∧ (settleStored t s snapshot).turns = s.turns ∧
      (settleStored t s snapshot).timelineItems = s.timelineItems := by
  unfold settleStored
  split
  · exact ⟨rfl, rfl, rfl⟩
  · split <;> exact ⟨rfl, rfl, rfl⟩

theorem settleAll_tables (snapshots : List RequestUsage) :
    (snapshots.foldl (settleStored t) s).threads = s.threads ∧
      (snapshots.foldl (settleStored t) s).turns = s.turns ∧
      (snapshots.foldl (settleStored t) s).timelineItems = s.timelineItems := by
  induction snapshots generalizing s with
  | nil => exact ⟨rfl, rfl, rfl⟩
  | cons snapshot rest ih =>
    obtain ⟨hthreads, hturns, hitems⟩ := settleStored_tables (t := t) (s := s) snapshot
    obtain ⟨hthreads', hturns', hitems'⟩ := ih (s := settleStored t s snapshot)
    exact ⟨hthreads'.trans hthreads, hturns'.trans hturns, hitems'.trans hitems⟩

end AxiomDesktop.Store
