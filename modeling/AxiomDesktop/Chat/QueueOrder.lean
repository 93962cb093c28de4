import AxiomDesktop.Chat.MessageQueue
import Mathlib.Data.List.Nodup
import Mathlib.Data.List.Perm.Basic

/-!
# The order of a queue

A message, the interruption that names it, the operation that sends it and the task that waits for
it are kept in four places. `Fits` says how they go together for one message, and `Ordered` for the
whole queue. A method breaks the order for one message at a time: `Ordered` may except one message,
which no interruption and no operation names (`Idle`), and may count an operation whose task runs
and no longer waits. The lemmas of the module are the ways into such an exception and out of it.
-/

namespace AxiomDesktop.MessageQueue

/-! ## What the tasks are about -/

namespace Task

def generation : Task → Nat
  | .dispatch generation .. | .interrupt generation .. | .restoring generation .. => generation

/-- The message that a task of a generation sends, and its thread. -/
def sends (generation : Nat) : Task → Option (String × String)
  | .dispatch g item _ _ => if g = generation then some (item.id, item.threadId) else none
  | _ => none

/-- The messages that a task of a generation has still to restore. -/
def restores (generation : Nat) : Task → List String
  | .restoring g (.payload value rest) =>
    if g = generation then value.id :: rest.filterMap fun value => value.map (·.id) else []
  | _ => []

theorem sends_past {task : Task} {g : Nat} (h : task.generation < g) : task.sends g = none := by
  cases task with
  | dispatch generation => exact if_neg (Nat.ne_of_lt h)
  | interrupt | restoring => rfl

theorem restores_past {task : Task} {g : Nat} (h : task.generation < g) : task.restores g = [] := by
  cases task with
  | dispatch | interrupt => rfl
  | restoring generation stage =>
    cases stage with
    | payload => exact if_neg (Nat.ne_of_lt h)
    | failed | finishing => rfl

end Task

/-- The messages that the waiting tasks send, with their threads. -/
def sent (q : MessageQueue) : List (String × String) :=
  q.pending.filterMap (Task.sends q.generation)

/-- The messages that are still to be restored. -/
def arrivals (q : MessageQueue) : List String := q.pending.flatMap (Task.restores q.generation)

/-! ## What is stored -/

/-- The ids of saved messages. -/
def savedIds (values : List (Option SavedMessage)) : List String :=
  values.filterMap fun value => value.map (·.id)

theorem savedIds_some (value : SavedMessage) (values : List (Option SavedMessage)) :
    savedIds (some value :: values) = value.id :: savedIds values := rfl

theorem savedIds_saved (items : List QueuedMessage) :
    savedIds (items.map fun item => some item.saved) = items.map (·.id) := by
  induction items with
  | nil => rfl
  | cons item items ih =>
    rw [List.map_cons, savedIds_some, ih]
    rfl

/-- The storage names each message of an account once. -/
def Distinct (storage : String → Option (List (Option SavedMessage))) : Prop :=
  ∀ account values, storage account = some values → (savedIds values).Nodup

theorem Distinct.update {storage : String → Option (List (Option SavedMessage))}
    (h : Distinct storage) {items : List QueuedMessage} (hids : (items.map (·.id)).Nodup)
    (account : String) : Distinct (Function.update storage account
      (some (items.map fun item => some item.saved))) := by
  intro other values hother
  by_cases hsame : other = account
  · rw [hsame, Function.update_self] at hother
    cases hother
    rwa [savedIds_saved]
  · rw [Function.update_of_ne hsame] at hother
    exact h other values hother

/-! ## The order -/

/-- What names messages by their ids. -/
structure Tables where
  interruptions : List Interruption
  operations : List (String × String)
  preparations : List String

def tables (q : MessageQueue) : Tables :=
  { interruptions := q.interruptions, operations := q.operations, preparations := q.preparations }

/-- The interruptions, the operations and the setups go together with a message. The messages `left`
may be without a setup. -/
structure Fits (left : Set String) (t : Tables) (item : QueuedMessage) : Prop where
  stopping : item.status = .stopping ↔ ∃ i ∈ t.interruptions, i.id = some item.id
  homed : ∀ i ∈ t.interruptions, i.id = some item.id → i.threadId = item.threadId
  sending : item.preparing = false →
    (item.status = .sending ↔ ∃ o ∈ t.operations, o.1 = item.id)
  owned : ∀ o ∈ t.operations, o.1 = item.id → o.2 = item.threadId ∧ item.preparing = false
  prepared : item.preparing = true → item.status ≠ .stopping ∧
    (item.status = .sending → item.id ∈ t.preparations ∨ item.id ∈ left)

/-- Nothing names the message of an id. -/
structure Idle (t : Tables) (id : String) : Prop where
  unnamed : ∀ i ∈ t.interruptions, i.id ≠ some id
  unsent : ∀ o ∈ t.operations, o.1 ≠ id

/-- The queue is in order but for one message, with the operations `busy` of tasks that run. -/
structure Ordered (left : Set String) (busy : List (String × String)) (except : Option String)
    (q : MessageQueue) : Prop where
  owner : q.account = none → q.items = []
  awaited : q.account = none → q.arrivals = []
  ids : (q.items.map (·.id)).Nodup
  fits : ∀ item ∈ q.items, some item.id ≠ except → Fits left q.tables item
  idle : ∀ item ∈ q.items, some item.id = except → Idle q.tables item.id
  threads : (q.interruptions.map (·.threadId)).Nodup
  operated : (q.operations.map (·.1)).Nodup
  apart : (q.operations.map (·.2)).Nodup
  tasks : (busy ++ q.sent).Perm q.operations
  past : ∀ task ∈ q.pending, task.generation ≤ q.generation
  arriving : q.arrivals.Nodup
  fresh : ∀ id ∈ q.arrivals, (∀ item ∈ q.items, item.id ≠ id) ∧ Idle q.tables id
  stored : Distinct q.storage

variable {left : Set String} {busy : List (String × String)} {except : Option String}
variable {q : MessageQueue} {id threadId : String}

/-! ## Reading the tables -/

theorem find_some {item : QueuedMessage} (h : q.find id = some item) :
    item ∈ q.items ∧ item.id = id := by
  refine ⟨List.mem_of_find?_eq_some h, ?_⟩
  simpa using List.find?_some h

theorem find_none (h : q.find id = none) : ∀ item ∈ q.items, item.id ≠ id := by
  simpa [find] using h

theorem preparation_some {item : QueuedMessage} (h : q.preparation id = some item) :
    item ∈ q.items ∧ item.id = id ∧ item.preparing = true ∧ item.status = .sending := by
  refine ⟨List.mem_of_find?_eq_some h, ?_⟩
  simpa using List.find?_some h

theorem preparation_none (h : q.preparation id = none) :
    ∀ item ∈ q.items, item.id = id → item.preparing = true → item.status ≠ .sending := by
  simpa [preparation] using h

theorem interruption_some {i : Interruption} (h : q.interruption threadId = some i) :
    i ∈ q.interruptions ∧ i.threadId = threadId := by
  refine ⟨List.mem_of_find?_eq_some h, ?_⟩
  simpa using List.find?_some h

theorem hasOperation_false (h : q.hasOperation threadId = false) :
    ∀ o ∈ q.operations, o.2 ≠ threadId := by
  simpa [hasOperation] using h

theorem isStopping_false (h : q.isStopping threadId = false) :
    ∀ i ∈ q.interruptions, i.threadId ≠ threadId := by
  simpa [isStopping] using h

/-- There is one message of an id. -/
theorem Ordered.unique (h : Ordered left busy except q) {item other : QueuedMessage}
    (hitem : item ∈ q.items) (hother : other ∈ q.items) (hid : item.id = other.id) :
    item = other :=
  List.inj_on_of_nodup_map h.ids hitem hother hid

/-- There is one interruption of a thread. -/
theorem Ordered.interruption_unique (h : Ordered left busy except q) {i j : Interruption}
    (hi : i ∈ q.interruptions) (hj : j ∈ q.interruptions) (hthread : i.threadId = j.threadId) :
    i = j :=
  List.inj_on_of_nodup_map h.threads hi hj hthread

/-! ## What the order does not look at -/

/-- The order is one of eight fields. -/
theorem Ordered.congr {q' : MessageQueue} (h : Ordered left busy except q)
    (hitems : q'.items = q.items) (hoperations : q'.operations = q.operations)
    (hinterruptions : q'.interruptions = q.interruptions) (hpending : q'.pending = q.pending)
    (hpreparations : q'.preparations = q.preparations) (hgeneration : q'.generation = q.generation)
    (haccount : q'.account = q.account) (hstored : Distinct q'.storage) :
    Ordered left busy except q' := by
  cases q
  cases q'
  cases hitems
  cases hoperations
  cases hinterruptions
  cases hpending
  cases hpreparations
  cases hgeneration
  cases haccount
  exact { h with stored := hstored }

theorem Ordered.hold (h : Ordered left busy except q) (threadId : String) :
    Ordered left busy except (q.hold threadId) :=
  h.congr rfl rfl rfl rfl rfl rfl rfl h.stored

theorem Ordered.holdIf (h : Ordered left busy except q) (c : Bool) (threadId : String) :
    Ordered left busy except (q.holdIf c threadId) := by
  cases c with
  | false => exact h
  | true => exact h.hold threadId

/-- A write fails and changes a counter, or the queue is stored. -/
theorem persist_cases (host : QueueHost) (q : MessageQueue) :
    (∃ message writes, persist host q = (.error message, { q with writes }) ∧
        (q.account = none ∨ (host.setItem q.writes).isOk = false)) ∨
      ∃ account, q.account = some account ∧ (host.setItem q.writes).isOk = true ∧
        persist host q = (.ok (), { q with
          writes := q.writes + 1
          storage := Function.update q.storage account
            (some (q.items.map fun item => some item.saved)) }) := by
  unfold persist
  split
  · rename_i haccount
    exact .inl ⟨_, q.writes, rfl, .inl haccount⟩
  · rename_i account haccount
    split
    · rename_i message hwrite
      exact .inl ⟨message, _, rfl, .inr (by rw [hwrite]; rfl)⟩
    · rename_i hwrite
      exact .inr ⟨account, haccount, by rw [hwrite]; rfl, rfl⟩

/-- The storage is as it was, or holds the messages of the queue for its account. -/
def Wrote (q : MessageQueue) (storage : String → Option (List (Option SavedMessage))) : Prop :=
  storage = q.storage ∨ ∃ account, q.account = some account ∧
    storage = Function.update q.storage account (some (q.items.map fun item => some item.saved))

theorem Wrote.distinct {q : MessageQueue}
    {storage : String → Option (List (Option SavedMessage))} (h : Wrote q storage)
    (hids : (q.items.map (·.id)).Nodup) (hstored : Distinct q.storage) : Distinct storage := by
  obtain rfl | ⟨account, -, rfl⟩ := h
  · exact hstored
  · exact hstored.update hids account

/-- A write changes the counter of the writes and the storage. -/
theorem persist_eq (host : QueueHost) (q : MessageQueue) :
    ∃ result writes storage, persist host q = (result, { q with writes, storage }) ∧
      Wrote q storage := by
  obtain ⟨message, writes, hpersist, -⟩ | ⟨account, haccount, -, hpersist⟩ := persist_cases host q
  · exact ⟨_, writes, q.storage, hpersist, .inl rfl⟩
  · exact ⟨_, _, _, hpersist, .inr ⟨account, haccount, rfl⟩⟩

/-- A save changes the counter of the writes, the storage and the reports. -/
theorem save_eq (host : QueueHost) (q : MessageQueue) :
    ∃ saved writes storage reports, save host q = (saved, { q with writes, storage, reports }) ∧
      Wrote q storage := by
  obtain ⟨result, writes, storage, hpersist, hwrote⟩ := persist_eq host q
  unfold save
  rw [hpersist]
  cases result with
  | ok => exact ⟨true, writes, storage, q.reports, rfl, hwrote⟩
  | error => exact ⟨false, writes, storage, _, rfl, hwrote⟩

theorem Ordered.save (h : Ordered left busy except q) (host : QueueHost) :
    Ordered left busy except (save host q).2 := by
  obtain ⟨saved, writes, storage, reports, hsave, hwrote⟩ := save_eq host q
  rw [hsave]
  exact h.congr rfl rfl rfl rfl rfl rfl rfl (hwrote.distinct h.ids h.stored)

/-! ## One message -/

theorem mem_update {f : QueuedMessage → QueuedMessage} {item : QueuedMessage} :
    item ∈ (q.update id f).items ↔
      ∃ old ∈ q.items, (if old.id = id then f old else old) = item := by
  simp [update]

/-- A message is written, and what was in order is argued for again. -/
theorem Ordered.rewrite {x x' : Option String} (h : Ordered left busy x q)
    {f : QueuedMessage → QueuedMessage} (hid : ∀ item, (f item).id = item.id)
    (hfits : ∀ item ∈ q.items, some item.id ≠ x' →
      Fits left q.tables (if item.id = id then f item else item))
    (hidle : ∀ item ∈ q.items, some item.id = x' → Idle q.tables item.id) :
    Ordered left busy x' (q.update id f) := by
  have hsame : ∀ item, (if item.id = id then f item else item).id = item.id := by
    intro item
    split
    · exact hid item
    · rfl
  refine
    { h with
      owner := fun haccount => ?_
      ids := ?_
      fits := fun item hitem hne => ?_
      idle := fun item hitem hex => ?_
      fresh := fun other hother => ⟨fun item hitem => ?_, (h.fresh other hother).2⟩ }
  · simp only [update, h.owner haccount, List.map_nil]
  · have hids : (q.update id f).items.map (·.id) = q.items.map (·.id) := by
      simp only [update, List.map_map]
      exact List.map_congr_left fun item _ => hsame item
    rw [hids]
    exact h.ids
  · obtain ⟨old, hold, rfl⟩ := mem_update.mp hitem
    rw [hsame] at hne
    exact hfits old hold hne
  · obtain ⟨old, hold, rfl⟩ := mem_update.mp hitem
    rw [hsame] at hex ⊢
    exact hidle old hold hex
  · obtain ⟨old, hold, rfl⟩ := mem_update.mp hitem
    rw [hsame]
    exact (h.fresh other hother).1 old hold

/-- The excepted message is written, and fits again. -/
theorem Ordered.readmit (h : Ordered left busy (some id) q) {f : QueuedMessage → QueuedMessage}
    (hid : ∀ item, (f item).id = item.id)
    (hfits : ∀ item ∈ q.items, item.id = id → Fits left q.tables (f item)) :
    Ordered left busy none (q.update id f) := by
  refine h.rewrite hid (fun item hitem _ => ?_) fun _ _ => nofun
  split
  · rename_i hsame
    exact hfits item hitem hsame
  · rename_i hne
    exact h.fits item hitem (by simpa using hne)

/-- The excepted message is written, and is excepted still. -/
theorem Ordered.update (h : Ordered left busy (some id) q) {f : QueuedMessage → QueuedMessage}
    (hid : ∀ item, (f item).id = item.id) : Ordered left busy (some id) (q.update id f) := by
  refine h.rewrite hid (fun item hitem hne => ?_) h.idle
  rw [if_neg (by simpa using hne)]
  exact h.fits item hitem hne

/-- A message that nothing names fits where it is queued. -/
theorem Idle.fits {t : Tables} {item : QueuedMessage} (h : Idle t item.id)
    (hstatus : item.status = .queued) : Fits left t item where
  stopping := by
    rw [hstatus]
    exact ⟨nofun, fun ⟨i, hi, hid⟩ => absurd hid (h.unnamed i hi)⟩
  homed i hi hid := absurd hid (h.unnamed i hi)
  sending _ := by
    rw [hstatus]
    exact ⟨nofun, fun ⟨o, ho, hid⟩ => absurd hid (h.unsent o ho)⟩
  owned o ho hid := absurd hid (h.unsent o ho)
  prepared _ := by
    rw [hstatus]
    exact ⟨nofun, nofun⟩

/-- The excepted message is queued. -/
theorem Ordered.queue (h : Ordered left busy (some id) q) {f : QueuedMessage → QueuedMessage}
    (hid : ∀ item, (f item).id = item.id) (hstatus : ∀ item, (f item).status = .queued) :
    Ordered left busy none (q.update id f) := by
  refine h.readmit hid fun item hitem hsame => Idle.fits ?_ (hstatus item)
  rw [hid]
  exact h.idle item hitem (by rw [hsame])

theorem Ordered.requeue (h : Ordered left busy (some id) q) (error : String) :
    Ordered left busy none (q.requeue id error) :=
  h.queue (fun _ => rfl) fun _ => rfl

/-- A message that is queued, or being set up, is named by nothing. -/
theorem Ordered.excepting (h : Ordered left busy none q) {item : QueuedMessage}
    (hitem : item ∈ q.items) (hstatus : item.status = .queued ∨ item.preparing = true) :
    Ordered left busy (some item.id) q := by
  have hfits := h.fits item hitem nofun
  refine { h with fits := fun other hother _ => h.fits other hother nofun, idle := ?_ }
  rintro other hother hid
  obtain rfl := h.unique hother hitem (Option.some.inj hid)
  refine ⟨fun i hi hname => ?_, fun o ho hname => ?_⟩
  · have hstopping := hfits.stopping.mpr ⟨i, hi, hname⟩
    obtain hqueued | hpreparing := hstatus
    · rw [hstopping] at hqueued
      cases hqueued
    · exact (hfits.prepared hpreparing).1 hstopping
  · obtain ⟨-, hpreparing⟩ := hfits.owned o ho hname
    obtain hqueued | hpreparing' := hstatus
    · have hsending := (hfits.sending hpreparing).mpr ⟨o, ho, hname⟩
      rw [hsending] at hqueued
      cases hqueued
    · rw [hpreparing'] at hpreparing
      cases hpreparing

/-- Where the excepted message is gone the queue is in order. -/
theorem Ordered.absent (h : Ordered left busy except q)
    (habsent : ∀ item ∈ q.items, some item.id ≠ except) : Ordered left busy none q :=
  { h with
    fits := fun item hitem _ => h.fits item hitem (habsent item hitem)
    idle := fun _ _ => nofun }

/-- Where the excepted message fits the queue is in order. -/
theorem Ordered.admitted (h : Ordered left busy (some id) q)
    (hfits : ∀ item ∈ q.items, item.id = id → Fits left q.tables item) :
    Ordered left busy none q := by
  refine { h with fits := fun item hitem _ => ?_, idle := fun _ _ => nofun }
  by_cases hsame : item.id = id
  · exact hfits item hitem hsame
  · exact h.fits item hitem (by simpa using hsame)

/-- A message joins the queue. -/
theorem Ordered.push (h : Ordered left busy none q) (haccount : q.account ≠ none)
    {item : QueuedMessage} (hnew : ∀ other ∈ q.items, other.id ≠ item.id)
    (hidle : Idle q.tables item.id) (hstays : item.id ∉ q.arrivals) :
    Ordered left busy (some item.id) { q with items := q.items ++ [item] } := by
  refine
    { h with
      owner := fun hnone => absurd hnone haccount
      ids := ?_
      fits := fun other hother hne => ?_
      idle := fun other hother hid => Option.some.inj hid ▸ hidle
      fresh := fun id hid => ⟨fun other hother => ?_, (h.fresh id hid).2⟩ }
  · rw [List.map_append, List.nodup_append]
    refine ⟨h.ids, List.nodup_singleton _, fun a ha b hb => ?_⟩
    obtain ⟨other, hother, rfl⟩ := List.mem_map.mp ha
    obtain rfl := List.mem_singleton.mp hb
    exact hnew other hother
  · obtain hother | hother := List.mem_append.mp hother
    · exact h.fits other hother nofun
    · obtain rfl := List.mem_singleton.mp hother
      exact absurd rfl hne
  · obtain hother | hother := List.mem_append.mp hother
    · exact (h.fresh id hid).1 other hother
    · obtain rfl := List.mem_singleton.mp hother
      rintro rfl
      exact hstays hid

/-- Messages leave the queue. -/
theorem Ordered.filter (h : Ordered left busy except q) (p : QueuedMessage → Bool) :
    Ordered left busy except { q with items := q.items.filter p } :=
  { h with
    owner := fun haccount => by rw [h.owner haccount, List.filter_nil]
    ids := (List.filter_sublist.map _).nodup h.ids
    fits := fun item hitem => h.fits item (List.mem_of_mem_filter hitem)
    idle := fun item hitem => h.idle item (List.mem_of_mem_filter hitem)
    fresh := fun id hid =>
      ⟨fun item hitem => (h.fresh id hid).1 item (List.mem_of_mem_filter hitem),
        (h.fresh id hid).2⟩ }

/-! ## Interruptions -/

/-- No interruption names the message any more that one of them named. -/
theorem Ordered.unname (h : Ordered left busy none q) {i : Interruption} (hi : i ∈ q.interruptions)
    {interruptions : List Interruption} (hthreads : (interruptions.map (·.threadId)).Nodup)
    (hkept : ∀ j ∈ interruptions, j.id = none ∨ j ∈ q.interruptions)
    (hgone : ∀ item ∈ q.items, some item.id = i.id → ∀ j ∈ interruptions, j.id ≠ i.id)
    (hback : ∀ j ∈ q.interruptions, j.id ≠ i.id → j ∈ interruptions) :
    Ordered left busy i.id { q with interruptions } := by
  have hnames : ∀ id, some id ≠ i.id → ((∃ j ∈ interruptions, j.id = some id) ↔
      ∃ j ∈ q.interruptions, j.id = some id) := by
    refine fun id hne => ⟨fun ⟨j, hj, hname⟩ => ?_, fun ⟨j, hj, hname⟩ => ?_⟩
    · obtain hnone | hj := hkept j hj
      · rw [hnone] at hname
        cases hname
      · exact ⟨j, hj, hname⟩
    · exact ⟨j, hback j hj (by rw [hname]; exact hne), hname⟩
  have hold : ∀ j ∈ interruptions, j.id ≠ none → j ∈ q.interruptions := by
    intro j hj hname
    obtain hnone | hj := hkept j hj
    · exact absurd hnone hname
    · exact hj
  have hidle : ∀ id, Idle q.tables id → Idle { q.tables with interruptions } id := by
    refine fun id hidle => ⟨fun j hj hname => ?_, hidle.unsent⟩
    exact hidle.unnamed j (hold j hj (by rw [hname]; nofun)) hname
  refine
    { h with
      fits := fun item hitem hne => ?_
      idle := fun item hitem hname => ?_
      threads := hthreads
      fresh := fun id hid => ⟨(h.fresh id hid).1, hidle id (h.fresh id hid).2⟩ }
  · obtain ⟨hstopping, hhomed, hsending, howned, hprepared⟩ := h.fits item hitem nofun
    refine ⟨hstopping.trans (hnames item.id hne).symm, fun j hj hname => ?_, hsending, howned,
      hprepared⟩
    exact hhomed j (hold j hj (by rw [hname]; nofun)) hname
  · have hfits := h.fits item hitem nofun
    have hstopping := hfits.stopping.mpr ⟨i, hi, hname.symm⟩
    refine ⟨fun j hj hj_name => ?_, fun o ho ho_name => ?_⟩
    · exact hgone item hitem hname j hj (hj_name.trans hname)
    · obtain ⟨-, hpreparing⟩ := hfits.owned o ho ho_name
      have hsending := (hfits.sending hpreparing).mpr ⟨o, ho, ho_name⟩
      rw [hstopping] at hsending
      cases hsending

/-- There is one interruption that names a message of the queue. -/
theorem Ordered.named_once (h : Ordered left busy none q) {item : QueuedMessage}
    (hitem : item ∈ q.items) {i j : Interruption} (hi : i ∈ q.interruptions) (hj : j ∈ q.interruptions)
    (hi_name : i.id = some item.id) (hj_name : j.id = some item.id) : i = j := by
  have hfits := h.fits item hitem nofun
  exact h.interruption_unique hi hj
    ((hfits.homed i hi hi_name).trans (hfits.homed j hj hj_name).symm)

/-- The interruption of a thread is deleted. -/
theorem Ordered.uninterrupt (h : Ordered left busy none q) {i : Interruption}
    (hi : q.interruption threadId = some i) : Ordered left busy i.id (q.uninterrupt threadId) := by
  obtain ⟨hi, hthread⟩ := interruption_some hi
  have hmem : ∀ j, j ∈ q.interruptions.filter (fun i => i.threadId ≠ threadId) ↔
      j ∈ q.interruptions ∧ j.threadId ≠ threadId := by simp
  refine h.unname hi ((List.filter_sublist.map _).nodup h.threads)
    (fun j hj => .inr ((hmem j).mp hj).1) (fun item hitem hname j hj hsame => ?_)
    fun j hj hne => (hmem j).mpr ⟨hj, fun hsame => hne ?_⟩
  · obtain ⟨hj, hother⟩ := (hmem j).mp hj
    obtain rfl := h.named_once hitem hi hj hname.symm (hsame.trans hname.symm)
    exact hother hthread
  · rw [h.interruption_unique hj hi (hsame.trans hthread.symm)]

/-- The interruption of a thread stays, for no message. -/
theorem Ordered.unbind (h : Ordered left busy none q) {i : Interruption}
    (hi : q.interruption threadId = some i) :
    Ordered left busy i.id (q.updateInterruption threadId fun i => { i with id := none }) := by
  obtain ⟨hi, hthread⟩ := interruption_some hi
  have hmem : ∀ j ∈ q.interruptions.map (fun i =>
      if i.threadId = threadId then { i with id := none } else i),
      j.id = none ∨ j ∈ q.interruptions ∧ j.threadId ≠ threadId := by
    intro j hj
    obtain ⟨old, hold, rfl⟩ := List.mem_map.mp hj
    split
    · exact .inl rfl
    · rename_i hne
      exact .inr ⟨hold, hne⟩
  refine h.unname hi ?_ (fun j hj => (hmem j hj).imp_right And.left)
    (fun item hitem hname j hj hsame => ?_) fun j hj hne => ?_
  · have hthreads : (q.interruptions.map fun i => if i.threadId = threadId then
        { i with id := none } else i).map (·.threadId) = q.interruptions.map (·.threadId) := by
      rw [List.map_map]
      refine List.map_congr_left fun j _ => ?_
      simp only [Function.comp_apply]
      split <;> rfl
    rw [hthreads]
    exact h.threads
  · obtain hnone | ⟨hj, hother⟩ := hmem j hj
    · rw [hnone, ← hname] at hsame
      cases hsame
    · obtain rfl := h.named_once hitem hi hj hname.symm (hsame.trans hname.symm)
      exact hother hthread
  · refine List.mem_map.mpr ⟨j, hj, if_neg fun hsame => hne ?_⟩
    rw [h.interruption_unique hj hi (hsame.trans hthread.symm)]

/-- A reply is stopped for the excepted message. -/
theorem Ordered.interrupt {item : QueuedMessage} (h : Ordered left busy (some item.id) q)
    (hitem : item ∈ q.items) (hpreparing : item.preparing = false)
    (hstatus : item.status = .stopping) {i : Interruption} (hi_id : i.id = some item.id)
    (hi_thread : i.threadId = item.threadId)
    (hfree : ∀ j ∈ q.interruptions, j.threadId ≠ item.threadId) :
    Ordered left busy none { q with interruptions := q.interruptions ++ [i] } := by
  have hidle := h.idle item hitem rfl
  have hnames : ∀ id, id ≠ item.id → ∀ j ∈ q.interruptions ++ [i], j.id = some id →
      j ∈ q.interruptions := by
    intro id hne j hj hname
    obtain hj | hj := List.mem_append.mp hj
    · exact hj
    · obtain rfl := List.mem_singleton.mp hj
      rw [hi_id] at hname
      exact absurd (Option.some.inj hname).symm hne
  refine
    { h with
      fits := fun other hother _ => ?_
      idle := fun _ _ => nofun
      threads := ?_
      fresh := fun id hid => ⟨(h.fresh id hid).1, fun j hj hname => ?_, (h.fresh id hid).2.unsent⟩ }
  · by_cases hsame : other.id = item.id
    · obtain rfl := h.unique hother hitem hsame
      have hnamed : ∃ j ∈ q.interruptions ++ [i], j.id = some other.id :=
        ⟨i, List.mem_append_right _ (List.mem_singleton_self i), hi_id⟩
      refine ⟨⟨fun _ => hnamed, fun _ => hstatus⟩, fun j hj hname => ?_, fun _ => ?_,
        fun o ho hname => absurd hname (hidle.unsent o ho), fun htrue => ?_⟩
      · obtain hj | hj := List.mem_append.mp hj
        · exact absurd hname (hidle.unnamed j hj)
        · obtain rfl := List.mem_singleton.mp hj
          exact hi_thread
      · rw [hstatus]
        exact ⟨nofun, fun ⟨o, ho, hname⟩ => absurd hname (hidle.unsent o ho)⟩
      · rw [hpreparing] at htrue
        cases htrue
    · obtain ⟨hstopping, hhomed, hsending, howned, hprepared⟩ :=
        h.fits other hother (by simpa using hsame)
      refine ⟨hstopping.trans ⟨fun ⟨j, hj, hname⟩ => ?_, fun ⟨j, hj, hname⟩ => ?_⟩,
        fun j hj hname => hhomed j (hnames other.id hsame j hj hname) hname, hsending, howned,
        hprepared⟩
      · exact ⟨j, List.mem_append_left _ hj, hname⟩
      · exact ⟨j, hnames other.id hsame j hj hname, hname⟩
  · rw [List.map_append, List.nodup_append]
    refine ⟨h.threads, List.nodup_singleton _, fun a ha b hb => ?_⟩
    obtain ⟨j, hj, rfl⟩ := List.mem_map.mp ha
    obtain rfl := List.mem_singleton.mp hb
    show j.threadId ≠ i.threadId
    rw [hi_thread]
    exact hfree j hj
  · have hne : id ≠ item.id := fun hsame => (h.fresh id hid).1 item hitem hsame.symm
    exact (h.fresh id hid).2.unnamed j (hnames id hne j hj hname) hname

/-- An interruption is ready. -/
theorem Ordered.release (h : Ordered left busy none q) (threadId : String) :
    Ordered left busy none (q.updateInterruption threadId fun i => { i with ready := true }) := by
  have hsame : ∀ i : Interruption,
      (if i.threadId = threadId then { i with ready := true } else i).id = i.id ∧
        (if i.threadId = threadId then { i with ready := true } else i).threadId = i.threadId := by
    intro i
    split <;> exact ⟨rfl, rfl⟩
  have hmem : ∀ j ∈ (q.updateInterruption threadId fun i => { i with ready := true }).interruptions,
      ∃ i ∈ q.interruptions, j.id = i.id ∧ j.threadId = i.threadId := by
    intro j hj
    obtain ⟨i, hi, rfl⟩ := List.mem_map.mp hj
    exact ⟨i, hi, hsame i⟩
  have hidle : ∀ id, Idle q.tables id →
      Idle (q.updateInterruption threadId fun i => { i with ready := true }).tables id := by
    refine fun id hidle => ⟨fun j hj hname => ?_, hidle.unsent⟩
    obtain ⟨i, hi, hid, -⟩ := hmem j hj
    exact hidle.unnamed i hi (hid.symm.trans hname)
  refine
    { h with
      fits := fun item hitem _ => ?_
      idle := fun _ _ => nofun
      threads := ?_
      fresh := fun id hid => ⟨(h.fresh id hid).1, hidle id (h.fresh id hid).2⟩ }
  · obtain ⟨hstopping, hhomed, hsending, howned, hprepared⟩ := h.fits item hitem nofun
    refine ⟨hstopping.trans ⟨fun ⟨i, hi, hname⟩ => ?_, fun ⟨j, hj, hname⟩ => ?_⟩,
      fun j hj hname => ?_, hsending, howned, hprepared⟩
    · exact ⟨_, List.mem_map_of_mem hi, (hsame i).1.trans hname⟩
    · obtain ⟨i, hi, hid, -⟩ := hmem j hj
      exact ⟨i, hi, hid.symm.trans hname⟩
    · obtain ⟨i, hi, hid, hthread⟩ := hmem j hj
      exact hthread.trans (hhomed i hi (hid.symm.trans hname))
  · have hthreads : (q.updateInterruption threadId fun i =>
        { i with ready := true }).interruptions.map (·.threadId) =
          q.interruptions.map (·.threadId) := by
      simp only [updateInterruption, List.map_map]
      exact List.map_congr_left fun i _ => (hsame i).2
    rw [hthreads]
    exact h.threads

/-! ## Operations and their tasks -/

/-- The excepted message is sent, by a task that runs. -/
theorem Ordered.send (h : Ordered left busy (some id) q) {item : QueuedMessage}
    (hitem : item ∈ q.items) (hid : item.id = id) (hthread : item.threadId = threadId) (hpreparing : item.preparing = false)
    (hstatus : item.status = .sending) (hfree : ∀ o ∈ q.operations, o.2 ≠ threadId) :
    Ordered left ((id, threadId) :: busy) none
      { q with operations := q.operations ++ [(id, threadId)] } := by
  subst hid hthread
  have hidle := h.idle item hitem rfl
  have hnames : ∀ id, id ≠ item.id → ∀ o ∈ q.operations ++ [(item.id, item.threadId)], o.1 = id →
      o ∈ q.operations := by
    intro id hne o ho hname
    obtain ho | ho := List.mem_append.mp ho
    · exact ho
    · obtain rfl := List.mem_singleton.mp ho
      exact absurd hname.symm hne
  refine
    { h with
      fits := fun other hother _ => ?_
      idle := fun _ _ => nofun
      operated := ?_
      apart := ?_
      tasks := ?_
      fresh := fun id hid =>
        ⟨(h.fresh id hid).1, (h.fresh id hid).2.unnamed, fun o ho hname => ?_⟩ }
  · by_cases hsame : other.id = item.id
    · obtain rfl := h.unique hother hitem hsame
      have hnamed : ∃ o ∈ q.operations ++ [(other.id, other.threadId)], o.1 = other.id :=
        ⟨_, List.mem_append_right _ (List.mem_singleton_self _), rfl⟩
      refine ⟨?_, fun i hi hname => absurd hname (hidle.unnamed i hi),
        fun _ => ⟨fun _ => hnamed, fun _ => hstatus⟩, fun o ho hname => ?_, fun htrue => ?_⟩
      · rw [hstatus]
        exact ⟨nofun, fun ⟨i, hi, hname⟩ => absurd hname (hidle.unnamed i hi)⟩
      · obtain ho | ho := List.mem_append.mp ho
        · exact absurd hname (hidle.unsent o ho)
        · obtain rfl := List.mem_singleton.mp ho
          exact ⟨rfl, hpreparing⟩
      · rw [hpreparing] at htrue
        cases htrue
    · obtain ⟨hstopping, hhomed, hsending, howned, hprepared⟩ :=
        h.fits other hother (by simpa using hsame)
      refine ⟨hstopping, hhomed, fun hready => (hsending hready).trans
        ⟨fun ⟨o, ho, hname⟩ => ?_, fun ⟨o, ho, hname⟩ => ?_⟩,
        fun o ho hname => howned o (hnames other.id hsame o ho hname) hname, hprepared⟩
      · exact ⟨o, List.mem_append_left _ ho, hname⟩
      · exact ⟨o, hnames other.id hsame o ho hname, hname⟩
  · rw [List.map_append, List.nodup_append]
    refine ⟨h.operated, List.nodup_singleton _, fun a ha b hb => ?_⟩
    obtain ⟨o, ho, rfl⟩ := List.mem_map.mp ha
    obtain rfl := List.mem_singleton.mp hb
    exact hidle.unsent o ho
  · rw [List.map_append, List.nodup_append]
    refine ⟨h.apart, List.nodup_singleton _, fun a ha b hb => ?_⟩
    obtain ⟨o, ho, rfl⟩ := List.mem_map.mp ha
    obtain rfl := List.mem_singleton.mp hb
    exact hfree o ho
  · rw [List.cons_append]
    exact (h.tasks.cons _).trans (List.perm_append_singleton _ _).symm
  · have hne : id ≠ item.id := fun hsame => (h.fresh id hid).1 item hitem hsame.symm
    exact (h.fresh id hid).2.unsent o (hnames id hne o ho hname) hname

/-- The operation of a task that runs ends, and excepts its message. -/
theorem Ordered.finish (h : Ordered left ((id, threadId) :: busy) none q) :
    Ordered left busy (some id)
      { q with operations := q.operations.filter fun operation => operation.1 ≠ id } := by
  have hmem : ∀ o, o ∈ q.operations.filter (fun operation => operation.1 ≠ id) ↔
      o ∈ q.operations ∧ o.1 ≠ id := by simp
  have hoperation : (id, threadId) ∈ q.operations := h.tasks.subset List.mem_cons_self
  refine
    { h with
      fits := fun item hitem hne => ?_
      idle := fun item hitem hname => ?_
      operated := (List.filter_sublist.map _).nodup h.operated
      apart := (List.filter_sublist.map _).nodup h.apart
      tasks := ?_
      fresh := fun id hid => ⟨(h.fresh id hid).1, (h.fresh id hid).2.unnamed,
        fun o ho => (h.fresh id hid).2.unsent o ((hmem o).mp ho).1⟩ }
  · obtain ⟨hstopping, hhomed, hsending, howned, hprepared⟩ := h.fits item hitem nofun
    refine ⟨hstopping, hhomed, fun hready => (hsending hready).trans
      ⟨fun ⟨o, ho, hname⟩ => ?_, fun ⟨o, ho, hname⟩ => ?_⟩,
      fun o ho hname => howned o ((hmem o).mp ho).1 hname, hprepared⟩
    · refine ⟨o, (hmem o).mpr ⟨ho, fun hsame => hne ?_⟩, hname⟩
      rw [← hname, hsame]
    · exact ⟨o, ((hmem o).mp ho).1, hname⟩
  · have hid : item.id = id := Option.some.inj hname
    have hfits := h.fits item hitem nofun
    obtain ⟨-, hready⟩ := hfits.owned _ hoperation hid.symm
    have hsending := (hfits.sending hready).mpr ⟨_, hoperation, hid.symm⟩
    refine ⟨fun i hi hi_name => ?_, fun o ho ho_name => ((hmem o).mp ho).2 (ho_name.trans hid)⟩
    have hstopping := hfits.stopping.mpr ⟨i, hi, hi_name⟩
    rw [hstopping] at hsending
    cases hsending
  · have herase : q.operations.filter (fun o => o.1 ≠ id) = q.operations.erase (id, threadId) := by
      rw [h.operated.of_map.erase_eq_filter]
      refine List.filter_congr fun o ho => ?_
      have hsame : o.1 = id ↔ o = (id, threadId) :=
        ⟨fun hid => List.inj_on_of_nodup_map h.operated ho hoperation hid, congrArg Prod.fst⟩
      rw [Bool.eq_iff_iff, decide_eq_true_eq, bne_iff_ne]
      exact not_congr hsame
    have htasks := h.tasks.erase (id, threadId)
    rw [List.cons_append, List.erase_cons_head] at htasks
    exact htasks.trans (.of_eq herase.symm)

/-- What a task of the list is about, beside what the others are about. -/
theorem eraseIdx_split {α : Type} {l : List α} {n : Nat} {a : α} (h : l[n]? = some a) :
    ∃ xs ys, l = xs ++ a :: ys ∧ l.eraseIdx n = xs ++ ys := by
  obtain ⟨hn, rfl⟩ := List.getElem?_eq_some_iff.mp h
  refine ⟨l.take n, l.drop (n + 1), ?_, List.eraseIdx_eq_take_drop_succ ..⟩
  rw [List.getElem_cons_drop, List.take_append_drop]

/-- A task that waits goes on. -/
theorem Ordered.run (h : Ordered left [] none q) {n : Nat} {task : Task}
    (hn : q.pending[n]? = some task) :
    Ordered left (task.sends q.generation).toList none
      { q with pending := q.pending.eraseIdx n } := by
  obtain ⟨xs, ys, hpending, herase⟩ := eraseIdx_split hn
  have hsub : (q.pending.eraseIdx n).Sublist q.pending := List.eraseIdx_sublist ..
  have harrivals : ((q.pending.eraseIdx n).flatMap (Task.restores q.generation)).Sublist
      q.arrivals := by
    rw [arrivals, herase, hpending, List.flatMap_append, List.flatMap_append, List.flatMap_cons]
    exact (List.sublist_append_right ..).append_left _
  have hbefore : q.sent = xs.filterMap (Task.sends q.generation) ++
      ((task.sends q.generation).toList ++ ys.filterMap (Task.sends q.generation)) := by
    rw [sent, hpending, List.filterMap_append, List.filterMap_cons]
    cases task.sends q.generation <;> rfl
  have hafter : (q.pending.eraseIdx n).filterMap (Task.sends q.generation) =
      xs.filterMap (Task.sends q.generation) ++ ys.filterMap (Task.sends q.generation) := by
    rw [herase, List.filterMap_append]
  refine
    { h with
      tasks := ?_
      awaited := fun haccount => List.sublist_nil.mp (h.awaited haccount ▸ harrivals)
      past := fun task htask => h.past task (hsub.subset htask)
      arriving := harrivals.nodup h.arriving
      fresh := fun id hid => h.fresh id (harrivals.subset hid) }
  refine .trans ?_ h.tasks
  rw [List.nil_append, hbefore, sent, hafter]
  exact List.perm_append_comm_assoc ..

/-- A task that runs waits. -/
theorem Ordered.wait {task : Task}
    (h : Ordered left ((task.sends q.generation).toList ++ busy) none q)
    (hpast : task.generation ≤ q.generation) (hnodup : (task.restores q.generation).Nodup)
    (hfresh : ∀ id ∈ task.restores q.generation,
      id ∉ q.arrivals ∧ (∀ item ∈ q.items, item.id ≠ id) ∧ Idle q.tables id)
    (haccount : q.account = none → task.restores q.generation = []) :
    Ordered left busy none (q.await task) := by
  have harrivals : (q.await task).arrivals = q.arrivals ++ task.restores q.generation := by
    simp [arrivals, await]
  refine
    { h with
      awaited := fun hnone => by
        rw [harrivals, h.awaited hnone, haccount hnone, List.append_nil]
      tasks := ?_
      past := fun other hother => ?_
      arriving := ?_
      fresh := fun id hid => ?_ }
  · refine .trans ?_ h.tasks
    have hsent : (q.await task).sent = q.sent ++ (task.sends q.generation).toList := by
      simp only [sent, await, List.filterMap_append]
      cases hsends : task.sends q.generation <;> simp [hsends]
    rw [hsent, List.append_assoc, ← List.append_assoc busy]
    exact List.perm_append_comm
  · obtain hother | hother := List.mem_append.mp hother
    · exact h.past other hother
    · obtain rfl := List.mem_singleton.mp hother
      exact hpast
  · rw [harrivals]
    exact List.nodup_append.mpr ⟨h.arriving, hnodup, fun a ha b hb hab =>
      (hfresh b hb).1 (hab ▸ ha)⟩
  · rw [harrivals] at hid
    obtain hid | hid := List.mem_append.mp hid
    · exact h.fresh id hid
    · exact (hfresh id hid).2

/-- A task that runs waits, where it sends nothing and restores nothing. -/
theorem Ordered.wait' {task : Task} (h : Ordered left busy none q)
    (hpast : task.generation ≤ q.generation) (hsends : task.sends q.generation = none)
    (hrestores : task.restores q.generation = []) : Ordered left busy none (q.await task) := by
  refine Ordered.wait (by rwa [hsends]) hpast ?_ ?_ fun _ => hrestores <;> rw [hrestores]
  · exact List.nodup_nil
  · nofun

/-- A task that sends a message waits. -/
theorem Ordered.waitDispatch {item : QueuedMessage} 
    (h : Ordered left ((item.id, item.threadId) :: busy) none q) (api : QueueApi)
    (stage : DispatchStage) :
    Ordered left busy none (q.await (.dispatch q.generation item api stage)) := by
  have hsends : Task.sends q.generation (.dispatch q.generation item api stage) =
      some (item.id, item.threadId) := if_pos rfl
  refine Ordered.wait (by rwa [hsends]) le_rfl ?_ ?_ fun _ => rfl
  · exact List.nodup_nil
  · nofun

/-! ## Setups -/

/-- The setup of the excepted message is under way. -/
theorem Ordered.prepare {item : QueuedMessage} (h : Ordered left busy (some item.id) q)
    (hitem : item ∈ q.items) (hpreparing : item.preparing = true)
    (hstatus : item.status = .sending) :
    Ordered left busy none { q with preparations := q.preparations ++ [item.id] } := by
  have hidle := h.idle item hitem rfl
  refine
    { h with
      fits := fun other hother _ => ?_
      idle := fun _ _ => nofun
      fresh := fun id hid =>
        ⟨(h.fresh id hid).1, (h.fresh id hid).2.unnamed, (h.fresh id hid).2.unsent⟩ }
  by_cases hsame : other.id = item.id
  · obtain rfl := h.unique hother hitem hsame
    refine ⟨?_, fun i hi hname => absurd hname (hidle.unnamed i hi), fun hready => ?_,
      fun o ho hname => absurd hname (hidle.unsent o ho), fun _ => ⟨?_, fun _ => ?_⟩⟩
    · rw [hstatus]
      exact ⟨nofun, fun ⟨i, hi, hname⟩ => absurd hname (hidle.unnamed i hi)⟩
    · rw [hpreparing] at hready
      cases hready
    · rw [hstatus]
      nofun
    · exact .inl (List.mem_append_right _ (List.mem_singleton_self _))
  · have hfits := h.fits other hother (by simpa using hsame)
    exact { hfits with
      prepared := fun hother_preparing => ⟨(hfits.prepared hother_preparing).1, fun hsending =>
        ((hfits.prepared hother_preparing).2 hsending).imp_left (List.mem_append_left _)⟩ }

/-- The excepted message is left without a setup. -/
theorem Ordered.leave {item : QueuedMessage} (h : Ordered left busy (some item.id) q)
    (hitem : item ∈ q.items) (hpreparing : item.preparing = true)
    (hstatus : item.status = .sending) (hleft : item.id ∈ left) : Ordered left busy none q := by
  have hidle := h.idle item hitem rfl
  refine h.admitted fun other hother hsame => ?_
  obtain rfl := h.unique hother hitem hsame
  refine ⟨?_, fun i hi hname => absurd hname (hidle.unnamed i hi), fun hready => ?_,
    fun o ho hname => absurd hname (hidle.unsent o ho), fun _ => ⟨?_, fun _ => .inr hleft⟩⟩
  · rw [hstatus]
    exact ⟨nofun, fun ⟨i, hi, hname⟩ => absurd hname (hidle.unnamed i hi)⟩
  · rw [hpreparing] at hready
    cases hready
  · rw [hstatus]
    nofun

/-- The setup of a message is over that is not being set up. -/
theorem Ordered.prepared (h : Ordered left busy none q)
    (hover : ∀ item ∈ q.items, item.id = id → item.preparing = true → item.status ≠ .sending) :
    Ordered left busy none (q.prepared id) := by
  refine
    { h with
      fits := fun item hitem _ => ?_
      idle := fun _ _ => nofun
      fresh := fun id hid =>
        ⟨(h.fresh id hid).1, (h.fresh id hid).2.unnamed, (h.fresh id hid).2.unsent⟩ }
  have hfits := h.fits item hitem nofun
  refine { hfits with
    prepared := fun hpreparing => ⟨(hfits.prepared hpreparing).1, fun hsending => ?_⟩ }
  have hne : item.id ≠ id := fun hsame => hover item hitem hsame hpreparing hsending
  exact ((hfits.prepared hpreparing).2 hsending).imp_left fun hmem =>
    List.mem_filter.mpr ⟨hmem, by simpa using hne⟩

/-! ## Generations -/

theorem arrivals_past (h : ∀ task ∈ q.pending, task.generation < q.generation) :
    q.arrivals = [] :=
  List.flatMap_eq_nil_iff.mpr fun task htask => Task.restores_past (h task htask)

theorem sent_past (h : ∀ task ∈ q.pending, task.generation < q.generation) : q.sent = [] :=
  List.filterMap_eq_nil_iff.mpr fun task htask => Task.sends_past (h task htask)

/-- A generation begins without messages. -/
theorem Ordered.nextGeneration (h : Ordered left busy except q) {q' : MessageQueue}
    (hitems : q'.items = []) (hoperations : q'.operations = [])
    (hinterruptions : q'.interruptions = []) (hpending : q'.pending = q.pending)
    (hgeneration : q'.generation = q.generation + 1) (hstorage : q'.storage = q.storage) :
    Ordered left [] none q' ∧ q'.arrivals = [] := by
  have hpast : ∀ task ∈ q'.pending, task.generation < q'.generation := by
    intro task htask
    rw [hgeneration]
    exact Nat.lt_succ_of_le (h.past task (hpending ▸ htask))
  have hsent := sent_past hpast
  have harrivals := arrivals_past hpast
  refine ⟨?_, harrivals⟩
  refine ⟨fun _ => hitems, fun _ => harrivals, ?_, ?_, ?_, ?_, ?_, ?_, ?_,
    fun task htask => (hpast task htask).le, ?_, ?_, hstorage ▸ h.stored⟩
  · rw [hitems]
    exact List.nodup_nil
  · rw [hitems]
    nofun
  · rw [hitems]
    nofun
  · rw [hinterruptions]
    exact List.nodup_nil
  · rw [hoperations]
    exact List.nodup_nil
  · rw [hoperations]
    exact List.nodup_nil
  · rw [hsent, hoperations]
    exact .nil
  · rw [harrivals]
    exact List.nodup_nil
  · rw [harrivals]
    nofun

end AxiomDesktop.MessageQueue
