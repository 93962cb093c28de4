import AxiomDesktop.Client.AcpClient
import AxiomDesktop.Client.TextDelivery
import AxiomDesktop.Lib.Table

/-!
# The repair of a gap

`gap_repair_complete`: in every run whose gaps are reported while no full resync and no refresh of
a loaded thread is under way, `fullResyncRequired` stays until the three lists are answered by
requests sent after the last gap, and a session loaded at it asks for a resync until its timeline is
replaced from pages requested since. `shared_taken_for_repair` has the runs that the condition
leaves out: what is under way is shared with the repair, and ends it.
-/

namespace AxiomDesktop.Client

namespace AxiomStateStore

variable {env : Environment} {t sessionId : String} {s s' s'' : AxiomStateStore}

/-! ## Sessions go on asking -/

/-- Within one account context, the thread's session stays, and one that asks for a resync still
does. -/
structure Keeps (t : String) (s s' : AxiomStateStore) : Prop where
  generation : s.accountContextGeneration ≤ s'.accountContextGeneration
  session : s'.accountContextGeneration = s.accountContextGeneration →
    ∀ x, s.sessions t = some x →
      ∃ x', s'.sessions t = some x' ∧ (x.needsResync = true → x'.needsResync = true)

theorem Carries.keeps (h : Carries t s s') : Keeps t s s' := ⟨h.generation, h.session⟩

theorem Keeps.trans (h : Keeps t s s') (h' : Keeps t s' s'') : Keeps t s s'' := by
  have hg := h.generation
  have hg' := h'.generation
  refine ⟨by omega, ?_⟩
  intro e x hx
  obtain ⟨x', hx', hf⟩ := h.session (by omega) x hx
  obtain ⟨x'', hx'', hf'⟩ := h'.session (by omega) x' hx'
  exact ⟨x'', hx'', hf' ∘ hf⟩

theorem keeps_deliverChunk (random : Nat → String) (metadata : Option DeliveryMetadata)
    (kind : ItemKind) (update : Json) :
    Keeps t s (s.deliverChunk random sessionId metadata kind update) := by
  unfold deliverChunk
  split
  · exact (Carries.refl s).keeps
  · have hput : Carries t s (s.withSession sessionId fun session =>
        { session with timeline := applyChunk random metadata kind update session.timeline }) :=
      carries_withSession fun x hx => hx
    cases metadata with
    | none => exact hput.keeps
    | some m => exact ⟨hput.generation, hput.session⟩

theorem keeps_standardUpdate (random : Nat → String) (params : Json) :
    Keeps t s (s.standardUpdate random params) := by
  have hdeliver : ∀ (u : AxiomStateStore) (id : String) (metadata : Option DeliveryMetadata)
      (update : Json), Keeps t u (u.deliver random id metadata update) := by
    intro u id metadata update
    unfold deliver
    dsimp only
    split
    · exact keeps_deliverChunk _ _ _ _
    · exact (carries_applyOther _ _ _ _).keeps
  unfold standardUpdate
  split
  · exact (Carries.refl s).keeps
  · split
    · unfold updateSession
      dsimp only
      split
      · exact carries_putSame.keeps.trans (hdeliver _ _ none _)
      · next m _ =>
        split
        · exact carries_putSame.keeps
        · exact (carries_advance m).keeps.trans (hdeliver _ _ (some m) _)
    · exact (Carries.refl s).keeps

theorem keeps_apply {op : StoreOp} (h : op.isAnswer = true) (hr : op ≠ .removeSession t) :
    Keeps t s (s.apply env op) := by
  refine (carries_apply op ?_ hr).keeps
  cases op <;> first | exact id | cases h

theorem keeps_extensionEvent {notification : EventNotification}
    {result : Except String (Option ExtensionEventResult)}
    (h : s.extensionEvent env notification = (s', result)) : Keeps t s s' := by
  have hcarries : Carries t s (s.extensionEvent env notification).1 :=
    carries_extensionEvent notification
  rw [h] at hcarries
  exact hcarries.keeps

/-- A gap that keeps the runtime makes every session ask for a resync. -/
theorem observeEvent_gap {notification : EventNotification} {id : String}
    (hid : s.runtimeInstanceId = some id)
    (hgap : (id ≠ notification.runtimeInstanceId ∨ s.lastSequence + 1 < notification.sequence)) :
    s.accountContextGeneration < (s.observeEvent notification).accountContextGeneration ∨
      ∀ t x, s.sessions t = some x →
        (s.observeEvent notification).sessions t = some { x with needsResync := true } := by
  unfold observeEvent
  by_cases hsame : id = notification.runtimeInstanceId
  · refine Or.inr ?_
    intro t x hx
    have hlast := hgap.resolve_left fun h => h hsame
    simp [hid, hsame, hlast, editSessions, hx]
  · refine Or.inl ?_
    simp [hid, hsame, clearContext]

/-- What a gap within one account context does: every session that is loaded asks for a resync. -/
theorem extensionEvent_gap {notification : EventNotification} {result : ExtensionEventResult}
    (h : s.extensionEvent env notification = (s', .ok (some result)))
    (hgap : result.fullResync = true)
    (hg : s'.accountContextGeneration = s.accountContextGeneration) (x : ClientSessionState)
    (hx : s.sessions t = some x) :
    ∃ x', s'.sessions t = some x' ∧ x'.needsResync = true := by
  have happly : Carries t (s.observeEvent notification) ((s.observeEvent notification).applyActivity
      env notification.sessionId notification.event).1 := carries_applyActivity _ _
  unfold extensionEvent at h
  split at h
  · cases h
  · dsimp only at h
    split at h
    · cases h
    · next u _ hok =>
      rw [hok] at happly
      simp only [Prod.mk.injEq, Except.ok.injEq, Option.some.injEq] at h
      obtain ⟨rfl, rfl⟩ := h
      have hcarries : Carries t (s.observeEvent notification) (u.advanceByEvent notification) :=
        happly.trans (carries_advanceByEvent notification)
      cases hid : s.runtimeInstanceId with
      | none => simp [hid] at hgap
      | some id =>
        simp only [hid, Option.any_some, Bool.or_eq_true, decide_eq_true_eq] at hgap
        obtain hnew | hsessions := observeEvent_gap hid hgap
        · have := hcarries.generation
          omega
        · have hobserve : Carries t s (s.observeEvent notification) := carries_observeEvent _
          have hle := hobserve.generation
          have hle' := hcarries.generation
          obtain ⟨x', hx', hneeds⟩ := hcarries.session (by omega) _ (hsessions t x hx)
          exact ⟨x', hx', hneeds rfl⟩

/-- A replacement that is put off asks the session for a resync. -/
theorem replaceTimeline_false {first : GetThreadTimelineResponse}
    {rest : List GetThreadTimelineResponse}
    (h : s.replaceTimeline env (first :: rest) = .ok (s', false)) :
    s' = s.editSession first.thread.threadId fun x => { x with needsResync := true } := by
  simp only [replaceTimeline] at h
  split_ifs at h
  all_goals simp only [Except.ok.injEq, Prod.mk.injEq, reduceCtorEq, and_false] at h
  exact h.1.symm

theorem replaceTimeline_generation {first : GetThreadTimelineResponse}
    {rest : List GetThreadTimelineResponse} {replaced : Bool}
    (h : s.replaceTimeline env (first :: rest) = .ok (s', replaced)) :
    s'.accountContextGeneration = s.accountContextGeneration := by
  obtain rfl | ⟨-, f, -, rfl⟩ := replaceTimeline_cases h <;> rfl

theorem setCatalog_generation (catalog : List ThreadSummary) :
    (s.setCatalog catalog).accountContextGeneration = s.accountContextGeneration := by
  unfold setCatalog
  generalize hu : ({ s with catalog } : AxiomStateStore) = u
  have hgeneration : u.accountContextGeneration = s.accountContextGeneration := by rw [← hu]
  rw [← hgeneration]
  clear hu hgeneration
  induction catalog generalizing u with
  | nil => rfl
  | cons thread threads ih =>
    rw [List.foldl_cons, ih]
    split <;> rfl

end AxiomStateStore

namespace AxiomAcpClient

variable {env : Environment} {c c' : AxiomAcpClient}

/-! ## The invariant -/

/-- The list of a kind has been answered by requests sent after the last gap. -/
def Answered (c : AxiomAcpClient) (kind : ListKind) : Prop := c.log.answered kind = c.log.gaps

/-- The call will answer the list of a kind with requests sent after the last gap, or has, or is
rejected. -/
def Awaits (c : AxiomAcpClient) (kind : ListKind) (id : Nat) : Prop :=
  (∃ call, c.calls id = some ⟨call, c.log.gaps⟩ ∧ call.kind? = some kind) ∨ id ∈ c.rejected ∨
    c.Answered kind

/-- The call of a list a full resync waits for. -/
def resyncCall (threads collections preferences : Nat) : ListKind → Nat
  | .threads => threads
  | .collections => collections
  | .preferences => preferences

/-- A call counts for the repair: it was sent after the last gap, if it fetches a stale thread. -/
def Counts (c : AxiomAcpClient) (pending : PendingCall) : Prop :=
  pending.since ≤ c.log.gaps ∧ ∀ fetch, pending.call = .fetchTimeline fetch →
    c.log.stale fetch.threadId = true → pending.since = c.log.gaps

/-- **The invariant** of a client whose gaps find nothing under way. -/
structure Repairing (c : AxiomAcpClient) : Prop where
  counts : ∀ id pending, c.calls id = some pending → c.Counts pending
  answered : ∀ kind, c.log.answered kind ≤ c.log.gaps
  fresh : ∀ id, c.nextCall ≤ id → c.calls id = none
  lists : ∀ a b d, c.fullResync = some (.lists a b d) →
    ∀ kind, resyncCall a b d kind < c.nextCall ∧ c.Awaits kind (resyncCall a b d kind)
  refreshes : ∀ calls, c.fullResync = some (.refreshes calls) → ∀ kind, c.Answered kind
  clear : c.fullResyncRequired = false → ∀ kind, c.Answered kind
  stale : ∀ t, c.log.stale t = true →
    ∃ x, c.store.sessions t = some x ∧ x.needsResync = true

/-- The store goes on, with every stale session still asking. -/
theorem Repairing.withStore (h : Repairing c) {store : AxiomStateStore}
    (hk : ∀ t, c.log.stale t = true → ∃ x, store.sessions t = some x ∧ x.needsResync = true) :
    Repairing { c with store } :=
  ⟨h.counts, h.answered, h.fresh, h.lists, h.refreshes, h.clear, hk⟩

theorem Repairing.keeps (h : Repairing c) {store : AxiomStateStore} {t : String}
    (hk : AxiomStateStore.Keeps t c.store store)
    (hg : store.accountContextGeneration = c.store.accountContextGeneration)
    (ht : c.log.stale t = true) :
    ∃ x, store.sessions t = some x ∧ x.needsResync = true := by
  obtain ⟨x, hx, hneeds⟩ := h.stale t ht
  obtain ⟨x', hx', hneeds'⟩ := hk.session hg x hx
  exact ⟨x', hx', hneeds' hneeds⟩

/-! ## Calls -/

/-- A call is sent. -/
theorem Repairing.send (h : Repairing c) (call : ClientCall) : Repairing (c.send call) := by
  have hnew : ∀ id, id < c.nextCall → (c.send call).calls id = c.calls id := by
    intro id hid
    exact Function.update_of_ne (by omega) _ _
  refine ⟨?_, h.answered, ?_, ?_, h.refreshes, h.clear, h.stale⟩
  · refine Table.forall_update h.counts ?_
    exact ⟨Nat.le_refl _, fun _ _ _ => rfl⟩
  · intro id hid
    have hid : c.nextCall + 1 ≤ id := hid
    refine (Function.update_of_ne (by omega) _ _).trans (h.fresh id (by omega))
  · intro a b d hr kind
    obtain ⟨hlt, hawaits⟩ := h.lists a b d hr kind
    refine ⟨Nat.lt_succ_of_lt hlt, ?_⟩
    unfold Awaits
    rw [hnew _ hlt]
    exact hawaits

/-- A call goes on: to another request, or to its end. Where a full resync waits for it, it goes on
as a call for the same list, or the list is answered, or its promise is rejected. -/
theorem Repairing.settle (h : Repairing c) {id : Nat} {next : Option PendingCall}
    {rejected : List Nat} {log : GapLog} {store : AxiomStateStore} {pending : PendingCall}
    (hid : c.calls id = some pending) (hnext : ∀ p, next = some p → c.Counts p)
    (hgaps : log.gaps = c.log.gaps) (hstale : ∀ t, log.stale t = true → c.log.stale t = true)
    (hrejected : c.rejected ⊆ rejected)
    (hanswered : ∀ kind, c.log.answered kind ≤ log.answered kind ∧ log.answered kind ≤ c.log.gaps)
    (hkind : ∀ kind, pending.call.kind? = some kind → pending.since = c.log.gaps →
      (∃ call, next = some ⟨call, c.log.gaps⟩ ∧ call.kind? = some kind) ∨ id ∈ rejected ∨
        log.answered kind = c.log.gaps)
    (hk : ∀ t, log.stale t = true → ∃ x, store.sessions t = some x ∧ x.needsResync = true) :
    Repairing { c with calls := Function.update c.calls id next, rejected, log, store } := by
  have hkeeps : ∀ kind, c.Answered kind → log.answered kind = log.gaps := by
    intro kind ha
    have ha : c.log.answered kind = c.log.gaps := ha
    have := hanswered kind
    omega
  have hcounts : ∀ p, c.Counts p →
      Counts { c with calls := Function.update c.calls id next, rejected, log, store } p := by
    intro p hp
    refine ⟨hgaps ▸ hp.1, fun fetch hfetch ht => ?_⟩
    show p.since = log.gaps
    rw [hgaps]
    exact hp.2 fetch hfetch (hstale _ ht)
  refine ⟨?_, ?_, ?_, ?_, ?_, ?_, ?_⟩
  · intro i p hp
    have hp : Function.update c.calls id next i = some p := hp
    by_cases hi : i = id
    · subst hi
      rw [Function.update_self] at hp
      exact hcounts p (hnext p hp)
    · rw [Function.update_of_ne hi] at hp
      exact hcounts p (h.counts i p hp)
  · intro kind
    have := hanswered kind
    show log.answered kind ≤ log.gaps
    omega
  · intro i hi
    have hne : i ≠ id := by
      rintro rfl
      rw [h.fresh i hi] at hid
      cases hid
    exact (Function.update_of_ne hne _ _).trans (h.fresh i hi)
  · intro a b d hr kind
    obtain ⟨hlt, hawaits⟩ := h.lists a b d hr kind
    refine ⟨hlt, ?_⟩
    obtain ⟨call, hcall, hcallkind⟩ | hrej | ha := hawaits
    · by_cases hi : resyncCall a b d kind = id
      · rw [hi, hid, Option.some.injEq] at hcall
        subst hcall
        obtain ⟨call', hnext', hkind'⟩ | hrej | ha := hkind kind hcallkind rfl
        · refine Or.inl ⟨call', ?_, hkind'⟩
          show Function.update c.calls id next _ = some ⟨call', log.gaps⟩
          rw [hi, Function.update_self, hnext', hgaps]
        · exact Or.inr (Or.inl (hi ▸ hrej))
        · exact Or.inr (Or.inr (ha.trans hgaps.symm))
      · refine Or.inl ⟨call, ?_, hcallkind⟩
        show Function.update c.calls id next _ = some ⟨call, log.gaps⟩
        rw [Function.update_of_ne hi, hcall, hgaps]
    · exact Or.inr (Or.inl (hrejected hrej))
    · exact Or.inr (Or.inr (hkeeps kind ha))
  · intro calls hr kind
    exact hkeeps kind (h.refreshes calls hr kind)
  · intro hr kind
    exact hkeeps kind (h.clear hr kind)
  · exact hk

theorem Repairing.reject (h : Repairing c) {id : Nat} {pending : PendingCall}
    (hid : c.calls id = some pending) : Repairing (c.reject id) :=
  h.settle hid nofun rfl (fun _ ht => ht) (List.subset_cons_self _ _)
    (fun kind => ⟨Nat.le_refl _, h.answered kind⟩)
    (fun _ _ _ => Or.inr (Or.inl List.mem_cons_self)) h.stale

theorem Repairing.resend (h : Repairing c) {id since since' : Nat} {call call' : ClientCall}
    (hid : c.calls id = some ⟨call, since⟩) (hcounts : c.Counts ⟨call', since'⟩)
    (hkind : ∀ kind, call.kind? = some kind → call'.kind? = some kind ∧ since' = since) :
    Repairing (c.resend id call' since') := by
  refine h.settle hid ?_ rfl (fun _ ht => ht) (List.Subset.refl _)
    (fun kind => ⟨Nat.le_refl _, h.answered kind⟩) ?_ h.stale
  · rintro p ⟨⟩
    exact hcounts
  · intro kind hk hs
    obtain ⟨hk', hs'⟩ := hkind kind hk
    have hs : since = c.log.gaps := hs
    exact Or.inl ⟨call', by rw [hs', hs], hk'⟩

theorem answer_fields (log : GapLog) (call : ClientCall) (since : Nat) :
    (log.answer call since).gaps = log.gaps ∧ (log.answer call since).stale = log.stale ∧
      ∀ kind, (log.answer call since).answered kind =
        if call.kind? = some kind then max (log.answered kind) since else log.answered kind := by
  unfold GapLog.answer
  cases hk : call.kind? with
  | none => simp
  | some kind' =>
    refine ⟨rfl, rfl, ?_⟩
    intro kind
    by_cases he : kind = kind'
    · subst he
      simp
    · have he' : kind' ≠ kind := fun e => he e.symm
      simp [he, he']

/-- An answer is applied. -/
theorem Repairing.complete (h : Repairing c) {id since : Nat} {call : ClientCall}
    {store : AxiomStateStore} (hid : c.calls id = some ⟨call, since⟩)
    (hk : ∀ t, c.log.stale t = true → ∃ x, store.sessions t = some x ∧ x.needsResync = true) :
    Repairing (c.complete id call since store) := by
  obtain ⟨hgaps, hstale, hanswered⟩ := answer_fields c.log call since
  have hsince : since ≤ c.log.gaps := (h.counts id _ hid).1
  refine h.settle hid nofun hgaps (fun t ht => hstale ▸ ht) (List.Subset.refl _) ?_ ?_ (hstale ▸ hk)
  · intro kind
    have := h.answered kind
    rw [hanswered]
    split <;> omega
  · intro kind hkind hs
    have hs : since = c.log.gaps := hs
    have := h.answered kind
    refine Or.inr (Or.inr ?_)
    rw [hanswered, if_pos hkind]
    omega

/-- The flags that no part of the invariant reads. -/
theorem Repairing.withRefreshing (h : Repairing c) (refreshing : Nat × String → Option Nat) :
    Repairing { c with refreshingThreads := refreshing } :=
  ⟨h.counts, h.answered, h.fresh, h.lists, h.refreshes, h.clear, h.stale⟩

/-- The full resync comes to another point, or its flag is set. -/
theorem Repairing.withResync (h : Repairing c) {required : Bool} {resync : Option FullResync}
    (hlists : ∀ a b d, resync = some (.lists a b d) → c.fullResync = resync)
    (hrefreshes : ∀ calls, resync = some (.refreshes calls) → ∀ kind, c.Answered kind)
    (hclear : required = false → ∀ kind, c.Answered kind) :
    Repairing { c with fullResyncRequired := required, fullResync := resync } := by
  refine ⟨h.counts, h.answered, h.fresh, ?_, hrefreshes, hclear, h.stale⟩
  intro a b d hr
  exact h.lists a b d ((hlists a b d hr).trans hr)

theorem Repairing.refreshThread (h : Repairing c) (threadId : String) :
    Repairing (c.refreshThread threadId).1 := by
  unfold AxiomAcpClient.refreshThread
  split
  · exact h
  · exact (h.send _).withRefreshing _

theorem Repairing.refreshThreads (h : Repairing c) (threadIds : List String) :
    Repairing (refreshThreads threadIds c).1 := by
  induction threadIds generalizing c with
  | nil => exact h
  | cons threadId threadIds ih => exact ih (h.refreshThread threadId)

theorem refreshThreads_log (threadIds : List String) :
    (refreshThreads threadIds c).1.log = c.log ∧
      (refreshThreads threadIds c).1.fullResyncRequired = c.fullResyncRequired := by
  induction threadIds generalizing c with
  | nil => exact ⟨rfl, rfl⟩
  | cons threadId threadIds ih =>
    have hone : (c.refreshThread threadId).1.log = c.log ∧
        (c.refreshThread threadId).1.fullResyncRequired = c.fullResyncRequired := by
      unfold AxiomAcpClient.refreshThread
      split <;> exact ⟨rfl, rfl⟩
    obtain ⟨hlog, hrequired⟩ := ih (c := (c.refreshThread threadId).1)
    exact ⟨hlog.trans hone.1, hrequired.trans hone.2⟩

theorem Repairing.resyncAll (h : Repairing c) : Repairing c.resyncAll := by
  unfold AxiomAcpClient.resyncAll
  split
  · exact h
  · have hsent := ((h.send (.listThreads c.accountContextToken {} none [] 0)).send
      (.listCollections c.accountContextToken)).send (.getProfilePreferences c.accountContextToken)
    refine ⟨hsent.counts, hsent.answered, hsent.fresh, ?_, nofun, hsent.clear, hsent.stale⟩
    rintro a b d ⟨⟩ kind
    cases kind with
    | threads =>
      refine ⟨show c.nextCall < c.nextCall + 1 + 1 + 1 by omega, Or.inl ?_⟩
      refine ⟨.listThreads c.accountContextToken {} none [] 0, ?_, by simp [ClientCall.kind?]⟩
      have hne : c.nextCall ≠ c.nextCall + 1 + 1 := by omega
      simp [resyncCall, listThreads, listCollections, getProfilePreferences,
        AxiomAcpClient.send, hne]
    | collections =>
      refine ⟨show c.nextCall + 1 < c.nextCall + 1 + 1 + 1 by omega, Or.inl ?_⟩
      refine ⟨.listCollections c.accountContextToken, ?_, rfl⟩
      simp [resyncCall, listThreads, listCollections, getProfilePreferences,
        AxiomAcpClient.send, accountContextToken]
    | preferences =>
      refine ⟨show c.nextCall + 2 < c.nextCall + 1 + 1 + 1 by omega, Or.inl ?_⟩
      refine ⟨.getProfilePreferences c.accountContextToken, ?_, rfl⟩
      simp [resyncCall, listThreads, listCollections, getProfilePreferences,
        AxiomAcpClient.send, accountContextToken]

theorem Repairing.resyncContinues (h : Repairing c) (sessions : List String) :
    Repairing (c.resyncContinues sessions) := by
  unfold AxiomAcpClient.resyncContinues
  split
  · next a b d hresync =>
    split
    · exact h.withResync nofun nofun h.clear
    · split
      · next hrejected hfulfilled =>
        have hanswered : ∀ kind, c.Answered kind := by
          intro kind
          obtain ⟨-, hawaits⟩ := h.lists a b d hresync kind
          have hmem : resyncCall a b d kind ∈ [a, b, d] := by cases kind <;> simp [resyncCall]
          have hf := List.all_eq_true.mp hfulfilled _ hmem
          simp only [isFulfilled, Bool.and_eq_true, Option.isNone_iff_eq_none, Bool.not_eq_true',
            List.contains_eq_mem, decide_eq_false_iff_not] at hf
          obtain ⟨call, hcall, -⟩ | hrej | ha := hawaits
          · rw [hf.1] at hcall
            cases hcall
          · exact absurd hrej hf.2
          · exact ha
        have hd := h.refreshThreads
          (sessions.filter fun id => (c.store.sessions id).any (·.needsResync))
        have hlog := (refreshThreads_log
          (sessions.filter fun id => (c.store.sessions id).any (·.needsResync)) (c := c)).1
        refine hd.withResync nofun ?_ hd.clear
        intro calls _ kind
        unfold Answered
        rw [hlog]
        exact hanswered kind
      · exact h
  · next calls hresync =>
    split
    · exact h.withResync nofun nofun h.clear
    · split
      · exact h.withResync nofun nofun fun _ => h.refreshes calls hresync
      · exact h
  · exact h

/-! ## Answers -/

theorem Repairing.onThreads (h : Repairing c) (id : Nat) (page : ListThreadsResponse) :
    Repairing (c.onThreads id page) := by
  unfold AxiomAcpClient.onThreads
  split
  · next context request cursor threads pageIndex since hid =>
    split
    · exact h.reject hid
    · split
      · split
        · refine h.resend hid ?_ fun kind hk => ⟨hk, rfl⟩
          exact ⟨(h.counts id _ hid).1, nofun⟩
        · exact h.reject hid
      · refine h.complete hid fun t => h.keeps (AxiomStateStore.carries_setCatalog _).keeps ?_
        exact AxiomStateStore.setCatalog_generation _
  · exact h

theorem Repairing.onCollections (h : Repairing c) (id : Nat) (state : CollectionState) :
    Repairing (c.onCollections id state) := by
  unfold AxiomAcpClient.onCollections
  split
  · next context since hid =>
    split
    · exact h.reject hid
    · refine h.complete hid ?_
      unfold AxiomStateStore.setCollections
      split <;> exact h.stale
  · exact h

theorem Repairing.onPreferences (h : Repairing c) (id : Nat) (preferences : Json) :
    Repairing (c.onPreferences id preferences) := by
  unfold AxiomAcpClient.onPreferences
  split
  · next context since hid =>
    split
    · exact h.reject hid
    · exact h.complete hid h.stale
  · exact h

/-- A fetch goes on with the pages it holds, or starts over without any. -/
theorem Repairing.refetch (h : Repairing c) {id since : Nat} {fetch : TimelineFetch}
    {outcome : FetchOutcome} (hid : c.calls id = some ⟨.fetchTimeline fetch, since⟩)
    (hthread : ∀ next, outcome = .request next → next.threadId = fetch.threadId) :
    Repairing (c.refetch id outcome since) := by
  unfold AxiomAcpClient.refetch
  split
  · next outcome next =>
    refine h.resend hid ?_ nofun
    obtain ⟨hsince, hcounts⟩ := h.counts id _ hid
    refine ⟨?_, ?_⟩
    · show (if next.pages = [] then c.log.gaps else since) ≤ c.log.gaps
      split
      · exact Nat.le_refl _
      · exact hsince
    · rintro _ ⟨⟩ hstale
      show (if next.pages = [] then c.log.gaps else since) = c.log.gaps
      split
      · rfl
      · rw [hthread next rfl] at hstale
        exact hcounts fetch rfl hstale
  · exact h.reject hid

/-- The pages `fetchTimeline` ends with, or goes on with, are of its thread. -/
theorem onPage_cases (fetch : TimelineFetch) (page : GetThreadTimelineResponse) :
    (∀ next, fetch.onPage page = .request next → next.threadId = fetch.threadId) ∧
      ∀ pages, fetch.onPage page = .complete pages →
        ∃ first rest, pages = first :: rest ∧ first.thread.threadId = fetch.threadId := by
  unfold TimelineFetch.onPage
  split
  · unfold TimelineFetch.restart
    split
    · exact ⟨by rintro _ ⟨⟩; rfl, nofun⟩
    · exact ⟨nofun, nofun⟩
  · next hagrees =>
    split
    · exact ⟨nofun, nofun⟩
    · next hprogress =>
      rw [Bool.not_eq_false] at hprogress
      simp only [TimelineFetch.progresses, Bool.and_eq_true, decide_eq_true_eq] at hprogress
      dsimp only
      split
      · exact ⟨by rintro _ ⟨⟩; rfl, nofun⟩
      · refine ⟨nofun, ?_⟩
        rintro _ ⟨⟩
        cases hpages : fetch.pages with
        | nil => exact ⟨page, [], rfl, hprogress.1.1⟩
        | cons first rest =>
          refine ⟨first, rest ++ [page], rfl, ?_⟩
          simp only [TimelineFetch.disagrees, hpages, List.head?_cons, Option.any_some,
            Bool.or_eq_true, decide_eq_true_eq, not_or, not_not] at hagrees
          rw [← hagrees.1.1, hprogress.1.1]

theorem restart_threadId {fetch next : TimelineFetch} (h : fetch.restart = .request next) :
    next.threadId = fetch.threadId := by
  unfold TimelineFetch.restart at h
  split at h
  · cases h
    rfl
  · cases h

theorem Repairing.onTimeline (h : Repairing c) (id : Nat) (page : GetThreadTimelineResponse) :
    Repairing (c.onTimeline env id page) := by
  unfold AxiomAcpClient.onTimeline
  split
  · next fetch since hid =>
    obtain ⟨hnext, hcomplete⟩ := onPage_cases fetch page
    split
    · exact h.reject hid
    · split
      · next pages hpages =>
        obtain ⟨first, rest, rfl, hthread⟩ := hcomplete pages hpages
        split
        · exact h.reject hid
        · next store hstore =>
          have hedit := AxiomStateStore.replaceTimeline_false hstore
          have hstored : Repairing { c with store } := by
            refine h.withStore fun t => h.keeps ?_
              (AxiomStateStore.replaceTimeline_generation hstore)
            rw [hedit]
            exact (AxiomStateStore.carries_editSession fun _ _ => rfl).keeps
          exact hstored.refetch hid fun next => restart_threadId
        · next store hstore =>
          have hgeneration := AxiomStateStore.replaceTimeline_generation hstore
          have hothers : ∀ t, t ≠ fetch.threadId → c.log.stale t = true →
              ∃ x, store.sessions t = some x ∧ x.needsResync = true := by
            intro t hne
            exact h.keeps (AxiomStateStore.carries_replaceTimeline hstore
              (by rw [hthread]; exact hne.symm)).keeps hgeneration
          have hcounts := h.counts id _ hid
          unfold replaced
          split
          · have hstale : ∀ t, Function.update c.log.stale fetch.threadId false t = true →
                t ≠ fetch.threadId ∧ c.log.stale t = true := by
              intro t ht
              have hne : t ≠ fetch.threadId := by
                rintro rfl
                simp at ht
              rw [Function.update_of_ne hne] at ht
              exact ⟨hne, ht⟩
            exact h.settle hid nofun rfl (fun t ht => (hstale t ht).2) (List.Subset.refl _)
              (fun kind => ⟨Nat.le_refl _, h.answered kind⟩) nofun
              fun t ht => hothers t (hstale t ht).1 (hstale t ht).2
          · next hold =>
            refine h.settle hid nofun rfl (fun _ ht => ht) (List.Subset.refl _)
              (fun kind => ⟨Nat.le_refl _, h.answered kind⟩) nofun ?_
            intro t ht
            refine hothers t ?_ ht
            rintro rfl
            exact hold (hcounts.2 fetch rfl ht)
      · next outcome hne => exact h.refetch hid hnext
  · exact h

/-! ## Steps of the same account -/

/-- The step reports a gap. -/
def ReportsGap (env : Environment) (c : AxiomAcpClient) : ClientStep → Prop
  | .extensionEvent notification =>
    ∃ store result, c.store.extensionEvent env notification = (store, .ok (some result)) ∧
      result.fullResync = true
  | _ => False

/-- No full resync is under way, and no refresh of a thread that is loaded. -/
def Calm (c : AxiomAcpClient) : Prop :=
  (c.fullResync = none ∨ c.fullResync = some .settled) ∧
    ∀ id fetch since, c.calls id = some ⟨.fetchTimeline fetch, since⟩ →
      c.store.sessions fetch.threadId = none

/-- The step does not change the account. -/
def SameAccount (env : Environment) (c : AxiomAcpClient) (step : ClientStep) : Prop :=
  (c.step env step).accountContextToken = c.accountContextToken

instance (step : ClientStep) : Decidable (SameAccount env c step) :=
  inferInstanceAs (Decidable (_ = _))

theorem refreshThread_store (threadId : String) : (c.refreshThread threadId).1.store = c.store := by
  unfold refreshThread
  split <;> rfl

theorem resyncAll_store : c.resyncAll.store = c.store := by
  unfold resyncAll
  split <;> rfl

theorem takeEvent_store (store : AxiomStateStore)
    (result : Option AxiomStateStore.ExtensionEventResult) :
    (c.takeEvent store result).store = store := by
  unfold takeEvent
  dsimp only
  split
  · rfl
  · split <;> rfl

/-- A gap that finds the client calm. -/
theorem Repairing.reportGap (h : Repairing c) (hcalm : c.Calm) {store : AxiomStateStore}
    (hk : ∀ t x, c.store.sessions t = some x →
      ∃ x', store.sessions t = some x' ∧ x'.needsResync = true) :
    Repairing ({ c with store }.reportGap c.store.sessions) := by
  have hlog : ({ c with store }.reportGap c.store.sessions).log.gaps = c.log.gaps + 1 := rfl
  refine ⟨?_, ?_, h.fresh, ?_, ?_, nofun, ?_⟩
  · intro id pending hpending
    obtain ⟨hsince, -⟩ := h.counts id pending hpending
    refine ⟨by rw [hlog]; omega, ?_⟩
    intro fetch hfetch hstale
    obtain ⟨call, since⟩ := pending
    have hfetch : call = .fetchTimeline fetch := hfetch
    subst hfetch
    have hnone := hcalm.2 id fetch since hpending
    have hstale : (c.store.sessions fetch.threadId).isSome = true := hstale
    simp [hnone] at hstale
  · intro kind
    have := h.answered kind
    show c.log.answered kind ≤ c.log.gaps + 1
    omega
  · intro a b d hr
    have hr : c.fullResync = some (.lists a b d) := hr
    simp [Calm, hr] at hcalm
  · intro calls hr
    have hr : c.fullResync = some (.refreshes calls) := hr
    simp [Calm, hr] at hcalm
  · intro t ht
    obtain ⟨x, hx⟩ := Option.isSome_iff_exists.mp ht
    exact hk t x hx

/-- An event that reports no gap, or one that finds the client calm. -/
theorem Repairing.takeEvent (h : Repairing c) {notification : EventNotification}
    {store : AxiomStateStore} {result : Option AxiomStateStore.ExtensionEventResult}
    (hevent : c.store.extensionEvent env notification = (store, .ok result))
    (hsame : store.accountContextGeneration = c.store.accountContextGeneration)
    (hcalm : c.ReportsGap env (.extensionEvent notification) → c.Calm) :
    Repairing (c.takeEvent store result) := by
  unfold AxiomAcpClient.takeEvent
  dsimp only
  split
  · next hne => exact absurd hsame hne
  · split
    · next hgap =>
      cases result with
      | none => cases hgap
      | some r =>
        have hr : r.fullResync = true := hgap
        exact h.reportGap (hcalm ⟨store, r, hevent, hr⟩) fun t x hx =>
          AxiomStateStore.extensionEvent_gap hevent hr hsame x hx
    · exact h.withStore fun t => h.keeps (AxiomStateStore.keeps_extensionEvent hevent) hsame

theorem Repairing.onEvent (h : Repairing c) {notification : EventNotification}
    (hsame : c.SameAccount env (.extensionEvent notification))
    (hcalm : c.ReportsGap env (.extensionEvent notification) → c.Calm) :
    Repairing (c.onEvent env notification) := by
  have hsame : (c.onEvent env notification).store.accountContextGeneration =
      c.store.accountContextGeneration := hsame
  unfold AxiomAcpClient.onEvent at hsame ⊢
  rcases hevent : c.store.extensionEvent env notification with ⟨store, error | result⟩
  · rw [hevent] at hsame
    exact h.withStore fun t => h.keeps (AxiomStateStore.keeps_extensionEvent hevent) hsame
  · rw [hevent] at hsame
    dsimp only at hsame ⊢
    have hstore : store.accountContextGeneration = c.store.accountContextGeneration := by
      split at hsame
      · rwa [resyncAll_store, takeEvent_store] at hsame
      · split at hsame
        · rwa [refreshThread_store, takeEvent_store] at hsame
        · rwa [takeEvent_store] at hsame
    have htaken := h.takeEvent hevent hstore hcalm
    split
    · exact htaken.resyncAll
    · split
      · exact htaken.refreshThread _
      · exact htaken

theorem Repairing.onUpdate (h : Repairing c) (random : Nat → String) (params : Json)
    (hsame : c.SameAccount env (.sessionUpdate random params)) :
    Repairing (c.onUpdate random params) := by
  have hstore : (c.store.standardUpdate random params).accountContextGeneration =
      c.store.accountContextGeneration := by
    have hsame : (c.onUpdate random params).store.accountContextGeneration =
      c.store.accountContextGeneration := hsame
    unfold AxiomAcpClient.onUpdate at hsame
    dsimp only at hsame
    split at hsame
    · rwa [refreshThread_store] at hsame
    · exact hsame
  have hupdated : Repairing { c with store := c.store.standardUpdate random params } :=
    h.withStore fun t => h.keeps (AxiomStateStore.keeps_standardUpdate random params) hstore
  unfold AxiomAcpClient.onUpdate
  dsimp only
  split
  · exact hupdated.refreshThread _
  · exact hupdated

theorem Repairing.onAnswer (h : Repairing c) {op : StoreOp}
    (hsame : c.SameAccount env (.answer op)) : Repairing (c.onAnswer env op) := by
  have hsame : (c.onAnswer env op).store.accountContextGeneration =
    c.store.accountContextGeneration := hsame
  unfold AxiomAcpClient.onAnswer at hsame ⊢
  split
  · exact h
  · next hop =>
    rw [if_neg hop] at hsame
    rw [Bool.not_eq_false] at hop
    dsimp only at hsame ⊢
    have hstore : (c.store.apply env op).accountContextGeneration =
        c.store.accountContextGeneration := by
      split at hsame <;> exact hsame
    split
    · next hne => exact absurd hstore hne
    · refine ⟨?_, h.answered, h.fresh, h.lists, h.refreshes, h.clear, ?_⟩
      · intro id pending hpending
        obtain ⟨hsince, hcounts⟩ := h.counts id pending hpending
        refine ⟨hsince, fun fetch hfetch ht => hcounts fetch hfetch ?_⟩
        exact (Bool.and_eq_true_iff.mp ht).1
      · intro t ht
        obtain ⟨ht, hsome⟩ := Bool.and_eq_true_iff.mp ht
        by_cases hr : op = .removeSession t
        · subst hr
          simp [AxiomStateStore.apply, AxiomStateStore.removeSession] at hsome
        · exact h.keeps (AxiomStateStore.keeps_apply hop hr) hstore ht

/-- **Every step keeps the invariant** while the account stays and gaps find the client calm. -/
theorem Repairing.step (h : Repairing c) {step : ClientStep} (hsame : c.SameAccount env step)
    (hcalm : c.ReportsGap env step → c.Calm) : Repairing (c.step env step) := by
  cases step with
  | extensionEvent notification => exact h.onEvent hsame hcalm
  | sessionUpdate random params => exact h.onUpdate random params hsame
  | listThreads request => exact h.send _
  | listCollections => exact h.send _
  | getProfilePreferences => exact h.send _
  | refreshThread threadId => exact h.refreshThread threadId
  | threadsPage call page => exact h.onThreads call page
  | collections call state => exact h.onCollections call state
  | preferences call preferences => exact h.onPreferences call preferences
  | timelinePage call page => exact h.onTimeline call page
  | requestFailed call =>
    rw [AxiomAcpClient.step]
    split
    · next hsome =>
      obtain ⟨pending, hpending⟩ := Option.isSome_iff_exists.mp hsome
      exact h.reject hpending
    · exact h
  | refreshSettled key =>
    rw [AxiomAcpClient.step]
    split
    · exact h.withRefreshing _
    · exact h
  | resyncContinues sessions => exact h.resyncContinues sessions
  | resyncSettled =>
    rw [AxiomAcpClient.step]
    split
    · exact h.withResync nofun nofun h.clear
    · exact h
  | answer op => exact h.onAnswer hsame

/-! ## The repair -/

/-- The client at the beginning, beside any store. -/
def start (store : AxiomStateStore) : AxiomAcpClient := { store }

theorem start_repairing (store : AxiomStateStore) : Repairing (start store) :=
  ⟨nofun, fun _ => Nat.le_refl _, fun _ _ => rfl, nofun, nofun, fun _ _ => rfl, nofun⟩

/-- What is left to repair is asked for: unless the flag is set, the three lists have been answered
by requests sent after the last gap, and a session that was loaded at it and has not been replaced
from pages requested since asks for a resync. -/
def Repaired (c : AxiomAcpClient) : Prop :=
  (c.fullResyncRequired = false → ∀ kind, c.Answered kind) ∧
    ∀ t x, c.log.stale t = true → c.store.sessions t = some x → x.needsResync = true

/-- **Gap repair.** In every state of every run within one account whose gaps find no full resync
under way and no refresh of a loaded thread, what is left to repair is asked for. -/
theorem gap_repair_complete (env : Environment) (store : AxiomStateStore)
    (steps : List ClientStep)
    (h : (machine env).Meets
      (fun c step => c.SameAccount env step ∧ (c.ReportsGap env step → c.Calm)) (start store) steps) :
    Repaired ((machine env).run (start store) steps).1 := by
  have hrun : Repairing ((machine env).run (start store) steps).1 :=
    (machine env).run_invariant (fun c step hc hstep => hc.step hstep.1 hstep.2)
      (start_repairing store) h
  refine ⟨hrun.clear, ?_⟩
  intro t x ht hx
  obtain ⟨x', hx', hneeds⟩ := hrun.stale t ht
  rw [hx, Option.some.injEq] at hx'
  rw [hx']
  exact hneeds

/-! ## Runs -/

namespace Gap

def environment : Environment := ⟨fun _ _ _ => .missing, fun _ => true⟩

/-- A store with one session. -/
def store : AxiomStateStore :=
  { runtimeInstanceId := some "r"
    sessions := fun id => if id = "t" then some (emptySession "t" "") else none }

/-- An event; the first one the store takes without a gap has the number 1. -/
def event (sequence : Nat) : ClientStep :=
  .extensionEvent { runtimeInstanceId := "r", sequence, event := .other "background_task" }

/-- The page of a thread without items. -/
def page : GetThreadTimelineResponse := { thread := { threadId := "t", revision := 0 } }

/-- The answers to the first full resync, and what it does with them. -/
def answers : List ClientStep :=
  [.threadsPage 0 { threads := [] }, .collections 1 {}, .preferences 2 .null,
    .resyncContinues ["t"], .timelinePage 3 page, .resyncContinues [], .resyncSettled]

/-- One gap and its repair. -/
def repaired : List ClientStep := event 2 :: answers

/-- A second gap, while the resync of the first is under way. -/
def secondGap : List ClientStep := event 2 :: event 4 :: answers

/-- A gap while a refresh is under way. -/
def refreshing : List ClientStep := [.refreshThread "t", event 2, .timelinePage 0 page]

end Gap

/-- A full resync under way when the second gap is reported ends it, with lists requested before;
a refresh under way when a gap is reported ends it for its thread, with a page requested before. -/
theorem shared_taken_for_repair :
    (machine Gap.environment).Meets (SameAccount Gap.environment) (start Gap.store) Gap.secondGap ∧
    ¬ Repaired ((machine Gap.environment).run (start Gap.store) Gap.secondGap).1 ∧
    (machine Gap.environment).Meets (SameAccount Gap.environment) (start Gap.store) Gap.refreshing ∧
    ¬ Repaired ((machine Gap.environment).run (start Gap.store) Gap.refreshing).1 := by
  refine ⟨by decide +kernel, ?_, by decide +kernel, ?_⟩
  · intro h
    have hanswered : 1 = 2 := h.1 (by decide +kernel) .threads
    cases hanswered
  · intro h
    have hsession : (((machine Gap.environment).run (start Gap.store)
        Gap.refreshing).1.store.sessions "t").any (!·.needsResync) = true := by decide +kernel
    cases hx : ((machine Gap.environment).run (start Gap.store)
        Gap.refreshing).1.store.sessions "t" with
    | none => simp [hx] at hsession
    | some x =>
      have hneeds := h.2 "t" x (by decide +kernel) hx
      simp [hx, hneeds] at hsession

/-- The repair of one gap: the flag is cleared and nothing is left. -/
theorem gap_repair_complete_once :
    ((machine Gap.environment).run (start Gap.store) Gap.repaired).1.fullResyncRequired = false ∧
    Repaired ((machine Gap.environment).run (start Gap.store) Gap.repaired).1 := by
  refine ⟨by decide +kernel, gap_repair_complete Gap.environment Gap.store Gap.repaired ?_⟩
  have hcalm : Calm (start Gap.store) := ⟨Or.inl rfl, nofun⟩
  have hsame : (machine Gap.environment).Meets (SameAccount Gap.environment) (start Gap.store)
      Gap.repaired := by decide +kernel
  obtain ⟨hevent, h1, h2, h3, h4, h5, h6, h7, -⟩ := hsame
  exact ⟨⟨hevent, fun _ => hcalm⟩, ⟨h1, nofun⟩, ⟨h2, nofun⟩, ⟨h3, nofun⟩, ⟨h4, nofun⟩, ⟨h5, nofun⟩,
    ⟨h6, nofun⟩, ⟨h7, nofun⟩, trivial⟩

end AxiomAcpClient

end AxiomDesktop.Client
