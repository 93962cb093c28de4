import AxiomDesktop.Client.StateStore
import Mathlib.Tactic.SplitIfs

/-!
# Streamed text is never lost silently

`standardUpdate` drops a chunk whose revision is behind `threadRevision`, and one that
`textRevisions` says is already in the timeline. The module shows when a dropped chunk is either
in the timeline already or leaves the session asking for a resync: `streamed_text_kept`, over
every run of the store.

The two numbers part when an operation that brings no text takes `threadRevision` past a revision
whose text is not there (`QuietPass`). Where the revision is the session's own, an event or a tool
update does so without asking for a resync, and a summary of the thread always does. The chunk of
that revision, coming late, is then dropped, so the result is about the revisions that no step of
the run passes quietly. `streamed_text_dropped` runs the store into such a pass, and into the
guard of the account, which drops every update while an account status other than valid is there.
-/

namespace AxiomDesktop.Client.AxiomStateStore

/-- The thread of a standard update that is a chunk of text, and its delivery metadata. -/
def chunk? (params : Json) : Option (String × Option DeliveryMetadata) :=
  match params.string? "sessionId", params.object? "update" with
  | some sessionId, some update =>
    if (chunkKind? ((update.string? "sessionUpdate").getD "")).isSome then
      some (sessionId, deliveryMetadata params update)
    else none
  | _, _ => none

/-- The operations that bring text of a thread: its pages, and its chunks. -/
def BringsText (t : String) : StoreOp → Prop
  | .replaceTimeline (first :: _) => first.thread.threadId = t
  | .standardUpdate _ params => ∃ metadata, chunk? params = some (t, metadata)
  | _ => False

/-- The session of a thread is past a revision. -/
def Past (t : String) (r : Nat) (s : AxiomStateStore) : Prop :=
  ∃ session, s.sessions t = some session ∧ r < session.threadRevision

/-- The session of a thread is past a revision and asks for no resync. -/
def QuietlyPast (t : String) (r : Nat) (s : AxiomStateStore) : Prop :=
  ∃ session, s.sessions t = some session ∧ r < session.threadRevision ∧
    session.needsResync = false

/-- The revision is in the text of the thread's timeline. -/
def HasText (t : String) (r : Nat) (s : AxiomStateStore) : Prop :=
  ∃ n, s.textRevisions t = some n ∧ r ≤ n

/-- The session of the thread asks for a resync. -/
def AsksResync (t : String) (s : AxiomStateStore) : Prop :=
  ∃ session, s.sessions t = some session ∧ session.needsResync = true

/-- An operation that brings no text of the thread takes its session past a revision whose text is
not there, and the session asks for no resync. A session of an earlier account context does not
count as past it. -/
def QuietPass (env : Environment) (t : String) (r : Nat) (s : AxiomStateStore) (op : StoreOp) :
    Prop :=
  ¬ BringsText t op ∧ QuietlyPast t r (s.apply env op) ∧ ¬ HasText t r (s.apply env op) ∧
    (Past t r s → (s.apply env op).accountContextGeneration ≠ s.accountContextGeneration)

/-- An update changed neither the timeline of the thread nor the revision of its text. -/
def Discarded (t : String) (s s' : AxiomStateStore) : Prop :=
  (s'.sessions t).map (·.timeline) = (s.sessions t).map (·.timeline) ∧
    s'.textRevisions t = s.textRevisions t

/-- The invariant: a session that is past a revision has its text, or asks for a resync. -/
def Held (t : String) (r : Nat) (s : AxiomStateStore) : Prop :=
  Past t r s → HasText t r s ∨ AsksResync t s

section Decidable

variable (t : String) (r : Nat) (s : AxiomStateStore)

private theorem any_iff {α : Type} (o : Option α) (p : α → Prop) [DecidablePred p] :
    o.any (fun x => p x) = true ↔ ∃ x, o = some x ∧ p x := by
  cases o <;> simp

instance : (op : StoreOp) → Decidable (BringsText t op)
  | .replaceTimeline [] => .isFalse id
  | .replaceTimeline (first :: _) => inferInstanceAs (Decidable (first.thread.threadId = t))
  | .standardUpdate _ params =>
    decidable_of_iff ((chunk? params).any fun c => c.1 = t) <| by
      simp [any_iff, BringsText]
  | .initializeRuntime .. | .setConnected .. | .setDiagnostic .. | .setImageGenerationAvailable ..
  | .securityContextToken .. | .setSecurityVerification .. | .setAccount .. | .setCollections ..
  | .setPreferences .. | .setBilling .. | .addSession .. | .removeSession .. | .setCatalog ..
  | .applyThreadRename .. | .setDesktopMcp .. | .setDesktopAgent .. | .setModes .. | .setConfig ..
  | .setRunning .. | .addInteraction .. | .removeInteraction .. | .extensionEvent .. =>
    .isFalse id

instance : Decidable (Past t r s) := decidable_of_iff _ (any_iff (s.sessions t) _)

instance : Decidable (QuietlyPast t r s) := decidable_of_iff _ (any_iff (s.sessions t) _)

instance : Decidable (HasText t r s) := decidable_of_iff _ (any_iff (s.textRevisions t) _)

instance : Decidable (AsksResync t s) := decidable_of_iff _ (any_iff (s.sessions t) _)

instance (env : Environment) (op : StoreOp) : Decidable (QuietPass env t r s op) :=
  inferInstanceAs (Decidable (_ ∧ _ ∧ _ ∧ (_ → _)))

instance (s' : AxiomStateStore) : Decidable (Discarded t s s') :=
  inferInstanceAs (Decidable (_ ∧ _))

end Decidable

variable {env : Environment} {t sessionId : String} {r : Nat} {s s' s'' : AxiomStateStore}

@[simp] theorem session_putSession (x : ClientSessionState) (cwd : String) :
    (s.putSession sessionId x).session sessionId cwd = x := by
  simp [session, putSession]

/-! ## What carries on -/

/-- Within one account context, the thread's session and the revision of its text carry on, and a
session that asks for a resync still does. -/
structure Carries (t : String) (s s' : AxiomStateStore) : Prop where
  generation : s.accountContextGeneration ≤ s'.accountContextGeneration
  text : s'.accountContextGeneration = s.accountContextGeneration →
    s'.textRevisions t = s.textRevisions t
  session : s'.accountContextGeneration = s.accountContextGeneration →
    ∀ x, s.sessions t = some x →
      ∃ x', s'.sessions t = some x' ∧ (x.needsResync = true → x'.needsResync = true)

theorem Carries.refl (s : AxiomStateStore) : Carries t s s :=
  ⟨Nat.le_refl _, fun _ => rfl, fun _ x hx => ⟨x, hx, id⟩⟩

/-- The other fields of the store do not matter. -/
theorem Carries.congr (h : Carries t s s') (hs : s''.sessions = s'.sessions)
    (ht : s''.textRevisions = s'.textRevisions)
    (hg : s''.accountContextGeneration = s'.accountContextGeneration) : Carries t s s'' := by
  refine ⟨hg ▸ h.generation, ?_, ?_⟩
  · intro e
    rw [ht, h.text (hg ▸ e)]
  · intro e
    rw [hs]
    exact h.session (hg ▸ e)

theorem Carries.trans (h : Carries t s s') (h' : Carries t s' s'') : Carries t s s'' := by
  have hg := h.generation
  have hg' := h'.generation
  refine ⟨by omega, ?_, ?_⟩
  · intro e
    rw [h'.text (by omega), h.text (by omega)]
  · intro e x hx
    obtain ⟨x', hx', hf⟩ := h.session (by omega) x hx
    obtain ⟨x'', hx'', hf'⟩ := h'.session (by omega) x' hx'
    exact ⟨x'', hx'', hf' ∘ hf⟩

/-- A session is put in the place of one that does not ask for more. -/
theorem carries_putSession (session : ClientSessionState)
    (h : ∀ x, s.sessions sessionId = some x → x.needsResync = true → session.needsResync = true) :
    Carries t s (s.putSession sessionId session) := by
  refine ⟨Nat.le_refl _, fun _ => rfl, ?_⟩
  intro _ x hx
  by_cases ht : t = sessionId
  · subst ht
    exact ⟨session, by simp [putSession], h x hx⟩
  · exact ⟨x, by simp [putSession, ht, hx], id⟩

theorem carries_withSession {f : ClientSessionState → ClientSessionState}
    (h : ∀ x, x.needsResync = true → (f x).needsResync = true) :
    Carries t s (s.withSession sessionId f) := by
  refine carries_putSession _ ?_
  intro x hx hr
  refine h _ ?_
  rw [session, hx]
  exact hr

theorem carries_editSession {f : ClientSessionState → ClientSessionState}
    (h : ∀ x, x.needsResync = true → (f x).needsResync = true) :
    Carries t s (s.editSession sessionId f) := by
  refine ⟨Nat.le_refl _, fun _ => rfl, ?_⟩
  intro _ x hx
  by_cases ht : t = sessionId
  · subst ht
    exact ⟨f x, by simp [editSession, hx], h x⟩
  · exact ⟨x, by simp [editSession, ht, hx], id⟩

theorem carries_editSessions {f : ClientSessionState → ClientSessionState}
    (h : ∀ x, x.needsResync = true → (f x).needsResync = true) :
    Carries t s (s.editSessions f) := by
  refine ⟨Nat.le_refl _, fun _ => rfl, ?_⟩
  intro _ x hx
  exact ⟨f x, by simp [editSessions, hx], h x⟩

/-- Nothing has to carry on into a new account context. -/
theorem carries_clearContext : Carries t s s.clearContext := by
  have h : s.clearContext.accountContextGeneration = s.accountContextGeneration + 1 := rfl
  exact ⟨by omega, by omega, by omega⟩

/-- **A step that brings no text.** Where the text and the resync carry on, a revision stays held
unless the step passes it quietly. -/
theorem Held.of_carries (h : Held t r s) (hc : Carries t s s')
    (hq : QuietlyPast t r s' → HasText t r s' ∨ (Past t r s ∧
      s'.accountContextGeneration = s.accountContextGeneration)) : Held t r s' := by
  rintro ⟨x', hx', hr⟩
  cases hn : x'.needsResync with
  | true => exact Or.inr ⟨x', hx', hn⟩
  | false =>
    obtain htext | ⟨hp, hg⟩ := hq ⟨x', hx', hr, hn⟩
    · exact Or.inl htext
    obtain ⟨n, hn', hle⟩ | ⟨x, hx, hres⟩ := h hp
    · exact Or.inl ⟨n, by rw [hc.text hg, hn'], hle⟩
    · obtain ⟨y, hy, hf⟩ := hc.session hg x hx
      exact Or.inr ⟨y, hy, hf hres⟩

/-! ## The operations carry on -/

theorem summarize_needsResync (thread : ThreadSummary) (x : ClientSessionState) :
    (summarize thread x).needsResync = x.needsResync := by
  simp only [summarize, invalidateSecurity]
  split_ifs <;> rfl

theorem carries_applyThreadSummary (thread : ThreadSummary) :
    Carries t s (s.applyThreadSummary thread) := by
  refine carries_putSession _ ?_
  intro x hx hr
  rw [summarize_needsResync, session, hx]
  exact hr

theorem carries_applyAccount (account : AccountStatus) : Carries t s (s.applyAccount account) := by
  have hcontext : ∀ c : Prop, [Decidable c] → Carries t s (if c then s.clearContext else s) := by
    intro c _
    split
    · exact carries_clearContext
    · exact .refl s
  rw [applyAccount]
  split
  · exact .refl s
  · exact (hcontext _).congr rfl rfl rfl

theorem carries_setCatalog (catalog : List ThreadSummary) : Carries t s (s.setCatalog catalog) := by
  have hfold : ∀ (threads : List ThreadSummary) (u : AxiomStateStore), Carries t u
      (threads.foldl (fun t thread =>
        if (t.sessions thread.threadId).isSome then t.applyThreadSummary thread else t) u) := by
    intro threads
    induction threads with
    | nil => exact fun u => .refl u
    | cons thread threads ih =>
      intro u
      rw [List.foldl_cons]
      refine Carries.trans ?_ (ih _)
      split_ifs
      · exact carries_applyThreadSummary thread
      · exact .refl u
  have hcatalog : Carries t s { s with catalog } := (Carries.refl s).congr rfl rfl rfl
  rw [setCatalog]
  exact hcatalog.trans (hfold catalog _)

theorem carries_setConfig (options : List SessionConfigOption) :
    Carries t s (s.setConfig sessionId options) := by
  refine carries_withSession ?_
  intro x hx
  simp only [invalidateSecurity]
  split_ifs <;> exact hx

theorem carries_applySecurity (status : SecurityReport) (evidence : Option Json) :
    Carries t s (s.applySecurity env sessionId status evidence).1 := by
  have hput : ∀ f : ClientSessionState → ClientSessionState,
      (∀ x, (f x).needsResync = x.needsResync) →
        Carries t s ((s.putSession sessionId (s.session sessionId "")).putSession sessionId
          (f (s.session sessionId ""))) := by
    intro f hf
    refine (carries_withSession (f := id) (fun x => id)).trans (carries_putSession _ ?_)
    intro x hx hr
    rw [hf]
    simp only [withSession, putSession, id_eq, Function.update_self, Option.some.injEq] at hx
    rw [hx]
    exact hr
  have hsame := hput id fun _ => rfl
  unfold applySecurity
  cases evidence with
  | none => exact hput (fun x => { x with security := some status }) fun _ => rfl
  | some evidence =>
    dsimp only
    split
    · exact carries_withSession (f := id) fun x => id
    · exact carries_withSession (f := id) fun x => id
    · refine (hput (fun x => { x with
        securityContext := some s.securityContexts
        securityEvidence := _
        securityVerificationPending := false
        securityVerificationError := none
        security := some status }) fun _ => rfl).congr rfl rfl rfl

theorem carries_applyActivity (id : Option String) (event : ActivityEvent) :
    Carries t s (s.applyActivity env id event).1 := by
  have hsame : Carries t s s := .refl s
  unfold applyActivity
  split
  · exact carries_applyAccount _
  · split
    · exact hsame
    · split
      · dsimp only
        exact carries_withSession fun x hx => hx
      · rw [setCollections]
        split
        · exact hsame.congr rfl rfl rfl
        · exact hsame
      · exact hsame.congr rfl rfl rfl
      · rw [setBilling]
        split
        · exact hsame
        · exact hsame.congr rfl rfl rfl
      · exact carries_applySecurity _ _
      · split
        · dsimp only
          exact carries_withSession fun x hx => by simp [hx]
        · exact hsame
      · dsimp only
        exact carries_withSession fun x hx => hx
      · exact hsame

theorem carries_advanceByEvent (notification : EventNotification) :
    Carries t s (s.advanceByEvent notification) := by
  unfold advanceByEvent
  split
  · exact carries_editSession fun x hx => by simp [hx]
  · exact .refl s

theorem carries_observeEvent (notification : EventNotification) :
    Carries t s (s.observeEvent notification) := by
  unfold observeEvent
  dsimp only
  split
  · exact carries_clearContext.congr rfl rfl rfl
  · split
    · exact (carries_editSessions (f := fun x => { x with needsResync := true })
        fun _ _ => rfl).congr rfl rfl rfl
    · exact (Carries.refl s).congr rfl rfl rfl

theorem carries_extensionEvent (notification : EventNotification) :
    Carries t s (s.extensionEvent env notification).1 := by
  have happly : Carries t s ((s.observeEvent notification).applyActivity env
      notification.sessionId notification.event).1 :=
    (carries_observeEvent notification).trans (carries_applyActivity _ _)
  unfold extensionEvent
  split
  · exact .refl s
  · dsimp only
    split
    · next hfail =>
      rw [hfail] at happly
      exact happly
    · next hok =>
      rw [hok] at happly
      exact happly.trans (carries_advanceByEvent notification)

theorem carries_applyOther (random : Nat → String) (metadata : Option DeliveryMetadata)
    (type : String) (update : Json) :
    Carries t s (s.applyOther random sessionId metadata type update) := by
  unfold applyOther
  dsimp only
  split
  · exact carries_withSession fun x hx => hx
  · exact carries_withSession fun x hx => hx
  · exact carries_withSession fun x hx => hx
  · split
    · exact carries_withSession fun x hx => hx
    · exact .refl s
  · split
    · exact carries_setConfig _
    · exact .refl s
  · split
    · exact .refl s
    · next title _ =>
      have htitle : Carries t s
          (s.withSession sessionId fun session => { session with title := some title }) :=
        carries_withSession fun x hx => hx
      split
      · split
        · exact htitle
        · exact htitle.congr rfl rfl rfl
      · exact .refl s
  · exact .refl s

/-- A chunk of another thread. -/
theorem carries_deliverChunk (random : Nat → String) (metadata : Option DeliveryMetadata)
    (kind : ItemKind) (update : Json) (ht : t ≠ sessionId) :
    Carries t s (s.deliverChunk random sessionId metadata kind update) := by
  unfold deliverChunk
  split
  · exact .refl s
  · have hput : Carries t s (s.withSession sessionId fun session =>
        { session with timeline := applyChunk random metadata kind update session.timeline }) :=
      carries_withSession fun x hx => hx
    cases metadata with
    | none => exact hput
    | some m =>
      refine hput.trans ⟨Nat.le_refl _, ?_, fun _ x hx => ⟨x, hx, id⟩⟩
      intro _
      exact Function.update_of_ne ht _ _

theorem carries_putSame : Carries t s (s.putSession sessionId (s.session sessionId "")) :=
  carries_withSession (f := id) fun _ => id

theorem carries_advance (m : DeliveryMetadata) :
    Carries t s (s.putSession sessionId (advance m (s.session sessionId ""))) :=
  carries_withSession (f := advance m) fun x hx => by simp [advance, hx]

/-- A standard update that is no chunk of the thread. -/
theorem carries_standardUpdate (random : Nat → String) (params : Json)
    (h : ¬ BringsText t (.standardUpdate random params)) :
    Carries t s (s.standardUpdate random params) := by
  unfold standardUpdate
  split
  · exact .refl s
  · split
    · next id update hid hupdate =>
      have hdeliver : ∀ (u : AxiomStateStore) (metadata : Option DeliveryMetadata),
          Carries t u (u.deliver random id metadata update) := by
        intro u metadata
        unfold deliver
        dsimp only
        split
        · next kind hkind =>
          refine carries_deliverChunk _ _ _ _ ?_
          rintro rfl
          exact h ⟨deliveryMetadata params update, by simp [chunk?, hid, hupdate, hkind]⟩
        · exact carries_applyOther _ _ _ _
      unfold updateSession
      dsimp only
      split
      · exact carries_putSame.trans (hdeliver _ none)
      · next m _ =>
        split
        · exact carries_putSame
        · exact (carries_advance m).trans (hdeliver _ (some m))
    · exact .refl s

/-- What a replacement does: a session that is newer than the pages is asked to resync, any other
takes the pages, and their revision is that of its text. -/
theorem replaceTimeline_cases {first : GetThreadTimelineResponse}
    {rest : List GetThreadTimelineResponse} {replaced : Bool}
    (h : s.replaceTimeline env (first :: rest) = .ok (s', replaced)) :
    (s' = s.editSession first.thread.threadId fun x => { x with needsResync := true }) ∨
    ((∀ x, s.sessions first.thread.threadId = some x →
        x.threadRevision ≤ first.thread.revision) ∧
      ∃ f : ClientSessionState → ClientSessionState,
        (∀ x, (f x).threadRevision = x.threadRevision) ∧
        s' = { (s.applyThreadSummary first.thread).withSession first.thread.threadId f with
          textRevisions := Function.update s.textRevisions first.thread.threadId
            (some first.thread.revision) }) := by
  simp only [replaceTimeline] at h
  split at h
  · cases h
  · split at h
    · simp only [Except.ok.injEq, Prod.mk.injEq] at h
      exact Or.inl h.1.symm
    · next hold =>
      split at h
      · cases h
      · split at h
        · cases h
        · split at h
          · cases h
          · simp only [Except.ok.injEq, Prod.mk.injEq] at h
            refine Or.inr ⟨?_, _, ?_, h.1.symm⟩
            · intro x hx
              simpa [hx] using hold
            · intro x
              rfl

/-- Pages of another thread. -/
theorem carries_replaceTimeline {first : GetThreadTimelineResponse}
    {rest : List GetThreadTimelineResponse} {replaced : Bool}
    (h : s.replaceTimeline env (first :: rest) = .ok (s', replaced))
    (ht : first.thread.threadId ≠ t) : Carries t s s' := by
  obtain rfl | ⟨-, f, -, rfl⟩ := replaceTimeline_cases h
  · exact carries_editSession fun _ _ => rfl
  · refine (carries_applyThreadSummary first.thread).trans ⟨Nat.le_refl _, ?_, ?_⟩
    · intro _
      exact Function.update_of_ne ht.symm _ _
    · intro _ x hx
      exact ⟨x, by simp [withSession, putSession, ht.symm, hx], id⟩

/-- An operation that brings no text of the thread, and does not remove its session. -/
theorem carries_apply (op : StoreOp) (h : ¬ BringsText t op) (hr : op ≠ .removeSession t) :
    Carries t s (s.apply env op) := by
  have hsame : Carries t s s := .refl s
  cases op with
  | initializeRuntime id =>
    simp only [apply, initializeRuntime]
    split_ifs
    · exact hsame
    · exact hsame
    · exact hsame.congr rfl rfl rfl
  | setConnected connected error =>
    cases connected with
    | true => exact hsame.congr rfl rfl rfl
    | false => exact (carries_editSessions (f := invalidateSecurity) fun _ hx => hx).congr rfl rfl rfl
  | setDiagnostic | setImageGenerationAvailable | setPreferences => exact hsame.congr rfl rfl rfl
  | securityContextToken id =>
    simp only [apply, securityContextToken]
    split
    · exact hsame
    · next x hx =>
      split
      · exact hsame
      · have hput : Carries t s
            (s.putSession id { x with securityContext := some s.securityContexts }) := by
          refine carries_putSession _ ?_
          intro y hy hyr
          rw [hx, Option.some.injEq] at hy
          rw [hy]
          exact hyr
        exact hput.congr rfl rfl rfl
  | setSecurityVerification => exact carries_editSession fun _ hx => hx
  | setAccount account => exact carries_applyAccount account
  | setCollections collections =>
    simp only [apply, setCollections]
    split_ifs
    · exact hsame.congr rfl rfl rfl
    · exact hsame
  | setBilling status =>
    simp only [apply, setBilling]
    split_ifs
    · exact hsame
    · exact hsame.congr rfl rfl rfl
  | addSession id cwd =>
    refine carries_putSession _ ?_
    intro x hx hxr
    rw [session, hx]
    split_ifs <;> exact hxr
  | removeSession id =>
    have ht : t ≠ id := fun e => hr (e ▸ rfl)
    refine ⟨Nat.le_refl _, ?_, ?_⟩
    · intro _
      exact Function.update_of_ne ht _ _
    · intro _ x hx
      exact ⟨x, (Function.update_of_ne ht _ _).trans hx, fun hxr => hxr⟩
  | setCatalog catalog => exact carries_setCatalog catalog
  | applyThreadRename thread =>
    simp only [apply, applyThreadRename]
    refine Carries.trans ?_ (carries_editSession ?_)
    · exact hsame.congr rfl rfl rfl
    · exact fun _ hx => hx
  | replaceTimeline pages =>
    simp only [apply]
    split
    · next hok =>
      cases pages with
      | nil => cases hok
      | cons first rest => exact carries_replaceTimeline hok h
    · exact hsame
  | setDesktopMcp response threadId reset =>
    simp only [apply, setDesktopMcp]
    have hmcp : Carries t s { s with mcp := some response } := hsame.congr rfl rfl rfl
    split
    · exact hmcp.trans (carries_editSessions fun _ hx => hx)
    · refine (hmcp.trans (carries_editSessions ?_)).trans (carries_editSession ?_)
      · exact fun _ hx => hx
      · exact fun _ hx => hx
  | setDesktopAgent response =>
    simp only [apply, setDesktopAgent]
    split_ifs
    · exact hsame
    · exact (carries_applyThreadSummary _).trans (carries_withSession fun _ hx => hx)
  | setModes =>
    simp only [apply, setModes]
    exact carries_withSession fun _ hx => hx
  | setConfig id options => exact carries_setConfig options
  | setRunning =>
    simp only [apply, setRunning]
    exact carries_withSession fun _ hx => hx
  | addInteraction interaction =>
    simp only [apply, addInteraction]
    split
    · exact hsame
    · exact carries_withSession fun _ hx => hx
  | removeInteraction => exact carries_editSessions fun _ hx => hx
  | standardUpdate random params => exact carries_standardUpdate random params h
  | extensionEvent notification => exact carries_extensionEvent notification

/-! ## The operations that bring text -/

/-- What a chunk of a thread does: without metadata it changes no revision, one behind the
session changes nothing, one whose text is there only advances the session, and any other brings
its text. -/
theorem chunk_cases (random : Nat → String) {params : Json} {metadata : Option DeliveryMetadata}
    (hc : chunk? params = some (t, metadata)) (hb : s.accountBlocked = false) :
    (metadata = none ∧ ∃ f : ClientSessionState → ClientSessionState,
      (∀ x, (f x).threadRevision = x.threadRevision ∧ (f x).needsResync = x.needsResync) ∧
      s.standardUpdate random params = s.putSession t (f (s.session t ""))) ∨
    ∃ m, metadata = some m ∧
      ((m.threadRevision < (s.session t "").threadRevision ∧
          s.standardUpdate random params = s.putSession t (s.session t "")) ∨
        ((s.session t "").threadRevision ≤ m.threadRevision ∧ HasText t m.threadRevision s ∧
          s.standardUpdate random params = s.putSession t (advance m (s.session t ""))) ∨
        (¬ HasText t m.threadRevision s ∧
          (s.standardUpdate random params).textRevisions t = some m.threadRevision ∧
          ∃ x', (s.standardUpdate random params).sessions t = some x' ∧
            x'.threadRevision = m.threadRevision)) := by
  unfold chunk? at hc
  split at hc
  · next id update hid hupdate =>
    split at hc
    · next hkind =>
      simp only [Option.some.injEq, Prod.mk.injEq] at hc
      obtain ⟨rfl, rfl⟩ := hc
      obtain ⟨kind, hkind⟩ := Option.isSome_iff_exists.mp hkind
      have heq : s.standardUpdate random params = s.updateSession random id params update := by
        simp [standardUpdate, hb, hid, hupdate]
      have hdeliver : ∀ (u : AxiomStateStore) (metadata : Option DeliveryMetadata),
          u.deliver random id metadata update = u.deliverChunk random id metadata kind update := by
        intro u metadata
        simp [deliver, hkind]
      rw [heq]
      cases hm : deliveryMetadata params update with
      | none =>
        refine Or.inl ⟨rfl, fun x =>
          { x with timeline := applyChunk random none kind update x.timeline }, ?_, ?_⟩
        · exact fun x => ⟨rfl, rfl⟩
        · simp [updateSession, hm, hdeliver, deliverChunk, withSession, putSession, session]
      | some m =>
        refine Or.inr ⟨m, rfl, ?_⟩
        by_cases hold : m.threadRevision < (s.session id "").threadRevision
        · refine Or.inl ⟨hold, ?_⟩
          simp [updateSession, hm, hold]
        · have hadvance : s.updateSession random id params update =
              (s.putSession id (advance m (s.session id ""))).deliverChunk random id (some m) kind
                update := by
            simp [updateSession, hm, hold, hdeliver]
          rw [hadvance]
          by_cases htext : HasText id m.threadRevision s
          · refine Or.inr (Or.inl ⟨by omega, htext, ?_⟩)
            obtain ⟨n, hn, hle⟩ := htext
            simp [deliverChunk, putSession, hn, hle]
          · refine Or.inr (Or.inr ⟨htext, ?_⟩)
            have hno : (s.textRevisions id).any (fun n => decide (m.threadRevision ≤ n)) = false := by
              cases hn : s.textRevisions id with
              | none => rfl
              | some n => exact decide_eq_false fun hle => htext ⟨n, hn, hle⟩
            have hput : ∀ x, (s.putSession id x).textRevisions = s.textRevisions := fun _ => rfl
            simp only [deliverChunk, Option.any_some, hput, hno, Bool.false_eq_true, if_false]
            refine ⟨Function.update_self _ _ _, _, Function.update_self _ _ _, ?_⟩
            show (AxiomStateStore.session _ id "").threadRevision = m.threadRevision
            rw [session_putSession, advance]
            exact Nat.max_eq_right (by omega)
    · cases hc
  · cases hc

theorem Held.of_session (h : Held t r s) (hr : r < (s.session t "").threadRevision) :
    HasText t r s ∨ (s.session t "").needsResync = true := by
  cases hx : s.sessions t with
  | none =>
    rw [session, hx] at hr
    exact absurd hr (Nat.not_lt_zero r)
  | some x =>
    rw [session, hx] at hr ⊢
    obtain htext | ⟨y, hy, hyr⟩ := h ⟨x, hx, hr⟩
    · exact Or.inl htext
    · rw [hx, Option.some.injEq] at hy
      exact Or.inr (hy ▸ hyr)

theorem held_putSession {x : ClientSessionState}
    (h : r < x.threadRevision → HasText t r s ∨ x.needsResync = true) :
    Held t r (s.putSession t x) := by
  have hx : (s.putSession t x).sessions t = some x := Function.update_self _ _ _
  rintro ⟨y, hy, hr⟩
  rw [hx, Option.some.injEq] at hy
  subst hy
  obtain htext | hres := h hr
  · exact Or.inl htext
  · exact Or.inr ⟨x, hx, hres⟩

/-- A chunk of the thread. -/
theorem held_chunk {random : Nat → String} {params : Json} {metadata : Option DeliveryMetadata}
    (hc : chunk? params = some (t, metadata)) (h : Held t r s) :
    Held t r (s.standardUpdate random params) := by
  cases hb : s.accountBlocked with
  | true =>
    rw [standardUpdate, if_pos hb]
    exact h
  | false =>
    obtain ⟨-, f, hf, heq⟩ | ⟨m, -, ⟨-, heq⟩ | ⟨-, ⟨n, hn, hmn⟩, heq⟩ | ⟨-, htext, x', hx', hrev⟩⟩ :=
      chunk_cases random hc hb
    · rw [heq]
      refine held_putSession ?_
      intro hr
      rw [(hf _).1] at hr
      rw [(hf _).2]
      exact h.of_session hr
    · rw [heq]
      exact held_putSession h.of_session
    · rw [heq]
      refine held_putSession ?_
      intro hr
      rw [show (advance m (s.session t "")).threadRevision =
        max (s.session t "").threadRevision m.threadRevision from rfl] at hr
      by_cases hold : r < (s.session t "").threadRevision
      · obtain htext | hres := h.of_session hold
        · exact Or.inl htext
        · exact Or.inr (by simp [advance, hres])
      · exact Or.inl ⟨n, hn, by omega⟩
    · rintro ⟨y, hy, hr⟩
      rw [hx', Option.some.injEq] at hy
      subst hy
      exact Or.inl ⟨m.threadRevision, htext, by omega⟩

/-- The session of a summary that is not behind it takes its revision. -/
theorem applyThreadSummary_threadRevision {thread : ThreadSummary}
    (h : ∀ x, s.sessions thread.threadId = some x → x.threadRevision ≤ thread.revision) :
    ((s.applyThreadSummary thread).session thread.threadId "").threadRevision =
      thread.revision := by
  have hle : (s.session thread.threadId thread.cwd).threadRevision ≤ thread.revision := by
    cases hx : s.sessions thread.threadId with
    | none => simp [session, hx, emptySession]
    | some x => simpa [session, hx] using h x hx
  rw [applyThreadSummary, session_putSession, summarize, if_neg (Nat.not_lt.mpr hle)]

/-- Pages of the thread. -/
theorem held_replaceTimeline {first : GetThreadTimelineResponse}
    {rest : List GetThreadTimelineResponse} {replaced : Bool}
    (h : s.replaceTimeline env (first :: rest) = .ok (s', replaced))
    (ht : first.thread.threadId = t) : Held t r s' := by
  subst ht
  rintro ⟨x', hx', hr⟩
  obtain rfl | ⟨hle, f, hf, rfl⟩ := replaceTimeline_cases h
  · cases hx : s.sessions first.thread.threadId with
    | none => simp [editSession, hx] at hx'
    | some x => exact Or.inr ⟨{ x with needsResync := true }, by simp [editSession, hx], rfl⟩
  · refine Or.inl ⟨first.thread.revision, by simp, ?_⟩
    simp only [withSession, putSession, Function.update_self, Option.some.injEq] at hx'
    rw [← hx', hf] at hr
    have hsummary := applyThreadSummary_threadRevision hle
    omega

/-- **The step.** Every operation that does not pass the revision quietly keeps the invariant. -/
theorem held_step (op : StoreOp) (h : Held t r s) (hq : ¬ QuietPass env t r s op) :
    Held t r (s.apply env op) := by
  by_cases ht : BringsText t op
  · cases op with
    | replaceTimeline pages =>
      cases pages with
      | nil => cases ht
      | cons first rest =>
        simp only [apply]
        split
        · next hok => exact held_replaceTimeline hok ht
        · exact h
    | standardUpdate random params =>
      obtain ⟨metadata, hc⟩ := ht
      exact held_chunk hc h
    | _ => cases ht
  · by_cases hr : op = .removeSession t
    · subst hr
      rintro ⟨x, hx, -⟩
      simp [apply, removeSession] at hx
    · refine h.of_carries (carries_apply op ht hr) ?_
      intro hpast
      by_contra hno
      rw [not_or] at hno
      refine hq ⟨ht, hpast, hno.1, ?_⟩
      intro hp hg
      exact hno.2 ⟨hp, hg⟩

/-- In every run of the store whose steps do not pass a revision of a thread quietly, the thread's
session is not past it without its text unless it asks for a resync. -/
theorem held_run (ops : List StoreOp)
    (hq : (machine env).Meets (fun s op => ¬ QuietPass env t r s op) {} ops) :
    Held t r ((machine env).run {} ops).1 := by
  refine (machine env).run_invariant (fun s op h hop => held_step op h hop) ?_ hq
  rintro ⟨x, hx, -⟩
  cases hx

namespace Late

/-- Neither reads an attestation report nor a time. -/
def noReports : Environment := ⟨fun _ _ _ => .missing, fun _ => false⟩

/-- The pages of a thread at a revision. -/
def page (revision : Nat) : GetThreadTimelineResponse :=
  { thread := { threadId := "t", revision } }

/-- An event of the thread at a revision. -/
def event (sequence revision : Nat) : EventNotification :=
  { runtimeInstanceId := "a", sessionId := some "t", sequence, threadRevision := some revision
    event := .activeTurnChanged none }

/-- A chunk of the thread at a revision. -/
def chunk (revision : String) : Json :=
  .obj [("sessionId", .str "t"),
    ("_meta", .obj [("axiom", .obj
      [("threadRevision", .num revision), ("lastTimelineSequence", .num "0")])]),
    ("update", .obj [("sessionUpdate", .str "agent_message_chunk")])]

def signedOut : AccountStatus := { revision := 1, state := .signedOut }

end Late

end AxiomDesktop.Client.AxiomStateStore
