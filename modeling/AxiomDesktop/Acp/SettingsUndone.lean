import AxiomDesktop.Acp.Settings
import AxiomDesktop.Session.Batch

/-!
# A settings request that fails is undone

Where one of the three requests answers with an error, the mirror and the store are what they were,
and so is the session of the kernel where its profile was the mirror's (`failed_request_undone`).
The runner is undone by its own setter, which makes of the previous settings what the catalog
offers now: it gives them back where the catalog still offers the model at the level
(`Agrees`), and the level the catalog reconciles the previous one to where it does not
(`dropped_level_not_given_back`).

The proof follows each request through its rules for weakest preconditions. Two facts are kept on
the way: the store and the kernel's sessions have not moved (`Unmoved`), and a setter of the runner
forgets what another setter wrote before it.
-/

namespace AxiomDesktop

open Fallible

/-! ## The setters of the runner -/

namespace RunnerSettings

variable {offered : List OfferedModelInfo} {r r' : RunnerSettings}

/-- The setter of the level forgets the level another one set. -/
theorem setThinkingLevel_forgets {level : ThinkingLevel}
    (h : setThinkingLevel offered level r = .ok r') (previous : ThinkingLevel) :
    setThinkingLevel offered previous r' = setThinkingLevel offered previous r := by
  unfold setThinkingLevel at h
  split at h
  · cases h
    rfl
  · cases h

theorem modelInfo_ok {model : String} {m : OfferedModelInfo} (h : modelInfo offered model = .ok m) :
    m ∈ offered ∧ (model = "auto" ∨ m.id = model) := by
  unfold modelInfo at h
  split at h
  · rename_i found hfound
    cases h
    refine ⟨?_, by simpa using List.find?_some hfound⟩
    exact (List.mem_insertionSort _).mp (List.mem_of_find?_eq_some hfound)
  · cases h

end RunnerSettings

/-! ## The catalog -/

theorem mem_availableModelDetails {offered : List OfferedModelInfo} {m : OfferedModelInfo}
    (h : m ∈ availableModelDetails offered) : m ∈ offered ∧ Kernel.invalidModel m.id = false := by
  have hsorted := (List.mem_insertionSort _).mp h
  have hrun := (List.destutter_sublist _ _).subset hsorted
  simpa using (List.mem_insertionSort _).mp hrun

namespace SettingsContext

variable {c : SettingsContext}

/-- The catalog offers a model of that name. -/
def Offers (c : SettingsContext) (model : String) : Prop :=
  ∃ m ∈ availableModelDetails c.offered, m.id = model

theorem offers_of_find {model : String} {m : OfferedModelInfo}
    (h : (availableModelDetails c.offered).find? (fun m => m.id = model) = some m) :
    m ∈ c.offered ∧ m.id = model ∧ Kernel.invalidModel model = false := by
  have hid : m.id = model := by simpa using List.find?_some h
  obtain ⟨hmem, hvalid⟩ := mem_availableModelDetails (List.mem_of_find?_eq_some h)
  exact ⟨hmem, hid, hid ▸ hvalid⟩

theorem Offers.find {model : String} (h : c.Offers model) :
    ∃ m, (availableModelDetails c.offered).find? (fun m => m.id = model) = some m := by
  obtain ⟨m, hm, rfl⟩ := h
  exact Option.isSome_iff_exists.mp (List.find?_isSome.mpr ⟨m, hm, by simp⟩)

/-- The runner takes the settings it is given back where the catalog still offers the model. -/
theorem Offers.setModelSettings {session : AcpSession} (h : c.Offers session.model)
    (r : RunnerSettings) :
    ∃ r', RunnerSettings.setModelSettings c.offered (c.previousSettings session) r = .ok r' := by
  obtain ⟨m, hm⟩ := h.find
  obtain ⟨hmem, hid, hvalid⟩ := offers_of_find hm
  have hmodel : (c.previousSettings session).model = session.model := by
    unfold previousSettings
    rw [hm]
    exact hid
  obtain ⟨found, hfound⟩ : ∃ found, (sortByPreference c.offered).find?
      (fun m => session.model = "auto" || m.id = session.model) = some found := by
    refine Option.isSome_iff_exists.mp (List.find?_isSome.mpr ⟨m, ?_, by simp [hid]⟩)
    exact (List.mem_insertionSort _).mpr hmem
  unfold RunnerSettings.setModelSettings RunnerSettings.modelInfo
  rw [hmodel, hvalid, hfound]
  exact ⟨_, rfl⟩

end SettingsContext

/-! ## The kernel -/

namespace Kernel

variable {correlationId : CorrelationId} {origin : Origin} {id : SessionId} {k k' : Kernel}

/-- Where a command leaves the sessions, so does the whole call. -/
theorem apply_sessions {command : AppCommand} {envelopes : List EventEnvelope}
    (hcommand : ∀ events t, (transition command).exec k = (.ok events, t) → t = k)
    (h : (apply ⟨correlationId, origin, false, command⟩).exec k = (.ok envelopes, k')) :
    k'.sessions = k.sessions := by
  simp only [apply, exec_bind_ok, exec_failIf_ok] at h
  obtain ⟨_, _, ⟨_, rfl⟩, events, t, h, hemit⟩ := h
  rw [(mapM_envelope_ok hemit).sessions, hcommand events t h]

theorem changeModelSettings_sessions {model : String} {thinking : ThinkingLevel} {reset : Bool}
    {envelopes : List EventEnvelope}
    (h : (apply ⟨correlationId, origin, false,
      .changeModelSettings id model thinking reset⟩).exec k = (.ok envelopes, k')) :
    k'.sessions = k.sessions := by
  refine apply_sessions (fun events t ht => ?_) h
  simp only [transition, exec_bind_ok, exec_pure, sessionMut_ok, invalidIf_ok] at ht
  obtain ⟨_, _, ⟨_, rfl⟩, _, _, ⟨_, rfl⟩, _, _, ⟨_, rfl⟩, ht⟩ := ht
  exact (Prod.mk.inj ht).2.symm

theorem changeThinkingLevel_sessions {level : ThinkingLevel} {envelopes : List EventEnvelope}
    (h : (apply ⟨correlationId, origin, false, .changeThinkingLevel id level⟩).exec k =
      (.ok envelopes, k')) : k'.sessions = k.sessions := by
  refine apply_sessions (fun events t ht => ?_) h
  simp only [transition, exec_bind_ok, exec_pure, sessionMut_ok, invalidIf_ok] at ht
  obtain ⟨_, _, ⟨_, rfl⟩, _, _, ⟨_, rfl⟩, ht⟩ := ht
  exact (Prod.mk.inj ht).2.symm

/-- A change of the profile writes it into a session that is ready. -/
theorem changePermissionProfile_sessions {profile : PermissionProfile}
    {envelopes : List EventEnvelope}
    (h : (apply ⟨correlationId, origin, false, .changePermissionProfile id profile⟩).exec k =
      (.ok envelopes, k')) :
    ∃ s, k.sessions id = some s ∧ s.lifecycle = .ready ∧
      k'.sessions = Function.update k.sessions id (some { s with profile }) := by
  simp only [apply, transition, exec_bind_ok, exec_pure, exec_failIf_ok, sessionMut_ok,
    invalidIf_ok, exec_insert_ok, not_not] at h
  obtain ⟨_, _, ⟨_, rfl⟩, _, _, ⟨s, _, ⟨hs, rfl⟩, _, _, ⟨hready, rfl⟩, _, _, rfl, ht⟩, hemit⟩ := h
  rw [(mapM_envelope_ok hemit).sessions, ← (Prod.mk.inj ht).2]
  exact ⟨s, hs, hready, rfl⟩

/-- A session that took a profile takes another one, -/
theorem changePermissionProfile_again {correlationId' : CorrelationId}
    {profile previous : PermissionProfile} {envelopes : List EventEnvelope} {e : AxiomError}
    (h : (apply ⟨correlationId, origin, false, .changePermissionProfile id profile⟩).exec k =
      (.ok envelopes, k')) :
    (apply ⟨correlationId', origin, false, .changePermissionProfile id previous⟩).exec k' ≠
      (.error e, k') := by
  obtain ⟨s, -, hready, hsessions⟩ := changePermissionProfile_sessions h
  have hs : k'.sessions id = some { s with profile } := by rw [hsessions, Function.update_self]
  obtain ⟨out, k₂, hemit⟩ :=
    Total.mapM (total_envelope id correlationId' origin) [.permissionProfileChanged previous]
      (k'.withSession id { s with profile := previous })
  have hagain : (apply ⟨correlationId', origin, false, .changePermissionProfile id previous⟩).exec
      k' = (.ok out, k₂) := by
    simp only [apply, transition, exec_bind_ok, exec_pure, exec_failIf_ok, sessionMut_ok,
      invalidIf_ok, exec_insert_ok, not_not]
    exact ⟨⟨⟩, k', ⟨by simp, rfl⟩, _, _,
      ⟨_, k', ⟨hs, rfl⟩, ⟨⟩, k', ⟨hready, rfl⟩, ⟨⟩, _, rfl, rfl⟩, hemit⟩
  rw [hagain]
  intro hne
  cases congrArg Prod.fst hne

/-- and is what it was where that is the profile it had. -/
theorem changePermissionProfile_back {correlationId' : CorrelationId}
    {profile previous : PermissionProfile} {envelopes envelopes' : List EventEnvelope}
    {k₂ : Kernel} (hprevious : ∀ s, k.sessions id = some s → s.profile = previous)
    (h : (apply ⟨correlationId, origin, false, .changePermissionProfile id profile⟩).exec k =
      (.ok envelopes, k'))
    (h' : (apply ⟨correlationId', origin, false, .changePermissionProfile id previous⟩).exec k' =
      (.ok envelopes', k₂)) : k₂.sessions = k.sessions := by
  obtain ⟨s, hs, -, hsessions⟩ := changePermissionProfile_sessions h
  obtain ⟨s', hs', -, hsessions'⟩ := changePermissionProfile_sessions h'
  rw [hsessions, Function.update_self] at hs'
  obtain rfl := Option.some.inj hs'
  rw [hsessions', hsessions, Function.update_idem, ← hprevious s hs]
  exact hs ▸ Function.update_eq_self id k.sessions

/-- A report on the security leaves the sessions. -/
theorem securityStatusChanged_sessions {state : SecurityStatus} {recorded : EventEnvelope}
    (h : (record id correlationId origin (.securityStatusChanged state)).exec k =
      (.ok recorded, k')) : k'.sessions = k.sessions := by
  simp only [record, observe, exec_bind_ok, exec_pure, sessionMut_ok, exec_envelope] at h
  obtain ⟨_, _, ⟨_, rfl⟩, _, _, hpure, hemit⟩ := h
  cases hpure
  cases hemit
  rfl

end Kernel

namespace SettingsContext

variable {c : SettingsContext}

/-! ## The rules of the steps -/

section Rules

variable {h : HeldSettings} {n : Nat} {id : SessionId}

@[simp] theorem wp_modifyMirror {f : AcpSession → AcpSession} {ok : PUnit → HeldSettings → Prop}
    {err : RequestError → HeldSettings → Prop} :
    (modifyMirror f).Wp ok err h ↔ ok ⟨⟩ { h with mirror := f h.mirror } := Iff.rfl

@[simp] theorem wp_setRunner {setter : RunnerSettings → Except RequestError RunnerSettings}
    {ok : PUnit → HeldSettings → Prop} {err : RequestError → HeldSettings → Prop} :
    (setRunner setter).Wp ok err h ↔
      (∀ e, setter h.runner = .error e → err e h) ∧
        ∀ r, setter h.runner = .ok r → ok ⟨⟩ { h with runner := r } := by
  simp [setRunner]

/-- A dispatch that is rejected leaves the kernel. -/
theorem wp_dispatch {command : AppCommand} {ok : List EventEnvelope → HeldSettings → Prop}
    {err : RequestError → HeldSettings → Prop}
    (hok : ∀ events k', (Kernel.apply ⟨c.correlationId n, c.origin, false, command⟩).exec h.kernel =
      (.ok events, k') → ok events { h with kernel := k' })
    (herr : ∀ e, (Kernel.apply ⟨c.correlationId n, c.origin, false, command⟩).exec h.kernel =
      (.error e, h.kernel) → err (.agent e) h) :
    (c.dispatch n command).Wp ok err h := by
  unfold dispatch
  rw [wp_mapError, wp_focus]
  refine (Wp.exec _ _).mono hok fun e k' hk => ?_
  obtain rfl := Kernel.clean_apply _ _ _ _ hk
  exact herr e hk

theorem wp_changeModelSettings {model : String} {thinking : ThinkingLevel} {reset : Bool}
    {ok : List EventEnvelope → HeldSettings → Prop} {err : RequestError → HeldSettings → Prop}
    (hok : ∀ events k', k'.sessions = h.kernel.sessions → ok events { h with kernel := k' })
    (herr : ∀ e, err e h) :
    (c.dispatch n (.changeModelSettings id model thinking reset)).Wp ok err h :=
  wp_dispatch (fun events k' hk => hok events k' (Kernel.changeModelSettings_sessions hk))
    fun _ _ => herr _

theorem wp_changeThinkingLevel {level : ThinkingLevel}
    {ok : List EventEnvelope → HeldSettings → Prop} {err : RequestError → HeldSettings → Prop}
    (hok : ∀ events k', k'.sessions = h.kernel.sessions → ok events { h with kernel := k' })
    (herr : ∀ e, err e h) :
    (c.dispatch n (.changeThinkingLevel id level)).Wp ok err h :=
  wp_dispatch (fun events k' hk => hok events k' (Kernel.changeThinkingLevel_sessions hk))
    fun _ _ => herr _

theorem wp_securityStatusChanged {state : SecurityStatus}
    {ok : EventEnvelope → HeldSettings → Prop} {err : RequestError → HeldSettings → Prop}
    (hok : ∀ e k', k'.sessions = h.kernel.sessions → ok e { h with kernel := k' })
    (herr : ∀ e, err e h) :
    (c.emit n id (.securityStatusChanged state)).Wp ok err h := by
  unfold emit
  rw [wp_mapError, wp_focus]
  refine (Wp.exec _ _).mono (fun e k' hk => ?_) fun e k' hk => ?_
  · exact hok e k' (Kernel.securityStatusChanged_sessions hk)
  · obtain rfl := Kernel.clean_record _ _ _ _ _ _ _ hk
    exact herr _

/-- A batch that fails leaves the store. -/
theorem wp_persist {events : List EventEnvelope} {preferences : Option (String × ThinkingLevel)}
    {ok : PUnit → HeldSettings → Prop} {err : RequestError → HeldSettings → Prop}
    (hok : ∀ store, ok ⟨⟩ { h with store }) (herr : ∀ e, err e h) :
    (c.persist events preferences).Wp ok err h := by
  unfold persist
  rw [wp_bind, wp_get]
  cases hstore : h.store with
  | none =>
    have := hok h.store
    exact this
  | some db =>
    rcases hbatch : Store.appendBatch c.env events none preferences none db with ⟨e | out, db'⟩
    · obtain rfl := Store.appendBatch_error hbatch
      have hsame : { h with store := some db' } = h := by rw [← hstore]
      simp only [hbatch, wp_bind, wp_modify, wp_ofResult]
      rw [hsame]
      exact ⟨fun e' _ => herr e', fun _ hout => (by cases hout)⟩
    · simp only [hbatch, wp_bind, wp_modify, wp_ofResult]
      exact ⟨fun _ hout => (by cases hout), fun _ _ => hok (some db')⟩

end Rules

/-! ## What a failing request leaves -/

/-- The store and the sessions of the kernel are as they were. -/
structure Unmoved (before after : HeldSettings) : Prop where
  store : after.store = before.store
  sessions : after.kernel.sessions = before.kernel.sessions

/-- The kernel's session has the profile of the mirror. -/
def SameProfile (h : HeldSettings) : Prop :=
  ∀ s, h.kernel.sessions h.mirror.internalId = some s → s.profile = h.mirror.profile

/-- The runner was given back the settings that the mirror shows, by one of its setters. -/
def GivenBack (c : SettingsContext) (before : HeldSettings) (runner : RunnerSettings) : Prop :=
  RunnerSettings.setModelSettings c.offered (c.previousSettings before.mirror) before.runner =
      .ok runner ∨
    RunnerSettings.setThinkingLevel c.offered before.mirror.thinking before.runner = .ok runner

/-- What a request that fails leaves of the settings. -/
structure Undone (c : SettingsContext) (before after : HeldSettings) : Prop where
  mirror : after.mirror = before.mirror
  store : after.store = before.store
  kernel : SameProfile before → after.kernel.sessions = before.kernel.sessions
  runner : c.Offers before.mirror.model →
    after.runner = before.runner ∨ c.GivenBack before after.runner

theorem Undone.refl (h : HeldSettings) : c.Undone h h := ⟨rfl, rfl, fun _ => rfl, fun _ => .inl rfl⟩

theorem Unmoved.undone {before after : HeldSettings} (h : Unmoved before after)
    (hmirror : after.mirror = before.mirror)
    (hrunner : c.Offers before.mirror.model →
      after.runner = before.runner ∨ c.GivenBack before after.runner) : c.Undone before after :=
  ⟨hmirror, h.store, fun _ => h.sessions, hrunner⟩

/-! ## The requests -/

theorem setSessionMode_undone (mode : String) (before : HeldSettings) :
    (c.setSessionMode mode).Wp (fun _ _ => True) (fun _ => c.Undone before) before := by
  unfold setSessionMode
  simp only [wp_bind, wp_ofResult, wp_failIf, wp_get, wp_orUndo, wp_modifyMirror, wp_bestEffort]
  refine ⟨fun _ _ => .refl before, fun profile _ => ⟨fun _ => .refl before, fun _ => ?_⟩⟩
  refine (wp_dispatch (fun events k' hk => ?_) fun _ _ => .refl before).faulty
    fun _ => .refl before
  refine (wp_persist (fun _ => trivial) fun e => ?_).faulty fun e => ?_
  all_goals
    refine wp_dispatch (fun events₂ k₂ hk₂ => ?_) fun e hfail => ?_
    · exact ⟨rfl, rfl, fun hsame => Kernel.changePermissionProfile_back hsame hk hk₂,
        fun _ => .inl rfl⟩
    · exact absurd hfail (Kernel.changePermissionProfile_again hk)

/-- The level is given back to a runner that took one. -/
theorem givenBack_thinking {before : HeldSettings} {level : ThinkingLevel} {r r' : RunnerSettings}
    (hset : RunnerSettings.setThinkingLevel c.offered level before.runner = .ok r)
    (hback : RunnerSettings.setThinkingLevel c.offered before.mirror.thinking r = .ok r') :
    c.GivenBack before r' := by
  rw [RunnerSettings.setThinkingLevel_forgets hset] at hback
  exact .inr hback

/-- A runner that took a level takes the one of the mirror. -/
theorem setThinkingLevel_again {level previous : ThinkingLevel} {r r' : RunnerSettings}
    {e : RequestError} (hset : RunnerSettings.setThinkingLevel c.offered level r = .ok r') :
    RunnerSettings.setThinkingLevel c.offered previous r' ≠ .error e := by
  rw [RunnerSettings.setThinkingLevel_forgets hset]
  unfold RunnerSettings.setThinkingLevel at hset ⊢
  split at hset
  · nofun
  · cases hset

theorem slashThinking_undone (level : ThinkingLevel) (before : HeldSettings) :
    (c.slashThinking level).Wp (fun _ _ => True) (fun _ => c.Undone before) before := by
  unfold slashThinking
  simp only [wp_bind, wp_okOr, wp_get, wp_orUndo, wp_modifyMirror, wp_bestEffort]
  refine ⟨fun _ => .refl before, fun model _ => ?_⟩
  generalize (reconcileModelSettings model level).thinking = level
  refine Wp.faulty (wp_setRunner.mpr ⟨fun _ _ => .refl before, fun r hset => ?_⟩)
    fun _ => .refl before
  have hagain : ∀ e,
      RunnerSettings.setThinkingLevel c.offered before.mirror.thinking r ≠ .error e :=
    fun e => setThinkingLevel_again hset
  refine (wp_changeThinkingLevel (fun events k' hk => ?_) fun e => ?_).faulty fun e => ?_
  · refine (wp_persist (fun _ => trivial) fun e => ?_).faulty fun e => ?_
    all_goals
      refine wp_setRunner.mpr ⟨fun e he => absurd he (hagain e), fun r' hback => ?_⟩
      refine wp_changeThinkingLevel (fun _ k₂ hk₂ => ?_) fun _ => ?_
      · exact Unmoved.undone ⟨rfl, hk₂.trans hk⟩ rfl fun _ => .inr (givenBack_thinking hset hback)
      · exact Unmoved.undone ⟨rfl, hk⟩ rfl fun _ => .inr (givenBack_thinking hset hback)
  all_goals
    refine wp_setRunner.mpr ⟨fun e he => absurd he (hagain e), fun r' hback => ?_⟩
    exact Unmoved.undone ⟨rfl, rfl⟩ rfl fun _ => .inr (givenBack_thinking hset hback)

/-- The selection that the runner is given back, where it is not restored from a history. -/
theorem wp_restoreModelSelection {h before : HeldSettings} {history : Option (List EventEnvelope)}
    {P : HeldSettings → Prop} (hhistory : c.Offers before.mirror.model → history = none)
    (hP : ∀ r, (c.Offers before.mirror.model → c.GivenBack before r) → P { h with runner := r }) :
    (c.restoreModelSelection (c.previousSettings before.mirror) history).Wp (fun _ => P)
      (fun _ => P) h := by
  unfold restoreModelSelection
  cases history with
  | some history =>
    refine hP (.restored c.defaultModel history) fun hoffers => ?_
    cases hhistory hoffers
  | none =>
    simp only [wp_setRunner]
    refine ⟨fun e he => hP h.runner fun hoffers => ?_, fun r hr => hP r fun _ => .inl hr⟩
    obtain ⟨r, hr⟩ := hoffers.setModelSettings h.runner
    rw [hr] at he
    cases he

theorem undoConfig_undone {before h : HeldSettings} {history : Option (List EventEnvelope)}
    (hmoved : Unmoved before h) (hhistory : c.Offers before.mirror.model → history = none)
    (reset : Bool) :
    (c.undoConfig before.mirror history reset).Wp (fun _ => c.Undone before)
      (fun _ => c.Undone before) h := by
  obtain ⟨hstore, hsessions⟩ := hmoved
  unfold undoConfig
  simp only [wp_bind, wp_bestEffort]
  refine wp_restoreModelSelection hhistory fun r hr => ?_
  have hmirror : ∀ k' : Kernel, k'.sessions = h.kernel.sessions →
      c.Undone before { runner := r, kernel := k', mirror := before.mirror, store := h.store } :=
    fun k' hk => Unmoved.undone ⟨hstore, hk.trans hsessions⟩ rfl fun ho => .inr (hr ho)
  cases reset with
  | false => exact wp_changeModelSettings (fun _ k' hk => hmirror k' hk) fun _ => hmirror _ rfl
  | true =>
    simp only [if_true, wp_bind, wp_bestEffort, wp_modifyMirror]
    refine wp_changeModelSettings (fun _ k' hk => ?_) fun _ => ?_
    · exact wp_securityStatusChanged (fun _ k₂ hk₂ => hmirror k₂ (hk₂.trans hk))
        fun _ => hmirror k' hk
    · exact wp_securityStatusChanged (fun _ k₂ hk₂ => hmirror k₂ hk₂) fun _ => hmirror _ rfl

theorem commitConfig_undone {before h : HeldSettings} {history : Option (List EventEnvelope)}
    {settings : ModelSettings} {events : List EventEnvelope} (hmoved : Unmoved before h)
    (hhistory : c.Offers before.mirror.model → history = none) :
    (c.commitConfig before.mirror history settings events).Wp (fun _ _ => True)
      (fun _ => c.Undone before) h := by
  unfold commitConfig
  simp only [wp_bind, wp_orUndo, wp_modifyMirror]
  generalize h.mirror.applyModelSettings _ _ _ _ = mirror
  have hmirror : Unmoved before { h with mirror } := ⟨hmoved.store, hmoved.sessions⟩
  refine (wp_persist (fun _ => trivial) fun e => ?_).faulty fun e => ?_
  all_goals exact undoConfig_undone hmirror hhistory _

theorem setModel_undone {before : HeldSettings} {history : Option (List EventEnvelope)}
    (selected : String) (hhistory : c.Offers before.mirror.model → history = none) :
    (c.setModel before.mirror history selected).Wp (fun _ _ => True)
      (fun _ => c.Undone before) before := by
  unfold setModel
  simp only [wp_bind, wp_okOr, wp_orUndo]
  refine ⟨fun _ => .refl before, fun model _ => ?_⟩
  refine Wp.faulty (wp_setRunner.mpr ⟨fun _ _ => .refl before, fun r _ => ?_⟩)
    fun _ => .refl before
  refine (wp_changeModelSettings (fun events k' hk => ?_) fun e => ?_).faulty fun e => ?_
  · exact commitConfig_undone ⟨rfl, hk⟩ hhistory
  all_goals
    refine wp_restoreModelSelection hhistory fun r' hr => ?_
    exact Unmoved.undone ⟨rfl, rfl⟩ rfl fun ho => .inr (hr ho)

theorem setThinking_undone {before : HeldSettings} {history : Option (List EventEnvelope)}
    (selected : String) (hhistory : c.Offers before.mirror.model → history = none) :
    (c.setThinking before.mirror history selected).Wp (fun _ _ => True)
      (fun _ => c.Undone before) before := by
  unfold setThinking
  simp only [wp_bind, wp_ofResult, wp_okOr, wp_orUndo]
  refine ⟨fun _ _ => .refl before, fun level _ => ⟨fun _ => .refl before, fun model _ => ?_⟩⟩
  refine Wp.faulty (wp_setRunner.mpr ⟨fun _ _ => .refl before, fun r hset => ?_⟩)
    fun _ => .refl before
  refine (wp_changeThinkingLevel (fun events k' hk => ?_) fun e => ?_).faulty fun e => ?_
  · exact commitConfig_undone ⟨rfl, hk⟩ hhistory
  all_goals
    refine wp_setRunner.mpr
      ⟨fun e he => absurd he (setThinkingLevel_again hset), fun r' hback => ?_⟩
    exact Unmoved.undone ⟨rfl, rfl⟩ rfl fun _ => .inr (givenBack_thinking hset hback)

theorem previousHistory_none {before : HeldSettings} :
    (c.previousHistory before.mirror).Wp
      (fun history after => after = before ∧ (c.Offers before.mirror.model → history = none))
      (fun _ after => after = before) before := by
  unfold previousHistory
  split
  · exact ⟨rfl, fun _ => rfl⟩
  · rename_i hnone
    simp only [wp_bind, wp_get, wp_okOr, wp_ofResult, wp_pure]
    refine ⟨fun _ => trivial, fun db _ => ⟨fun _ _ => trivial, fun history _ => ?_⟩⟩
    refine ⟨trivial, fun hoffers => ?_⟩
    obtain ⟨m, hm⟩ := hoffers.find
    rw [hm] at hnone
    cases hnone

theorem setSessionConfigOption_undone (configId selected : String) (before : HeldSettings) :
    (c.setSessionConfigOption configId selected).Wp (fun _ _ => True) (fun _ => c.Undone before)
      before := by
  unfold setSessionConfigOption
  simp only [wp_bind, wp_failIf, wp_get]
  refine ⟨fun _ => .refl before, fun _ => ?_⟩
  refine previousHistory_none.mono (fun history h hh => ?_) fun e h hh => ?_
  · obtain ⟨rfl, hhistory⟩ := hh
    split
    · exact setModel_undone selected hhistory
    · exact setThinking_undone selected hhistory
  · rw [hh]
    exact .refl before

theorem handle_undone (request : Request) (before : HeldSettings) :
    (c.handle request).Wp (fun _ _ => True) (fun _ => c.Undone before) before := by
  cases request with
  | mode mode => exact setSessionMode_undone mode before
  | config configId selected => exact setSessionConfigOption_undone configId selected before
  | thinking level => exact slashThinking_undone level before

/-- The copies agree before the request, and the catalog offers the model at its level still. -/
structure Agrees (c : SettingsContext) (h : HeldSettings) : Prop where
  profile : SameProfile h
  runner : h.runner = { model := h.mirror.model, thinking := h.mirror.thinking }
  /-- The runner takes `auto` for the first model of the catalog. -/
  named : h.mirror.model ≠ "auto"
  offered : c.Offers h.mirror.model
  level : ∀ m ∈ c.offered, m.id = h.mirror.model →
    (reconcileModelSettings m h.mirror.thinking).thinking = h.mirror.thinking

/-- Settings that the catalog offers still are given back as they were. -/
theorem Agrees.givenBack {before : HeldSettings} {r : RunnerSettings} (h : c.Agrees before)
    (hback : c.GivenBack before r) : r = before.runner := by
  obtain ⟨_, hrunner, hnamed, hoffered, hlevel⟩ := h
  obtain hback | hback := hback
  · obtain ⟨m, hm⟩ := hoffered.find
    obtain ⟨hmem, hid, hvalid⟩ := offers_of_find hm
    have hprevious : c.previousSettings before.mirror =
        reconcileModelSettings m before.mirror.thinking := by
      unfold previousSettings
      rw [hm]
    rw [hprevious] at hback
    unfold RunnerSettings.setModelSettings at hback
    have hmodel : (reconcileModelSettings m before.mirror.thinking).model = before.mirror.model :=
      hid
    rw [hmodel, hvalid, hlevel m hmem hid] at hback
    obtain ⟨m', hm', hback⟩ := result_bind_ok hback
    obtain ⟨hmem', hauto | hid'⟩ := RunnerSettings.modelInfo_ok hm'
    · exact absurd hauto hnamed
    · cases hback
      rw [hrunner, hlevel m' hmem' hid']
      exact congrArg (RunnerSettings.mk · _) hid'
  · unfold RunnerSettings.setThinkingLevel at hback
    split at hback
    · rename_i m hm
      cases hback
      have hid : m.id = before.mirror.model := by
        have := List.find?_some hm
        rw [hrunner] at this
        simpa using this
      rw [hlevel m (List.mem_of_find?_eq_some hm) hid, hrunner]
    · cases hback

/-- **A request that fails is undone.** The mirror and the store are what they were, the session of
the kernel is where it had the profile of the mirror, and the runner has its settings or those that
its own setter makes of the mirror's; they are the same where the copies agreed and the catalog
offers the model at its level still. -/
theorem failed_request_undone (c : SettingsContext) (request : Request)
    {before after : HeldSettings} {e : RequestError}
    (h : (c.handle request).exec before = (.error e, after)) :
    c.Undone before after ∧
      (c.Agrees before → after.kernel.sessions = before.kernel.sessions ∧
        after.runner = before.runner) := by
  have hundone : c.Undone before after := by
    have := handle_undone (c := c) request before
    unfold Wp at this
    rwa [h] at this
  refine ⟨hundone, fun hagrees => ⟨hundone.kernel hagrees.profile, ?_⟩⟩
  obtain hsame | hback := hundone.runner hagrees.offered
  · exact hsame
  · exact hagrees.givenBack hback

/-! ## A level that the catalog offers, and one that it has dropped -/

namespace Sample

def session : SessionId := ⟨1⟩

def time : DateTime where
  rfc3339 := "2026-01-01T00:00:00+00:00"
  rfc3339Millis := "2026-01-01T00:00:00.000Z"
  timestampMillis := "1767225600000"

/-- A server whose provider offers one model, at the efforts given. -/
def server (efforts : List ReasoningEffort) : SettingsContext where
  desktopChat := false
  offered := [{
    id := "m", providerId := "near", upstreamModel := "m"
    supportedThinkingModes := [], supportedReasoningEfforts := efforts }]
  defaultModel := "auto"
  correlationId n := ⟨BitVec.ofNat 128 n⟩
  origin := .acp
  env := { uuid := fun _ => "", utcNow := fun _ => time }
  decoders := {
    time? := fun _ => none, turnId := fun text => .error text
    image? := fun _ => none, tasksError := fun _ => "" }
  fresh := { now := fun _ => time, correlationId := fun n => ⟨BitVec.ofNat 128 n⟩ }

/-- The four copies hold one model at the level high. -/
def held : HeldSettings where
  runner := { model := "m", thinking := .high }
  kernel := (Kernel.withServices fun _ => time).withSession session
    (.opened session "/work" .acp .observe)
  mirror := {
    internalId := session, cwd := "/work", profile := .observe, model := "m", thinking := .high
    models := ["m"], hasPrompt := true, security := .verified }
  store := some {}

def fault : RequestError := .agent (.storage "disk full")

end Sample

open Sample in
theorem sample_agrees (c : SettingsContext) (hc : c.offered = (server [.low, .high]).offered) :
    c.Agrees held where
  profile s hs := by
    obtain rfl := Option.some.inj hs
    rfl
  runner := rfl
  named := by decide
  offered := by
    unfold Offers
    rw [hc]
    exact ⟨_, List.mem_singleton_self _, rfl⟩
  level m hm _ := by
    rw [hc] at hm
    obtain rfl := List.mem_singleton.mp hm
    rfl

open Sample in
theorem failed_request_undone_mode :
    let c := { server [.low, .high] with storeFault := some fault }
    let after := ((c.handle (.mode "full_access")).exec held).2
    c.Undone held after ∧ after.kernel.sessions = held.kernel.sessions ∧
      after.runner = held.runner := by
  intro c after
  have hexec : (c.handle (.mode "full_access")).exec held = (.error fault, after) := rfl
  have h := failed_request_undone c (.mode "full_access") hexec
  exact ⟨h.1, h.2 (sample_agrees c rfl)⟩

open Sample in
/-- The provider offers the model at low and medium now. The user asks for low, the storage fails,
and the runner is left at medium, where all four copies were at high. -/
theorem dropped_level_not_given_back :
    let c := { server [.low, .medium] with storeFault := some fault }
    let (result, after) := (c.handle (.thinking .low)).exec held
    result = .error fault ∧ held.runner = { model := "m", thinking := .high } ∧
      after.runner = { model := "m", thinking := .medium } ∧ after.mirror.thinking = .high :=
  ⟨rfl, rfl, rfl, rfl⟩

end SettingsContext

end AxiomDesktop
