import AxiomDesktop.Auth.Exclusive

/-!
# A refresh token is sent once

Managers of one scope, whose loads and deletions succeed and whose replies bring new tokens
(`Shared`): no refresh token is sent twice, and a task that has ended leaves no token it has sent in
its manager (`refresh_tokens_sent_once`). The invariant is `Once`; the store holds a token that was
sent only while the one who sent it has the lock, or a write that replaces it is under way.

It takes that no save of a rotated token fails behind its timeout (`Persisted`): the rotation has
been reported by then, and what was sent stays in the store (`late_failure_sends_again`).
-/

namespace AxiomDesktop.Auth

/-! ## The invariant -/

/-- A late write whose end takes the value away that its task had read. -/
def LateWrite.Replaces : LateWrite → Prop
  | save _ _ _ | delete _ _ => True
  | cleanup _ | remove _ => False

namespace World

variable (w : World)

/-- A token has not been stored, and no task was given it. -/
def isNew (token : String) : Bool :=
  !w.stored.contains token && w.issued.all fun given => given.1 ≠ token

/-- A value is no token that was sent. -/
def isUnsent (value : Option String) : Bool := w.sent.all fun s => value ≠ some s.token

theorem isNew_iff {w : World} {token : String} :
    w.isNew token = true ↔ token ∉ w.stored ∧ ∀ j, (token, j) ∉ w.issued := by
  simp only [isNew, Bool.and_eq_true, Bool.not_eq_true', List.contains_eq_mem,
    decide_eq_false_iff_not, List.all_eq_true, decide_eq_true_eq, Prod.forall]
  refine and_congr Iff.rfl ⟨fun h j hmem => h token j hmem rfl, ?_⟩
  rintro h t j hmem rfl
  exact h j hmem

theorem isUnsent_iff {w : World} {value : Option String} :
    w.isUnsent value = true ↔ ∀ s ∈ w.sent, value ≠ some s.token := by
  simp [isUnsent]

end World

/-- What fails late was to replace no token that was sent. -/
def LateWrite.Spares (w : World) : LateWrite → Prop
  | save _ compared _ => w.isUnsent compared = true
  | delete _ _ => False
  | cleanup _ | remove _ => True

structure Once (scope : Scope) (w : World) (φ : Nat → Grip) : Prop where
  coherent : Coherent w φ
  one : ∀ m manager, w.managers m = some manager → manager.scope = scope
  unbroken : ∀ i, (φ i).broken = false
  /-- The values of the store and the tokens that were sent have been stored. -/
  current : ∀ token, w.store scope.entry = some token → token ∈ w.stored
  sentStored : ∀ s ∈ w.sent, s.token ∈ w.stored
  sentOnce : (w.sent.map (·.token)).Nodup
  /-- A token is given to one task, and new until it is stored. -/
  issued : ∀ token i j, (token, i) ∈ w.issued → (token, j) ∈ w.issued → i = j
  fresh : ∀ i, ∀ token ∈ (φ i).fresh, (token, i) ∈ w.issued ∧ token ∉ w.stored
  lateFresh : ∀ i token compared seen, w.late i = some (.save token compared seen) →
    (token, i) ∈ w.issued ∧ token ∉ w.stored ∧ token ∉ (φ i).fresh
  saved : ∀ i token, (φ i).held = true → (φ i).saved = some token → ∀ s ∈ w.sent, s.token ≠ token
  /-- A token that was sent, by its task. -/
  sender : ∀ s ∈ w.sent, (φ s.task).used = true ∧ w.owner s.task = s.manager
  burning : ∀ i token, (φ i).burning = some token →
    ⟨token, w.owner i, i⟩ ∈ w.sent ∧ (φ i).dirty = true
  stale : ∀ s ∈ w.sent, w.store scope.entry = some s.token →
    (φ s.task).burning = some s.token ∨ ∃ i write, w.late i = some write ∧ write.Replaces
  kept : ∀ s ∈ w.sent, ∀ manager, w.managers s.manager = some manager →
    manager.state.refreshToken = some s.token →
    (φ s.task).held = true ∧ (φ s.task).dirty = true

variable {scope : Scope} {w w' : World} {φ : Nat → Grip} {i m : Nat} {ψ : Grip} {manager : Manager}

/-- What the new grip of a task keeps, every task keeps. -/
theorem keep_update (P : Grip → Prop) (ψ : Grip) (hi : P (φ i) → P ψ) {j : Nat} (hj : P (φ j)) :
    P (Function.update φ i ψ j) := by
  by_cases hji : j = i
  · subst hji
    rw [Function.update_self]
    exact hi hj
  · rwa [Function.update_of_ne hji]

namespace Once

/-- The lock is of one task. -/
theorem busy_unique (h : Once scope w φ) {j : Nat} (hi : w.Busy i) (hj : w.Busy j) : i = j := by
  have hlock (k : Nat) (hk : w.Busy k) : w.locks scope.lockPath = some k := by
    obtain ⟨other, environment, hplace, hlock⟩ := (h.coherent.tasks k).locked hk
    obtain ⟨manager, hmanager, heq⟩ := Option.map_eq_some_iff.mp hplace
    obtain rfl : manager.scope = other := congrArg Prod.fst heq
    rwa [h.one _ manager hmanager] at hlock
  exact Option.some.inj ((hlock i hi).symm.trans (hlock j hj))

/-- A task that burns a token has the lock. -/
theorem burning_held (h : Once scope w φ) {token : String} (hburning : (φ i).burning = some token) :
    (φ i).held = true := by
  cases hheld : (φ i).held with
  | true => rfl
  | false => cases ((h.coherent.tasks i).free hheld).2.symm.trans hburning

theorem burning_busy (h : Once scope w φ) {token : String} (hburning : (φ i).burning = some token) :
    w.Busy i :=
  h.coherent.busy (h.burning_held hburning)

/-- A late write is of a task that knows nothing of the store any longer. -/
theorem late_seen (h : Once scope w φ) {write : LateWrite} (hwrite : w.late i = some write) :
    w.Busy i ∧ (φ i).seen = none ∧ (φ i).burning = none := by
  have hsome : (w.late i).isSome := by
    rw [hwrite]
    rfl
  exact ⟨.inr hsome, ((h.coherent.tasks i).late hsome).2⟩

theorem place (h : Once scope w φ) (hmanager : w.managers (w.owner i) = some manager) :
    ∃ environment, w.place i = some (scope, environment) :=
  ⟨_, by rw [World.place_of_manager hmanager, Manager.place, h.one _ _ hmanager]⟩

/-- What a task under the lock has read is stored. -/
theorem stored_of_seen (h : Once scope w φ) (hmanager : w.managers (w.owner i) = some manager)
    {token : String} (hseen : (φ i).seen = some (some token)) :
    w.store scope.entry = some token := by
  obtain ⟨environment, hplace⟩ := h.place hmanager
  cases environment with
  | false => exact (((h.coherent.tasks i).keyring _ hplace).seen _ hseen).2
  | true => cases ((h.coherent.tasks i).environment _ hplace).1 _ hseen

/-- What a task under the lock has read was sent by itself, if at all. -/
theorem sent_of_seen (h : Once scope w φ) (hmanager : w.managers (w.owner i) = some manager)
    (hheld : (φ i).held = true) {token : String} (hseen : (φ i).seen = some (some token)) {s : Sent}
    (hs : s ∈ w.sent) (htoken : s.token = token) :
    s.task = i ∧ (φ i).burning = some token := by
  have hbusy := h.coherent.busy hheld
  have hstore : w.store scope.entry = some s.token :=
    (h.stored_of_seen hmanager hseen).trans (congrArg some htoken.symm)
  obtain hburning | ⟨j, write, hwrite, -⟩ := h.stale s hs hstore
  · obtain rfl := h.busy_unique hbusy (h.burning_busy hburning)
    exact ⟨rfl, htoken ▸ hburning⟩
  · obtain ⟨hj, hnone, -⟩ := h.late_seen hwrite
    obtain rfl := h.busy_unique hbusy hj
    cases hnone.symm.trans hseen

/-! ## Tokens of the managers -/

/-- What a grip keeps when the store is not written. -/
structure Follows (χ ψ : Grip) : Prop where
  fresh : ψ.fresh = χ.fresh
  used : χ.used = true → ψ.used = true
  broken : ψ.broken = χ.broken
  burning : ψ.burning = χ.burning
  saved : ψ.held = true → ψ.saved = none ∨ χ.held = true ∧ ψ.saved = χ.saved
  dirty : ∀ token, χ.burning = some token → χ.dirty = true → ψ.dirty = true

/-- The part of the world that says what was sent and stored. -/
structure Ledger (w w' : World) : Prop where
  store : w'.store = w.store
  stored : w'.stored = w.stored
  sent : w'.sent = w.sent
  issued : w'.issued = w.issued
  owner : w'.owner = w.owner
  late : w'.late = w.late

/-- **A step that writes no store keeps the invariant**, where a manager takes no token that was
sent. -/
theorem follow (h : Once scope w φ) (hcoherent : Coherent w' (Function.update φ i ψ))
    (hledger : Ledger w w') (hgrip : Follows (φ i) ψ)
    (hone : ∀ m manager, w'.managers m = some manager → manager.scope = scope)
    (hkept : ∀ s ∈ w.sent, ∀ manager, w'.managers s.manager = some manager →
      manager.state.refreshToken = some s.token →
      (Function.update φ i ψ s.task).held = true ∧ (Function.update φ i ψ s.task).dirty = true) :
    Once scope w' (Function.update φ i ψ) := by
  obtain ⟨hstore, hstored, hsent, hissued, howner, hlate⟩ := hledger
  refine ⟨hcoherent, hone, ?_, ?_, ?_, ?_, ?_, ?_, ?_, ?_, ?_, ?_, ?_, ?_⟩
  · exact (Function.forall_update_iff φ fun _ χ => χ.broken = false).mpr
      ⟨hgrip.broken.trans (h.unbroken i), fun j _ => h.unbroken j⟩
  · rw [hstore, hstored]
    exact h.current
  · rw [hsent, hstored]
    exact h.sentStored
  · rw [hsent]
    exact h.sentOnce
  · rw [hissued]
    exact h.issued
  · rw [hissued, hstored]
    refine (Function.forall_update_iff φ fun j χ =>
      ∀ token ∈ χ.fresh, (token, j) ∈ w.issued ∧ token ∉ w.stored).mpr ⟨?_, fun j _ => h.fresh j⟩
    rw [hgrip.fresh]
    exact h.fresh i
  · rw [hissued, hstored, hlate]
    refine (Function.forall_update_iff φ fun j χ => ∀ token compared seen,
      w.late j = some (.save token compared seen) →
      (token, j) ∈ w.issued ∧ token ∉ w.stored ∧ token ∉ χ.fresh).mpr ⟨?_, fun j _ => h.lateFresh j⟩
    rw [hgrip.fresh]
    exact h.lateFresh i
  · rw [hsent]
    refine (Function.forall_update_iff φ fun _ χ => ∀ token, χ.held = true → χ.saved = some token →
      ∀ s ∈ w.sent, s.token ≠ token).mpr ⟨?_, fun j _ => h.saved j⟩
    intro token hheld hsaved
    obtain hnone | ⟨hwas, hsame⟩ := hgrip.saved hheld
    · cases hnone.symm.trans hsaved
    · exact h.saved i token hwas (hsame ▸ hsaved)
  · rw [hsent, howner]
    intro s hs
    obtain ⟨hused, hown⟩ := h.sender s hs
    refine ⟨?_, hown⟩
    exact keep_update (fun χ => χ.used = true) ψ hgrip.used hused
  · rw [howner, hsent]
    refine (Function.forall_update_iff φ fun j χ => ∀ token, χ.burning = some token →
      ⟨token, w.owner j, j⟩ ∈ w.sent ∧ χ.dirty = true).mpr ⟨?_, fun j _ => h.burning j⟩
    rw [hgrip.burning]
    intro token hburning
    obtain ⟨hmem, hdirty⟩ := h.burning i token hburning
    exact ⟨hmem, hgrip.dirty token hburning hdirty⟩
  · rw [hsent, hstore, hlate]
    intro s hs hstale
    refine (h.stale s hs hstale).imp_left fun hburning => ?_
    exact keep_update (fun χ => χ.burning = some s.token) ψ hgrip.burning.trans hburning
  · rw [hsent]
    exact hkept

theorem Follows.refl (χ : Grip) : Follows χ χ :=
  ⟨rfl, id, rfl, rfl, fun hheld => .inr ⟨hheld, rfl⟩, fun _ _ => id⟩

theorem Ledger.refl (w : World) : Ledger w w := ⟨rfl, rfl, rfl, rfl, rfl, rfl⟩

/-- No manager has another refresh token. -/
def SameTokens (w w' : World) : Prop :=
  ∀ k manager', w'.managers k = some manager' → ∃ manager, w.managers k = some manager ∧
    manager'.scope = manager.scope ∧ manager'.state.refreshToken = manager.state.refreshToken

theorem SameTokens.refl (w : World) : SameTokens w w := fun _ manager h => ⟨manager, h, rfl, rfl⟩

theorem sameTokens_set {manager' : Manager} (hmanager : w.managers m = some manager)
    (hw' : w'.managers = Function.update w.managers m (some manager'))
    (hscope : manager'.scope = manager.scope)
    (htoken : manager'.state.refreshToken = manager.state.refreshToken) : SameTokens w w' := by
  rw [SameTokens, hw']
  refine (Function.forall_update_iff w.managers fun k found => ∀ other, found = some other →
    ∃ manager, w.managers k = some manager ∧ other.scope = manager.scope ∧
      other.state.refreshToken = manager.state.refreshToken).mpr ⟨?_, ?_⟩
  · rintro other ⟨⟩
    exact ⟨manager, hmanager, hscope, htoken⟩
  · exact fun k _ other hother => ⟨other, hother, rfl, rfl⟩

theorem quiet (h : Once scope w φ) (hcoherent : Coherent w' (Function.update φ i ψ))
    (hledger : Ledger w w') (hgrip : Follows (φ i) ψ) (htokens : SameTokens w w')
    (hkept : (φ i).held = true → (φ i).dirty = true → ψ.held = true ∧ ψ.dirty = true) :
    Once scope w' (Function.update φ i ψ) := by
  refine h.follow hcoherent hledger hgrip ?_ ?_
  · intro k manager' hmanager'
    obtain ⟨manager, hmanager, hscope, -⟩ := htokens k manager' hmanager'
    exact hscope.trans (h.one k manager hmanager)
  · intro s hs manager' hmanager' htoken
    obtain ⟨manager, hmanager, -, hsame⟩ := htokens _ manager' hmanager'
    exact keep_update (fun χ => χ.held = true ∧ χ.dirty = true) ψ (fun h => hkept h.1 h.2)
      (h.kept s hs manager hmanager (hsame ▸ htoken))

/-- The manager of a task takes another refresh token. -/
theorem retake (h : Once scope w φ) {manager' : Manager}
    (hmanager : w.managers (w.owner i) = some manager)
    (hw' : w'.managers = Function.update w.managers (w.owner i) (some manager'))
    (hscope : manager'.scope = manager.scope) (hcoherent : Coherent w' (Function.update φ i ψ))
    (hledger : Ledger w w') (hgrip : Follows (φ i) ψ)
    (hkept : ∀ s ∈ w.sent, manager'.state.refreshToken = some s.token →
      s.task = i ∧ ψ.held = true ∧ ψ.dirty = true) :
    Once scope w' (Function.update φ i ψ) := by
  refine h.follow hcoherent hledger hgrip ?_ ?_
  · rw [hw']
    refine (Function.forall_update_iff w.managers fun _ found => ∀ other, found = some other →
      other.scope = scope).mpr ⟨?_, fun k _ => h.one k⟩
    rintro other ⟨⟩
    exact hscope.trans (h.one _ manager hmanager)
  · rw [hw']
    intro s hs other hother htoken
    by_cases hsame : s.manager = w.owner i
    · rw [hsame, Function.update_self, Option.some.injEq] at hother
      subst hother
      obtain ⟨htask, hheld, hdirty⟩ := hkept s hs htoken
      rw [htask, Function.update_self]
      exact ⟨hheld, hdirty⟩
    · rw [Function.update_of_ne hsame] at hother
      have htask : s.task ≠ i := fun htask => hsame (htask ▸ (h.sender s hs).2.symm)
      rw [Function.update_of_ne htask]
      exact h.kept s hs other hother htoken

/-! ## Writes -/

/-- What a grip keeps when the store is written. -/
structure Writes (χ ψ : Grip) : Prop where
  fresh : ∀ token ∈ ψ.fresh, token ∈ χ.fresh
  used : ψ.used = χ.used
  broken : ψ.broken = χ.broken
  burning : ψ.burning = none
  held : ψ.held = χ.held
  dirty : ψ.dirty = χ.dirty

/-- The part of the world a write leaves alone. -/
structure Beside (w w' : World) : Prop where
  sent : w'.sent = w.sent
  issued : w'.issued = w.issued
  owner : w'.owner = w.owner
  managers : w'.managers = w.managers

/-- **A step that writes the store, or begins to, keeps the invariant**, where the token that takes
the place of another one is new. -/
theorem write (h : Once scope w φ) (hcoherent : Coherent w' (Function.update φ i ψ))
    (hbeside : Beside w w') (hgrip : Writes (φ i) ψ)
    (hcurrent : ∀ token, w'.store scope.entry = some token → token ∈ w'.stored)
    (hstored : ∀ token, token ∈ w.stored → token ∈ w'.stored)
    (hfresh : ∀ j, ∀ token ∈ (Function.update φ i ψ j).fresh, token ∉ w'.stored)
    (hlate : ∀ j token compared seen, w'.late j = some (.save token compared seen) →
      (token, j) ∈ w.issued ∧ token ∉ w'.stored ∧ token ∉ (Function.update φ i ψ j).fresh)
    (hsaved : ψ.held = true → ψ.saved = (φ i).saved ∨
      ∀ token, ψ.saved = some token → ∀ s ∈ w.sent, s.token ≠ token)
    (hstale : ∀ s ∈ w.sent, w'.store scope.entry = some s.token →
      (s.task ≠ i ∧ (φ s.task).burning = some s.token) ∨
        ∃ i write, w'.late i = some write ∧ write.Replaces) :
    Once scope w' (Function.update φ i ψ) := by
  obtain ⟨hsent, hissued, howner, hmanagers⟩ := hbeside
  refine ⟨hcoherent, hmanagers ▸ h.one, ?_, hcurrent, ?_, ?_, ?_, ?_, ?_, ?_, ?_, ?_, ?_, ?_⟩
  · exact (Function.forall_update_iff φ fun _ χ => χ.broken = false).mpr
      ⟨hgrip.broken.trans (h.unbroken i), fun j _ => h.unbroken j⟩
  · rw [hsent]
    exact fun s hs => hstored _ (h.sentStored s hs)
  · rw [hsent]
    exact h.sentOnce
  · rw [hissued]
    exact h.issued
  · rw [hissued]
    intro j token htoken
    refine ⟨?_, hfresh j token htoken⟩
    exact (Function.forall_update_iff φ fun j χ => ∀ token ∈ χ.fresh, (token, j) ∈ w.issued).mpr
      ⟨fun token htoken => (h.fresh i token (hgrip.fresh token htoken)).1,
        fun j _ token htoken => (h.fresh j token htoken).1⟩ j token htoken
  · rw [hissued]
    exact hlate
  · rw [hsent]
    refine (Function.forall_update_iff φ fun _ χ => ∀ token, χ.held = true → χ.saved = some token →
      ∀ s ∈ w.sent, s.token ≠ token).mpr ⟨?_, fun j _ => h.saved j⟩
    intro token hheld htoken
    obtain hsame | hnew := hsaved hheld
    · exact h.saved i token (hgrip.held ▸ hheld) (hsame ▸ htoken)
    · exact hnew token htoken
  · rw [hsent, howner]
    intro s hs
    obtain ⟨hused, hown⟩ := h.sender s hs
    refine ⟨?_, hown⟩
    exact keep_update (fun χ => χ.used = true) ψ hgrip.used.trans hused
  · rw [howner, hsent]
    refine (Function.forall_update_iff φ fun j χ => ∀ token, χ.burning = some token →
      ⟨token, w.owner j, j⟩ ∈ w.sent ∧ χ.dirty = true).mpr ⟨?_, fun j _ => h.burning j⟩
    intro token hburning
    cases hgrip.burning.symm.trans hburning
  · rw [hsent]
    intro s hs hs'
    refine (hstale s hs hs').imp_left fun ⟨hother, hburning⟩ => ?_
    rwa [Function.update_of_ne hother]
  · rw [hsent, hmanagers]
    intro s hs manager hmanager htoken
    refine keep_update (fun χ => χ.held = true ∧ χ.dirty = true) ψ ?_
      (h.kept s hs manager hmanager htoken)
    rw [hgrip.held, hgrip.dirty]
    exact id

/-! ## Effects -/

theorem ledger_note (generation : Option Nat) : Ledger w (w.note i m generation) := by
  unfold World.note
  split <;> exact ⟨rfl, rfl, rfl, rfl, rfl, rfl⟩

theorem ledger_noteState (state : AuthState) (op : StateOp) :
    Ledger w (w.noteState i m state op) := by
  unfold World.noteState
  split
  case h_4 =>
    split
    · exact ledger_note _
    · exact .refl w
  case h_5 => exact ledger_note _
  all_goals exact ⟨rfl, rfl, rfl, rfl, rfl, rfl⟩

theorem ledger_enter (op : StateOp) : Ledger w (w.enter i m manager op) := by
  obtain ⟨hstore, hstored, hsent, hissued, howner, hlate⟩ := ledger_noteState manager.state op
    (w := w) (i := i) (m := m)
  exact ⟨hstore, hstored, hsent, hissued, howner, hlate⟩

theorem enter_managers (op : StateOp) :
    (w.enter i m manager op).managers = Function.update w.managers m (some
      { manager with
        state := manager.state.apply op
        committed := World.commitToken manager.state manager.committed op }) := by
  show Function.update (w.noteState i m manager.state op).managers _ _ = _
  rw [noteState_managers]

theorem clear (h : Once scope w φ) {detail : Option String}
    (hmanager : w.managers (w.owner i) = some manager)
    (hrequires : discipline.requires (.state (.clearLocalAuthorization detail)) (φ i))
    (hcoherent : Coherent (w.enter i (w.owner i) manager (.clearLocalAuthorization detail))
      (Function.update φ i { φ i with dirty := false })) :
    Once scope (w.enter i (w.owner i) manager (.clearLocalAuthorization detail))
      (Function.update φ i { φ i with dirty := false }) := by
  refine h.retake hmanager (enter_managers _) rfl hcoherent (ledger_enter _) ?_ nofun
  refine ⟨rfl, id, rfl, rfl, fun hheld => .inr ⟨hheld, rfl⟩, fun token hburning _ => ?_⟩
  obtain hbroken | hnone := hrequires (h.burning_held hburning)
  · cases (h.unbroken i).symm.trans hbroken
  · cases hnone.symm.trans hburning

theorem adopt (h : Once scope w φ) {credential : Option String}
    (hmanager : w.managers (w.owner i) = some manager) (hheld : (φ i).held = true)
    (hseen : (φ i).seen = some credential)
    (hcoherent : Coherent (w.enter i (w.owner i) manager (.adoptExternalCredential credential))
      (Function.update φ i (φ i))) :
    Once scope (w.enter i (w.owner i) manager (.adoptExternalCredential credential))
      (Function.update φ i (φ i)) := by
  refine h.retake hmanager (enter_managers _) rfl hcoherent (ledger_enter _) (.refl _) ?_
  intro s hs htoken
  have htoken : credential = some s.token := htoken
  obtain ⟨htask, hburning⟩ := h.sent_of_seen hmanager hheld (htoken ▸ hseen) hs rfl
  exact ⟨htask, hheld, (h.burning i _ hburning).2⟩

theorem commit (h : Once scope w φ) {bundle : SessionBundle} {force : Bool} {previous : Option String}
    (hmanager : w.managers (w.owner i) = some manager) (hheld : (φ i).held = true)
    (hsaved : (φ i).saved = some bundle.refreshToken) (hburning : (φ i).burning = none)
    (hcoherent : Coherent (w.enter i (w.owner i) manager (.commitBundle bundle force previous))
      (Function.update φ i { φ i with dirty := false })) :
    Once scope (w.enter i (w.owner i) manager (.commitBundle bundle force previous))
      (Function.update φ i { φ i with dirty := false }) := by
  refine h.retake hmanager (enter_managers _) rfl hcoherent (ledger_enter _) ?_ ?_
  · refine ⟨rfl, id, rfl, rfl, fun hheld => .inr ⟨hheld, rfl⟩, fun token hsome _ => ?_⟩
    cases hburning.symm.trans hsome
  · intro s hs htoken
    exact absurd (Option.some.inj htoken).symm (h.saved i _ hheld hsaved s hs)

/-- A deletion. -/
theorem gone (h : Once scope w φ) (hcoherent : Coherent w' (Function.update φ i ψ))
    (hbeside : Beside w w') (hgrip : Writes (φ i) ψ) (hsaved : ψ.saved = (φ i).saved)
    (hstore : w'.store scope.entry = none) (hstored : w'.stored = w.stored)
    (hlate : ∀ j write, w'.late j = some write → w.late j = some write) :
    Once scope w' (Function.update φ i ψ) := by
  have hfresh (j : Nat) : ∀ token ∈ (Function.update φ i ψ j).fresh, token ∈ (φ j).fresh :=
    (Function.forall_update_iff φ fun j χ => ∀ token ∈ χ.fresh, token ∈ (φ j).fresh).mpr
      ⟨hgrip.fresh, fun _ _ _ => id⟩ j
  refine h.write hcoherent hbeside hgrip ?_ ?_ ?_ ?_ (fun _ => .inl hsaved) ?_
  · rw [hstore]
    nofun
  · rw [hstored]
    exact fun _ => id
  · rw [hstored]
    exact fun j token htoken => (h.fresh j token (hfresh j token htoken)).2
  · rw [hstored]
    intro j token compared seen hwrite
    obtain ⟨hissued, hnew, hother⟩ := h.lateFresh j token compared seen (hlate j _ hwrite)
    exact ⟨hissued, hnew, fun htoken => hother (hfresh j token htoken)⟩
  · rw [hstore]
    nofun

/-- A new token is stored. -/
theorem renewed (h : Once scope w φ) (hcoherent : Coherent w' (Function.update φ i ψ))
    (hbeside : Beside w w') (hgrip : Writes (φ i) ψ) {token : String}
    (hissued : (token, i) ∈ w.issued) (hnew : token ∉ w.stored) (hspent : token ∉ ψ.fresh)
    (hsaved : ψ.saved = some token ∨ ψ.saved = (φ i).saved) (hstore : w'.store scope.entry = some token)
    (hstored : w'.stored = token :: w.stored)
    (hlate : ∀ j write, w'.late j = some write → w.late j = some write ∧ j ≠ i ∨ ¬ write.Replaces) :
    Once scope w' (Function.update φ i ψ) := by
  have hunsent (s : Sent) (hs : s ∈ w.sent) : s.token ≠ token :=
    fun heq => hnew (heq ▸ h.sentStored s hs)
  refine h.write hcoherent hbeside hgrip ?_ ?_ ?_ ?_ ?_ ?_
  · rw [hstore, hstored]
    rintro _ ⟨⟩
    exact List.mem_cons_self
  · rw [hstored]
    exact fun _ => List.mem_cons_of_mem _
  · rw [hstored]
    refine (Function.forall_update_iff φ fun _ χ => ∀ t ∈ χ.fresh, t ∉ token :: w.stored).mpr
      ⟨?_, ?_⟩
    · intro t ht hmem
      obtain rfl | hmem := List.mem_cons.mp hmem
      · exact hspent ht
      · exact (h.fresh i t (hgrip.fresh t ht)).2 hmem
    · intro j hj t ht hmem
      obtain rfl | hmem := List.mem_cons.mp hmem
      · exact hj (h.issued t j i (h.fresh j t ht).1 hissued)
      · exact (h.fresh j t ht).2 hmem
  · rw [hstored]
    intro j t compared seen hwrite
    obtain ⟨hwrite, hj⟩ | hother := hlate j _ hwrite
    · obtain ⟨hissuedj, hnewj, hotherj⟩ := h.lateFresh j t compared seen hwrite
      rw [Function.update_of_ne hj]
      refine ⟨hissuedj, fun hmem => ?_, hotherj⟩
      obtain rfl | hmem := List.mem_cons.mp hmem
      · exact hj (h.issued t j i hissuedj hissued)
      · exact hnewj hmem
    · exact absurd trivial hother
  · intro _
    obtain hsaved | hsaved := hsaved
    · rw [hsaved]
      refine .inr ?_
      rintro _ ⟨⟩
      exact hunsent
    · exact .inl hsaved
  · rw [hstore]
    intro s hs htoken
    exact absurd (Option.some.inj htoken).symm (hunsent s hs)

/-- A write begins that is not waited for. -/
theorem begun (h : Once scope w φ) {write : LateWrite}
    (hcoherent : Coherent w' (Function.update φ i ψ)) (hbeside : Beside w w')
    (hgrip : Writes (φ i) ψ) (hsaved : ψ.saved = (φ i).saved) (hstore : w'.store = w.store)
    (hstored : w'.stored = w.stored) (hlate : w'.late = Function.update w.late i (some write))
    (hreplaces : write.Replaces)
    (hwrite : ∀ token compared seen, write = .save token compared seen →
      (token, i) ∈ w.issued ∧ token ∉ w.stored ∧ token ∉ ψ.fresh) :
    Once scope w' (Function.update φ i ψ) := by
  have hbegun : ∃ j write, w'.late j = some write ∧ write.Replaces := by
    refine ⟨i, write, ?_, hreplaces⟩
    rw [hlate, Function.update_self]
  refine h.write hcoherent hbeside hgrip ?_ ?_ ?_ ?_ (fun _ => .inl hsaved) ?_
  · rw [hstore, hstored]
    exact h.current
  · rw [hstored]
    exact fun _ => id
  · rw [hstored]
    exact (Function.forall_update_iff φ fun _ χ => ∀ token ∈ χ.fresh, token ∉ w.stored).mpr
      ⟨fun token htoken => (h.fresh i token (hgrip.fresh token htoken)).2,
        fun j _ token htoken => (h.fresh j token htoken).2⟩
  · rw [hstored, hlate]
    intro j token compared seen hsome
    by_cases hj : j = i
    · subst hj
      rw [Function.update_self, Option.some.injEq] at hsome
      rw [Function.update_self]
      exact hwrite token compared seen hsome
    · rw [Function.update_of_ne hj] at hsome
      rw [Function.update_of_ne hj]
      exact h.lateFresh j token compared seen hsome
  · exact fun _ _ _ => .inr hbegun

/-- The grip of a task that has sent a token. -/
def sending (χ : Grip) (token : String) : Grip :=
  { χ with burning := some token, dirty := true, saved := none, used := true }

/-- **A token that is sent was not sent before.** -/
theorem send (h : Once scope w φ) (hmanager : w.managers (w.owner i) = some manager)
    (hheld : (φ i).held = true) (hlate : (φ i).late = false) {token : String}
    (hseen : (φ i).seen = some (some token)) (hburning : (φ i).burning = none)
    (hshape : isTokenShape token = true) :
    Once scope (w.send ⟨token, w.owner i, i⟩) (Function.update φ i (sending (φ i) token)) := by
  have hstore := h.stored_of_seen hmanager hseen
  have hfirst (s : Sent) (hs : s ∈ w.sent) : s.token ≠ token := by
    intro htoken
    cases hburning.symm.trans (h.sent_of_seen hmanager hheld hseen hs htoken).2
  have hcoherent : Coherent (w.send ⟨token, w.owner i, i⟩)
      (Function.update φ i (sending (φ i) token)) := by
    refine (h.coherent.burn hheld hlate hseen hshape ?_).aside
      ⟨rfl, rfl, rfl, rfl, rfl, rfl, rfl, fun _ => rfl⟩
    simp only [Grip.core, sending, hheld, hlate, hseen]
  refine ⟨hcoherent, h.one, ?_, h.current, ?_, ?_, h.issued, ?_, ?_, ?_, ?_, ?_, ?_, ?_⟩
  · exact (Function.forall_update_iff φ fun _ χ => χ.broken = false).mpr
      ⟨h.unbroken i, fun j _ => h.unbroken j⟩
  · exact List.forall_mem_cons.mpr ⟨h.current token hstore, h.sentStored⟩
  · refine List.nodup_cons.mpr ⟨?_, h.sentOnce⟩
    intro hmem
    obtain ⟨s, hs, htoken⟩ := List.mem_map.mp hmem
    exact hfirst s hs htoken
  · exact (Function.forall_update_iff φ fun j χ => ∀ token ∈ χ.fresh,
      (token, j) ∈ w.issued ∧ token ∉ w.stored).mpr ⟨h.fresh i, fun j _ => h.fresh j⟩
  · exact (Function.forall_update_iff φ fun j χ => ∀ token compared seen,
      w.late j = some (.save token compared seen) →
      (token, j) ∈ w.issued ∧ token ∉ w.stored ∧ token ∉ χ.fresh).mpr
      ⟨h.lateFresh i, fun j _ => h.lateFresh j⟩
  · refine (Function.forall_update_iff φ fun _ χ => ∀ t, χ.held = true → χ.saved = some t →
      ∀ s ∈ (⟨token, w.owner i, i⟩ : Sent) :: w.sent, s.token ≠ t).mpr ⟨?_, ?_⟩
    · intro t _ hsaved
      cases hsaved
    · intro j hj t hheldj
      exact absurd (h.busy_unique (h.coherent.busy hheldj) (h.coherent.busy hheld)) hj
  · refine List.forall_mem_cons.mpr ⟨⟨by rw [Function.update_self]; rfl, rfl⟩, ?_⟩
    intro s hs
    obtain ⟨hused, hown⟩ := h.sender s hs
    refine ⟨?_, hown⟩
    exact keep_update (fun χ => χ.used = true) (sending (φ i) token) (fun _ => rfl) hused
  · refine (Function.forall_update_iff φ fun j χ => ∀ t, χ.burning = some t →
      ⟨t, w.owner j, j⟩ ∈ (⟨token, w.owner i, i⟩ : Sent) :: w.sent ∧ χ.dirty = true).mpr ⟨?_, ?_⟩
    · rintro _ ⟨⟩
      exact ⟨List.mem_cons_self, rfl⟩
    · intro j _ t ht
      obtain ⟨hmem, hdirty⟩ := h.burning j t ht
      exact ⟨List.mem_cons_of_mem _ hmem, hdirty⟩
  · refine List.forall_mem_cons.mpr ⟨fun _ => .inl (by rw [Function.update_self]; rfl), ?_⟩
    intro s hs htoken
    exact absurd (Option.some.inj (hstore.symm.trans htoken)).symm (hfirst s hs)
  · refine List.forall_mem_cons.mpr ⟨fun _ _ _ => ?_, ?_⟩
    · rw [Function.update_self]
      exact ⟨hheld, rfl⟩
    · intro s hs manager hmanager htoken
      exact keep_update (fun χ => χ.held = true ∧ χ.dirty = true) (sending (φ i) token) (fun h => ⟨h.1, rfl⟩)
        (h.kept s hs manager hmanager htoken)

/-- **A task is given a new token.** -/
theorem issue (h : Once scope w φ) {tokens : Option TokenResponse}
    (hnew : tokens.all (w.isNew ·.refreshToken) = true) :
    Once scope (w.issue i tokens) (Function.update φ i ((φ i).given tokens)) := by
  have hcoherent : Coherent (w.issue i tokens) (Function.update φ i ((φ i).given tokens)) :=
    h.coherent.quiet ⟨rfl, rfl, rfl, rfl, rfl, rfl, rfl, fun _ => rfl⟩ rfl
  obtain _ | response := tokens
  · have hsame : Function.update φ i ((φ i).given none) = φ := Function.update_eq_self i φ
    have hworld : w.issue i none = w := rfl
    rw [hsame, hworld]
    exact h
  · obtain ⟨hunstored, hungiven⟩ := World.isNew_iff.mp hnew
    have hmono (t : String) (j : Nat) (hmem : (t, j) ∈ w.issued) :
        (t, j) ∈ (response.refreshToken, i) :: w.issued :=
      List.mem_cons_of_mem _ hmem
    refine ⟨hcoherent, h.one, ?_, h.current, h.sentStored, h.sentOnce, ?_, ?_, ?_, ?_, ?_, ?_, ?_, ?_⟩
    · exact (Function.forall_update_iff φ fun _ χ => χ.broken = false).mpr
        ⟨h.unbroken i, fun j _ => h.unbroken j⟩
    · intro t j k hj hk
      have hj : (t, j) ∈ (response.refreshToken, i) :: w.issued := hj
      have hk : (t, k) ∈ (response.refreshToken, i) :: w.issued := hk
      obtain hj | hj := List.mem_cons.mp hj
      · obtain ⟨rfl, rfl⟩ := Prod.mk.inj hj
        obtain hk | hk := List.mem_cons.mp hk
        · exact (Prod.mk.inj hk).2.symm
        · exact absurd hk (hungiven k)
      · obtain hk | hk := List.mem_cons.mp hk
        · obtain ⟨rfl, -⟩ := Prod.mk.inj hk
          exact absurd hj (hungiven j)
        · exact h.issued t j k hj hk
    · refine (Function.forall_update_iff φ fun j χ => ∀ token ∈ χ.fresh,
        (token, j) ∈ (response.refreshToken, i) :: w.issued ∧ token ∉ w.stored).mpr ⟨?_, ?_⟩
      · refine List.forall_mem_cons.mpr ⟨⟨List.mem_cons_self, hunstored⟩, fun t ht => ?_⟩
        exact ⟨hmono t i (h.fresh i t ht).1, (h.fresh i t ht).2⟩
      · exact fun j _ t ht => ⟨hmono t j (h.fresh j t ht).1, (h.fresh j t ht).2⟩
    · refine (Function.forall_update_iff φ fun j χ => ∀ token compared seen,
        w.late j = some (.save token compared seen) →
        (token, j) ∈ (response.refreshToken, i) :: w.issued ∧ token ∉ w.stored ∧ token ∉ χ.fresh).mpr
        ⟨?_, ?_⟩
      · intro t compared seen hwrite
        obtain ⟨hissued, hunsaved, hother⟩ := h.lateFresh i t compared seen hwrite
        refine ⟨hmono t i hissued, hunsaved, fun hmem => ?_⟩
        obtain rfl | hmem := List.mem_cons.mp hmem
        · exact hungiven i hissued
        · exact hother hmem
      · intro j _ t compared seen hwrite
        obtain ⟨hissued, hrest⟩ := h.lateFresh j t compared seen hwrite
        exact ⟨hmono t j hissued, hrest⟩
    · exact (Function.forall_update_iff φ fun _ χ => ∀ token, χ.held = true → χ.saved = some token →
        ∀ s ∈ w.sent, s.token ≠ token).mpr ⟨h.saved i, fun j _ => h.saved j⟩
    · intro s hs
      obtain ⟨hused, hown⟩ := h.sender s hs
      refine ⟨?_, hown⟩
      exact keep_update (fun χ => χ.used = true) ((φ i).given (some response)) id hused
    · refine (Function.forall_update_iff φ fun j χ => ∀ t, χ.burning = some t →
        ⟨t, w.owner j, j⟩ ∈ w.sent ∧ χ.dirty = true).mpr ⟨?_, fun j _ => h.burning j⟩
      exact h.burning i
    · intro s hs htoken
      refine (h.stale s hs htoken).imp_left fun hburning => ?_
      exact keep_update (fun χ => χ.burning = some s.token) ((φ i).given (some response)) id hburning
    · intro s hs manager hmanager htoken
      exact keep_update (fun χ => χ.held = true ∧ χ.dirty = true) ((φ i).given (some response)) id
        (h.kept s hs manager hmanager htoken)

/-! ## Late writes -/

/-- A late write ends, and nothing it was to replace was sent. -/
theorem endLate (h : Once scope w φ) {write : LateWrite} {path : List String}
    (hwrite : w.late i = some write) (hcoherent : Coherent (w.endLate i path) φ)
    (hstale : write.Replaces → ∀ s ∈ w.sent, w.store scope.entry ≠ some s.token) :
    Once scope (w.endLate i path) φ := by
  have hlate (j : Nat) (write : LateWrite) (hj : (w.endLate i path).late j = some write) :
      w.late j = some write := by
    by_cases hji : j = i
    · subst hji
      rw [show (w.endLate j path).late j = none from Function.update_self _ _ _] at hj
      cases hj
    · rwa [show (w.endLate i path).late j = w.late j from Function.update_of_ne hji _ _] at hj
  refine ⟨hcoherent, h.one, h.unbroken, h.current, h.sentStored, h.sentOnce, h.issued, h.fresh, ?_,
    h.saved, h.sender, h.burning, ?_, h.kept⟩
  · exact fun j token compared seen hj => h.lateFresh j token compared seen (hlate j _ hj)
  · intro s hs htoken
    refine (h.stale s hs htoken).imp_right ?_
    rintro ⟨j, write', hwrite', hreplaces⟩
    by_cases hji : j = i
    · subst hji
      obtain rfl : write = write' := Option.some.inj (hwrite.symm.trans hwrite')
      exact absurd htoken (hstale hreplaces s hs)
    · exact ⟨j, write', (Function.update_of_ne hji _ _).trans hwrite', hreplaces⟩

/-- **A step of a late write keeps the invariant.** -/
theorem moved (h : Once scope w φ) (hmanager : w.managers (w.owner i) = some manager)
    {write : LateWrite} {outcome : LateOutcome} (hwrite : w.late i = some write)
    (hspares : outcome = .failed → write.Spares w)
    (hmoved : LateMoved w i m manager write outcome w') : Once scope w' φ := by
  have hcoherent := h.coherent.moved hmanager hwrite hmoved
  have hmeant := h.coherent.meant hmanager hwrite
  obtain ⟨hbusy, -, hburning⟩ := h.late_seen hwrite
  have hscope := h.one _ manager hmanager
  have hgrip : Writes (φ i) (φ i) := ⟨fun _ => id, rfl, rfl, hburning, rfl, rfl⟩
  have hself (P : (Nat → Grip) → Prop) (hP : P (Function.update φ i (φ i))) : P φ := by
    rwa [Function.update_eq_self] at hP
  have hcoherent' : Coherent w' (Function.update φ i (φ i)) := by
    rwa [Function.update_eq_self]
  have hother (j : Nat) (write : LateWrite) (hj : w.late j = some write) : j = i :=
    h.busy_unique (h.late_seen hj).1 hbusy
  -- the end of a late write
  have hended (w₀ : World) (path : List String) (hw₀ : w₀.late = w.late) (j : Nat)
      (write : LateWrite) (hj : (w₀.endLate i path).late j = some write) : w.late j = some write := by
    by_cases hji : j = i
    · subst hji
      rw [show (w₀.endLate j path).late j = none from Function.update_self _ _ _] at hj
      cases hj
    · rwa [show (w₀.endLate i path).late j = w₀.late j from Function.update_of_ne hji _ _, hw₀] at hj
  refine hself _ ?_
  cases hmoved with
  | saved token compared seen =>
    obtain ⟨hissued, hnew, hspent⟩ := h.lateFresh i token compared seen hwrite
    refine h.renewed hcoherent' ⟨rfl, rfl, rfl, rfl⟩ hgrip hissued hnew hspent (.inr rfl) ?_ rfl ?_
    · rw [← hscope]
      exact Function.update_self _ _ _
    · intro j write hj
      have hj : Function.update w.late i (some (.cleanup token)) j = some write := hj
      by_cases hji : j = i
      · rw [hji, Function.update_self] at hj
        cases hj
        exact .inr id
      · rw [Function.update_of_ne hji] at hj
        exact .inl ⟨hj, hji⟩
  | found token hstore =>
    have hupdate : Function.update φ i (φ i) = φ := Function.update_eq_self i φ
    refine h.write hcoherent' ⟨rfl, rfl, rfl, rfl⟩ hgrip h.current (fun _ => id) ?_ ?_
      (fun _ => .inl rfl) ?_
    · rw [hupdate]
      exact fun j token htoken => (h.fresh j token htoken).2
    · rw [hupdate]
      intro j token' compared seen hj
      have hj : Function.update w.late i (some (.remove token)) j = some (.save token' compared seen) :=
        hj
      by_cases hji : j = i
      · rw [hji, Function.update_self] at hj
        cases hj
      · rw [Function.update_of_ne hji] at hj
        exact h.lateFresh j token' compared seen hj
    · intro s hs htoken
      obtain hburns | ⟨j, write, hj, hreplaces⟩ := h.stale s hs htoken
      · refine .inl ⟨?_, hburns⟩
        rintro rfl
        cases hburning.symm.trans hburns
      · obtain rfl := hother j write hj
        cases Option.some.inj (hwrite.symm.trans hj)
        exact absurd hreplaces id
  | lost token hstore =>
    rw [Function.update_eq_self]
    exact h.endLate hwrite hcoherent nofun
  | removed token =>
    refine h.gone hcoherent' ⟨rfl, rfl, rfl, rfl⟩ hgrip rfl ?_ rfl (hended _ _ rfl)
    rw [← hscope]
    exact Function.update_self _ _ _
  | deleted compared seen =>
    refine h.gone hcoherent' ⟨rfl, rfl, rfl, rfl⟩ hgrip rfl ?_ rfl (hended _ _ rfl)
    rw [← hscope]
    exact Function.update_self _ _ _
  | dropped =>
    rw [Function.update_eq_self]
    refine h.endLate hwrite hcoherent ?_
    have hspared := hspares rfl
    cases write with
    | save token compared seen =>
      intro _ s hs htoken
      exact World.isUnsent_iff.mp hspared s hs (hmeant.2.symm.trans (hscope ▸ htoken))
    | delete compared seen => exact absurd hspared id
    | cleanup token => exact nofun
    | remove token => exact nofun
  | abandoned token =>
    rw [Function.update_eq_self]
    exact h.endLate hwrite hcoherent nofun

end Once

/-! ## The condition -/

namespace World

variable (w : World)

/-- Loads and deletions succeed, and a reply brings a new refresh token. -/
def succeeds (i : Nat) (e : Effect) (choice : Choice) : Bool :=
  match e, choice with
  | .load, choice =>
    match exec w i .load choice with
    | some (_, .error _) => false
    | _ => true
  | .delete compared, choice =>
    match exec w i (.delete compared) choice with
    | some (_, .error _) => false
    | _ => true
  | .deleteNow compared, choice =>
    match exec w i (.deleteNow compared) choice with
    | some (_, .error _) => false
    | _ => true
  | .refresh _, .refreshed reply => reply.tokens.all (w.isNew ·.refreshToken)
  | .exchange, .exchanged reply => (exchangeTokens reply).all (w.isNew ·.refreshToken)
  | _, _ => true

/-- A save that fails at once does not look like one that lasts, where it was to replace a token
that was sent. -/
def persists (i : Nat) (e : Effect) (choice : Choice) : Bool :=
  match e with
  | .save credential compared =>
    match exec w i (.save credential compared) choice with
    | some (_, .error detail) => !AuthManager.containsMarker detail || w.isUnsent compared
    | _ => true
  | _ => true

/-- A late deletion succeeds. -/
def lateSucceeds (step : LateStep) : Bool :=
  match w.late step.task, step.outcome with
  | some (.delete _ _), .failed => false
  | _, _ => true

/-- A late save succeeds, where it was to replace a token that was sent. -/
def latePersists (step : LateStep) : Bool :=
  match w.late step.task, step.outcome with
  | some (.save _ compared _), .failed => w.isUnsent compared
  | _, _ => true

end World

/-- Managers of one scope, whose loads and deletions succeed, and a server whose tokens are new. -/
def Shared (env : SystemEnvironment) (scope : Scope) (pool : AuthPool) : AuthStep → Bool
  | .run i choice =>
    match pool.tasks i with
    | some (.ask e _) => pool.shared.succeeds i e choice
    | _ => true
  | .event step => pool.shared.lateSucceeds step
  | .start (.build origin clientIdPath) | .start (.buildEnvironment _ origin clientIdPath) =>
    credentialScope env.digest env.debug origin clientIdPath = scope
  | _ => true

/-- No save that is to replace a token that was sent fails behind its timeout, or seems to have
lasted longer. -/
def Persisted (pool : AuthPool) : AuthStep → Bool
  | .run i choice =>
    match pool.tasks i with
    | some (.ask e _) => pool.shared.persists i e choice
    | _ => true
  | .event step => pool.shared.latePersists step
  | _ => true

namespace Once

theorem note (h : Once scope w φ) (generation : Option Nat) :
    Once scope (w.note i m generation) φ := by
  have hnoted : Once scope (w.note i m generation) (Function.update φ i (φ i)) := by
    refine h.quiet (h.coherent.quiet (aside_note generation) rfl) (ledger_note generation) (.refl _)
      ?_ fun hheld hdirty => ⟨hheld, hdirty⟩
    rw [SameTokens, note_managers]
    exact SameTokens.refl w
  rwa [Function.update_eq_self] at hnoted

theorem fail_of_nothing {χ : Grip} (h : χ.burning = none) : χ.fail = χ := by
  obtain ⟨held, seen, saved, burning, dirty, late, broken, used, fresh⟩ := χ
  cases h
  simp [Grip.fail]

/-- A save that fails at once leaves no token behind that was sent. -/
theorem save_spares (h : Once scope w φ) (hmanager : w.managers (w.owner i) = some manager)
    {compared : Option String} (hseen : (φ i).seen = some compared)
    (hunsent : w.isUnsent compared = true) : (φ i).burning = none := by
  cases hburning : (φ i).burning with
  | none => rfl
  | some token =>
    have hcompared : compared = some token := by
      obtain ⟨environment, hplace⟩ := h.place hmanager
      cases environment with
      | false =>
        have hreads := (h.coherent.tasks i).keyring _ hplace
        exact (hreads.seen _ hseen).2.symm.trans (hreads.burning _ hburning).1
      | true => cases ((h.coherent.tasks i).environment _ hplace).2.1.symm.trans hburning
    exact absurd hcompared (World.isUnsent_iff.mp hunsent _ (h.burning i token hburning).1)

/-- **An effect of the discipline keeps the invariant.** -/
theorem executed (h : Once scope w φ) {e : Effect} {choice : Choice} {r : e.Answer}
    (hmanager : w.managers (w.owner i) = some manager)
    (hrequires : discipline.requires e (φ i)) (hsucceeds : w.succeeds i e choice = true)
    (hpersists : w.persists i e choice = true) (hexec : exec w i e choice = some (w', r))
    (hexecuted : Executed w i (w.owner i) manager e choice w' r) :
    Once scope w' (Function.update φ i (discipline.next e (φ i) r)) := by
  have hcoherent := (h.coherent.executed hmanager hrequires hexecuted).2
  have hsame : Once scope w (Function.update φ i (φ i)) := by
    rwa [Function.update_eq_self]
  cases hexecuted with
  | now now => exact hsame
  | state op hbuilt =>
    cases op with
    | read what =>
      exact h.quiet hcoherent (ledger_enter _) (.refl _)
        (sameTokens_set hmanager (enter_managers _) rfl rfl) fun hheld hdirty => ⟨hheld, hdirty⟩
    | nextRevision =>
      exact h.quiet hcoherent (ledger_enter _) (.refl _)
        (sameTokens_set hmanager (enter_managers _) rfl rfl) fun hheld hdirty => ⟨hheld, hdirty⟩
    | adoptExternalCredential credential =>
      exact h.adopt hmanager hrequires.1 hrequires.2 hcoherent
    | clearLocalAuthorization detail => exact h.clear hmanager hrequires hcoherent
    | commitBundle bundle force previous =>
      exact h.commit hmanager hrequires.1 hrequires.2.1 hrequires.2.2 hcoherent
    | publishAccount generation account session =>
      refine h.quiet hcoherent (ledger_enter _) (.refl _)
        (sameTokens_set hmanager (enter_managers _) rfl ?_) fun hheld hdirty => ⟨hheld, hdirty⟩
      simp only [AuthState.apply]
      split <;> rfl
  | lockOperations cancellable hfree =>
    exact h.quiet hcoherent ⟨rfl, rfl, rfl, rfl, rfl, rfl⟩ (.refl _)
      (sameTokens_set hmanager rfl rfl rfl) fun hheld hdirty => ⟨hheld, hdirty⟩
  | lockCancelled => exact hsame
  | unlockOperations =>
    exact h.quiet hcoherent ⟨rfl, rfl, rfl, rfl, rfl, rfl⟩ (.refl _)
      (sameTokens_set hmanager rfl rfl rfl) fun hheld hdirty => ⟨hheld, hdirty⟩
  | lock hfree =>
    have hheld : (φ i).held = false := hrequires
    have hburning := ((h.coherent.tasks i).free hheld).2
    refine h.quiet hcoherent ⟨rfl, rfl, rfl, rfl, rfl, rfl⟩
      ⟨rfl, id, rfl, hburning.symm, fun _ => .inl rfl, ?_⟩ (.refl w) ?_
    · intro token hsome
      cases hburning.symm.trans hsome
    · intro hwas
      cases hheld.symm.trans hwas
  | lockFailed detail => exact hsame
  | unlock =>
    obtain ⟨hheld, hend⟩ := hrequires
    obtain hbroken | ⟨hburning, hdirty⟩ := hend
    · cases (h.unbroken i).symm.trans hbroken
    · refine h.quiet hcoherent ⟨rfl, rfl, rfl, rfl, rfl, rfl⟩
        ⟨rfl, id, rfl, hburning.symm, fun _ => .inl rfl, ?_⟩ (.refl w) ?_
      · intro token hsome
        cases hburning.symm.trans hsome
      · intro _ hwas
        cases hdirty.symm.trans hwas
  | load hbackend =>
    exact h.quiet hcoherent ⟨rfl, rfl, rfl, rfl, rfl, rfl⟩
      ⟨rfl, id, rfl, rfl, fun hheld => .inr ⟨hheld, rfl⟩, fun _ _ => id⟩ (.refl w)
      fun hheld hdirty => ⟨hheld, hdirty⟩
  | loadNothing hbackend =>
    exact h.quiet hcoherent (.refl w)
      ⟨rfl, id, rfl, rfl, fun hheld => .inr ⟨hheld, rfl⟩, fun _ _ => id⟩ (.refl w)
      fun hheld hdirty => ⟨hheld, hdirty⟩
  | loadFailed choice detail hfailed =>
    simp only [World.succeeds, hexec] at hsucceeds
    cases hsucceeds
  | save credential compared hbackend =>
    obtain ⟨hheld, hlate, hseen, hfresh⟩ := hrequires
    obtain ⟨hissued, hnew⟩ := h.fresh i credential hfresh
    have hnone := h.coherent.no_late hlate
    refine h.renewed hcoherent ⟨rfl, rfl, rfl, rfl⟩ ⟨?_, rfl, rfl, rfl, rfl, rfl⟩ hissued hnew ?_
      (.inl rfl) ?_ rfl ?_
    · exact fun token htoken => (List.mem_filter.mp htoken).1
    · intro hmem
      simpa using (List.mem_filter.mp hmem).2
    · rw [← h.one _ manager hmanager]
      exact Function.update_self _ _ _
    · intro j write hj
      refine .inl ⟨hj, ?_⟩
      rintro rfl
      cases hnone.symm.trans hj
  | saveFailed credential compared choice detail hfailed =>
    simp only [World.persists, hexec, Bool.or_eq_true, Bool.not_eq_true'] at hpersists
    cases hmarker : AuthManager.containsMarker detail with
    | false =>
      have hnext : discipline.next (.save credential compared) (φ i) (.error detail) = φ i := by
        simp [discipline, hmarker]
      rwa [hnext]
    | true =>
      rw [hmarker] at hpersists
      have hburning := h.save_spares hmanager hrequires.2.2.1 (hpersists.resolve_left (by simp))
      have hnext : discipline.next (.save credential compared) (φ i) (.error detail) = φ i :=
        (if_pos hmarker).trans (fail_of_nothing hburning)
      rwa [hnext]
  | saveLate credential compared hbackend =>
    obtain ⟨hheld, hlate, hseen, hfresh⟩ := hrequires
    obtain ⟨hissued, hnew⟩ := h.fresh i credential hfresh
    refine h.begun hcoherent ⟨rfl, rfl, rfl, rfl⟩ ⟨?_, rfl, rfl, rfl, rfl, rfl⟩ rfl rfl rfl rfl
      trivial ?_
    · exact fun token htoken => (List.mem_filter.mp htoken).1
    · rintro _ _ _ ⟨⟩
      refine ⟨hissued, hnew, fun hmem => ?_⟩
      simpa using (List.mem_filter.mp hmem).2
  | delete compared hbackend =>
    refine (h.note (w.marks i).expected).gone hcoherent ⟨rfl, rfl, rfl, rfl⟩
      ⟨fun _ => id, rfl, rfl, rfl, rfl, rfl⟩ rfl ?_ rfl fun _ _ => id
    rw [← h.one _ manager hmanager]
    exact Function.update_self _ _ _
  | deleteFailed compared choice detail hfailed =>
    simp only [World.succeeds, hexec] at hsucceeds
    cases hsucceeds
  | deleteLate compared hbackend =>
    exact (h.note (w.marks i).expected).begun hcoherent ⟨rfl, rfl, rfl, rfl⟩
      ⟨fun _ => id, rfl, rfl, rfl, rfl, rfl⟩ rfl rfl rfl rfl trivial fun _ _ _ hsave => by
        cases hsave
  | deleteNow compared hbackend =>
    refine h.gone hcoherent ⟨rfl, rfl, rfl, rfl⟩ ⟨fun _ => id, rfl, rfl, rfl, rfl, rfl⟩ rfl ?_ rfl
      fun _ _ => id
    rw [← h.one _ manager hmanager]
    exact Function.update_self _ _ _
  | deleteNowFailed compared choice detail hfailed =>
    simp only [World.succeeds, hexec] at hsucceeds
    cases hsucceeds
  | refresh token reply =>
    obtain ⟨hheld, hlate, hseen, hburning, hshape⟩ := hrequires
    have hsent := (h.send hmanager hheld hlate hseen hburning hshape).issue (i := i) hsucceeds
    rwa [Function.update_self, Function.update_idem] at hsent
  | exchange reply => exact h.issue hsucceeds
  | createAuthorization reply => exact hsame
  | session token reply =>
    exact h.quiet hcoherent ⟨rfl, rfl, rfl, rfl, rfl, rfl⟩ (.refl _) (.refl w)
      fun hheld hdirty => ⟨hheld, hdirty⟩
  | revoke token => exact hsame
  | build state available hbuilt =>
    obtain ⟨hheld, hburning, hstate⟩ := hrequires
    refine h.retake hmanager rfl rfl hcoherent ⟨rfl, rfl, rfl, rfl, rfl, rfl⟩
      ⟨rfl, id, rfl, rfl, fun hheld => .inr ⟨hheld, rfl⟩, fun _ _ => id⟩ ?_
    intro s hs htoken
    have htoken : state.refreshToken = some s.token := htoken
    obtain hnone | hseen := hstate
    · cases hnone.symm.trans htoken
    · have hburns := (h.sent_of_seen hmanager hheld (htoken ▸ hseen) hs rfl).2
      cases hburning.symm.trans hburns
  | report report =>
    exact h.quiet hcoherent ⟨rfl, rfl, rfl, rfl, rfl, rfl⟩ (.refl _) (.refl w)
      fun hheld hdirty => ⟨hheld, hdirty⟩

theorem owner_kept (h : Once scope w φ) {task : Nat} (htask : φ task = {}) {s : Sent}
    (hs : s ∈ w.sent) :
    (φ s.task).used = true ∧ Function.update w.owner task m s.task = s.manager := by
  obtain ⟨hused, hown⟩ := h.sender s hs
  refine ⟨hused, ?_⟩
  rw [Function.update_of_ne, hown]
  rintro rfl
  rw [htask] at hused
  cases hused

theorem burning_kept (h : Once scope w φ) {task j : Nat} (htask : φ task = {}) {token : String}
    (hburning : (φ j).burning = some token) :
    ⟨token, Function.update w.owner task m j, j⟩ ∈ w.sent ∧ (φ j).dirty = true := by
  obtain ⟨hmem, hdirty⟩ := h.burning j token hburning
  rw [Function.update_of_ne]
  · exact ⟨hmem, hdirty⟩
  · rintro rfl
    rw [htask] at hburning
    cases hburning

/-- A manager of the scope begins. -/
theorem addManager (h : Once scope w φ) {task : Nat} (htask : φ task = {}) {manager : Manager}
    (hscope : manager.scope = scope) (htoken : manager.state.refreshToken = none) :
    Once scope (w.addManager task manager) φ := by
  have hshares : manager.SharesLock w := by
    intro _ m other hother _ _
    rw [h.one m other hother, hscope]
  refine ⟨h.coherent.addManager htask hshares, ?_, h.unbroken, h.current, h.sentStored, h.sentOnce,
    h.issued, h.fresh, h.lateFresh, h.saved, ?_, ?_, h.stale, ?_⟩
  · refine (Function.forall_update_iff w.managers fun _ found => ∀ other, found = some other →
      other.scope = scope).mpr ⟨?_, fun k _ => h.one k⟩
    rintro other ⟨⟩
    exact hscope
  · exact fun s hs => h.owner_kept htask hs
  · exact fun j token hburning => h.burning_kept htask hburning
  · intro s hs other hother hsent
    by_cases hsame : s.manager = w.nextManager
    · have hother : Function.update w.managers w.nextManager (some manager) s.manager = some other :=
        hother
      rw [hsame, Function.update_self, Option.some.injEq] at hother
      subst hother
      cases htoken.symm.trans hsent
    · exact h.kept s hs other ((Function.update_of_ne hsame _ _).symm.trans hother) hsent

/-- A task of a manager begins. -/
theorem enroll (h : Once scope w φ) {task : Nat} (htask : φ task = {}) :
    Once scope { w with owner := Function.update w.owner task m } φ :=
  ⟨h.coherent.enroll htask, h.one, h.unbroken, h.current, h.sentStored, h.sentOnce, h.issued, h.fresh,
    h.lateFresh, h.saved, fun _ hs => h.owner_kept htask hs,
    fun _ _ hburning => h.burning_kept htask hburning, h.stale, h.kept⟩

end Once

/-! ## Every run -/

theorem once_sound (env : SystemEnvironment) (scope : Scope) :
    TaskSystem.Sound (authSystem env) discipline (Once scope) {} Discipline.Idle
      fun pool step => Shared env scope pool step = true ∧ Persisted pool step = true where
  exec := by
    intro pool φ i e k choice w' r h hi hC hrequires hexec
    obtain ⟨manager, hmanager, hexecuted⟩ := exec_executed hexec
    obtain ⟨hshared, hpersisted⟩ := hC
    simp only [Shared, hi] at hshared
    simp only [Persisted, hi] at hpersisted
    exact ⟨(h.coherent.executed hmanager hrequires hexecuted).1,
      h.executed hmanager hrequires hshared hpersisted hexec hexecuted⟩
  event := by
    intro pool φ step w' h hC hevent
    obtain ⟨write, manager, hwrite, hmanager, hmoved⟩ := lateStep_moved hevent
    refine h.moved hmanager hwrite ?_ hmoved
    intro hfailed
    obtain ⟨hshared, hpersisted⟩ := hC
    simp only [Shared, World.lateSucceeds, hwrite, hfailed] at hshared
    simp only [Persisted, World.latePersists, hwrite, hfailed] at hpersisted
    cases write with
    | save token compared seen => exact hpersisted
    | delete compared seen => cases hshared
    | cleanup token => trivial
    | remove token => trivial
  start := by
    intro pool φ operation w' p h htask hC hstart
    obtain ⟨hshared, -⟩ := hC
    cases operation with
    | build origin clientIdPath =>
      have hscope := of_decide_eq_true hshared
      cases hstart
      exact ⟨Discipline.newWithPaths_keeps rfl, h.addManager htask hscope rfl⟩
    | buildEnvironment key origin clientIdPath =>
      have hscope := of_decide_eq_true hshared
      cases hstart
      exact ⟨rfl, h.addManager htask hscope rfl⟩
    | call m call =>
      simp only [authSystem, start] at hstart
      split at hstart
      · split at hstart
        · cases hstart
          exact ⟨Discipline.call_keeps call rfl, h.enroll htask⟩
        · cases hstart
      · cases hstart

/-- The system credential store at the beginning of a run. -/
def World.initially (scope : Scope) (store : String → Option String) : World :=
  { store, stored := (store scope.entry).toList }

theorem once_start (scope : Scope) (store : String → Option String) :
    Once scope (.initially scope store) fun _ => {} := by
  refine ⟨?_, ?_, fun _ => rfl, ?_, nofun, .nil, nofun, nofun, nofun, nofun, nofun, nofun, nofun,
    nofun⟩
  · exact (coherent_start store).aside ⟨rfl, rfl, rfl, rfl, rfl, rfl, rfl, fun _ => rfl⟩
  · intro m manager hmanager
    cases hmanager
  · intro token htoken
    show token ∈ (store scope.entry).toList
    rw [show store scope.entry = some token from htoken]
    exact List.mem_cons_self

/-- **A refresh token is sent once.** In every run of managers of one scope where no save that was
to replace a sent token fails behind its timeout, no token is sent twice, and no manager has a token
that a task of its has sent and reported. -/
theorem refresh_tokens_sent_once (env : SystemEnvironment) (scope : Scope)
    (store : String → Option String) (steps : List AuthStep)
    (h : (authSystem env).machine.Meets
      (fun pool step => Shared env scope pool step = true ∧ Persisted pool step = true)
      { shared := .initially scope store } steps) :
    let pool := ((authSystem env).machine.run { shared := .initially scope store } steps).1
    (pool.shared.sent.map (·.token)).Nodup ∧
      ∀ s ∈ pool.shared.sent, (pool.tasks s.task).any Prog.isDone = true →
        ∀ manager, pool.shared.managers s.manager = some manager →
          manager.state.refreshToken ≠ some s.token := by
  obtain ⟨φ, hinv, htasks, -⟩ := (once_sound env scope).run (once_start scope store) h
  refine ⟨hinv.sentOnce, ?_⟩
  intro s hs hdone manager hmanager htoken
  obtain ⟨p, hp, hret⟩ := (Option.any_eq_true _ _).mp hdone
  obtain ⟨hheld, -⟩ := hinv.kept s hs manager hmanager htoken
  cases p with
  | ret a => cases hheld.symm.trans (htasks s.task _ hp)
  | ask e k => cases hret

/-! ## Rotations -/

def plainScope : Scope := credentialScope id false "https://api.axiom.stream" ["a", "client-id"]

/-- A stored credential. -/
def oneCredential : AuthPool := { shared := .initially plainScope fun _ => some firstToken }

/-- A task refreshes, up to its request. -/
def refreshAs (task manager : Nat) : List AuthStep :=
  [.start (.call manager (.accessToken 30)), .run task (.time 0)] ++ go task 2 ++
    [.run task (.time 0)] ++ go task 5

/-- A rotation whose save lasts longer than its timeout, and the report of its failure. -/
def lateRotation (task : Nat) : List AuthStep :=
  [.run task (.refreshed (.response (grant secondToken))), .run task (.time 0)] ++ go task 2 ++
    [.run task .late] ++ go task 5

/-- The late save lands, and is removed. -/
def cleanedRotation : List AuthStep :=
  buildIn 0 "a" ++ refreshAs 1 0 ++ lateRotation 1 ++
    [.event ⟨1, .landed⟩, .event ⟨1, .landed⟩, .event ⟨1, .landed⟩]

theorem refresh_token_sent_once_late :
    let pool := ((authSystem plainSystem).machine.run oneCredential cleanedRotation).1
    pool.shared.sent = [⟨firstToken, 0, 1⟩] ∧ (pool.tasks 1).any Prog.isDone = true ∧
      (pool.shared.sent.map (·.token)).Nodup ∧
      ∀ s ∈ pool.shared.sent, (pool.tasks s.task).any Prog.isDone = true →
        ∀ manager, pool.shared.managers s.manager = some manager →
          manager.state.refreshToken ≠ some s.token :=
  ⟨by decide +kernel, by decide +kernel,
    refresh_tokens_sent_once plainSystem plainScope (fun _ => some firstToken) cleanedRotation
      (by decide +kernel)⟩

/-- The late save fails; another process finds the token that was sent. -/
def failedRotation : List AuthStep :=
  buildIn 0 "a" ++ refreshAs 1 0 ++ lateRotation 1 ++ [.event ⟨1, .failed⟩] ++ buildIn 2 "a" ++
    refreshAs 3 1 ++ [.run 3 (.refreshed .unauthorized)]

/-- **A token is sent again** when the save of its successor fails behind its timeout. -/
theorem late_failure_sends_again :
    (authSystem plainSystem).machine.Meets
        (fun pool step => Shared plainSystem plainScope pool step = true) oneCredential
        failedRotation ∧
      ¬ ((((authSystem plainSystem).machine.run oneCredential
        failedRotation).1.shared.sent.map (·.token)).Nodup) := by
  exact ⟨by decide +kernel, by decide +kernel⟩

end AxiomDesktop.Auth
