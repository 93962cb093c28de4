import AxiomDesktop.Account.Switch

/-!
# The account switch barrier

`account_switch_barrier`: over every interleaving of requests and switches, nothing enters and
nothing is published while a switch is on; a switch changes the database when only the guard it
excludes is left; and a work never reaches the database of another activation than the one it was
bound beside. The invariant is `Barrier`: at most one task owns the switch, the work stays drained
until that task has changed the store, and a generation belongs to one activation (`Tied`).
-/

namespace AxiomDesktop

namespace SwitchPhase

/-- The task started a switch and has not finished it. -/
def owns : SwitchPhase → Bool
  | cancelling .. | started .. | drained .. | closed .. | opened .. | switched | unmarked
  | abandoned => true
  | _ => false

/-- The task has drained the work and may still change the store. -/
def settled : SwitchPhase → Bool
  | drained .. | closed .. | opened .. => true
  | _ => false

/-- The task has closed the database to open another. -/
def closes : SwitchPhase → Bool
  | closed .. | opened .. => true
  | _ => false

/-- The task keeps the tracker's mutex. -/
def publishes : SwitchPhase → Bool
  | checked .. | publishing .. => true
  | _ => false

/-- The work the task has in hand. -/
def work? : SwitchPhase → Option AccountStoreWork
  | bound work | entered work | operating work | operated work | checked work
  | publishing work => some work
  | _ => none

end SwitchPhase

namespace AccountWorkState

variable {state state' : AccountWorkState}

theorem register_ok {id : GuardId} {cancellation : Token}
    (h : state.register id cancellation = .ok state') :
    state.switching = false ∧ state' = { state with active := state.active ++ [(id, cancellation)] } := by
  unfold register at h
  split at h
  · cases h
  · next hs =>
    cases h
    exact ⟨by simpa using hs, rfl⟩

theorem startSwitch_ok {excluding : Option GuardId} {tokens : List Token}
    (h : state.startSwitch excluding = .ok (state', tokens)) : state.switching = false ∧
      state' = { state with switching := true, switchExcluded := excluding } := by
  unfold startSwitch at h
  split at h
  · cases h
  · next hs =>
    cases h
    exact ⟨by simpa using hs, rfl⟩

theorem drained_remove (h : state.drained = true) (id : GuardId) :
    (state.remove id).drained = true := by
  simp only [drained, remove, List.all_eq_true] at h ⊢
  intro entry hentry
  exact h entry (List.mem_filter.mp hentry).1

end AccountWorkState

/-- A bound work belongs to one generation, and that generation to the connection it was bound
beside. -/
def Tied (state : StoreState) (activations : Nat) (work : AccountStoreWork) : Prop :=
  ∃ binding connection, work.store.binding = some binding ∧
    work.boundBeside = some connection ∧ connection.activation < activations ∧
    binding.generation ≤ state.generation ∧
    (binding.generation = state.generation → state.connection = some connection)

theorem SessionStore.lock_ok {store : SessionStore} {state : StoreState} {connection : Connection}
    (h : store.lock state = .ok connection) :
    bindingMatches store.binding state = true ∧ state.connection = some connection := by
  unfold lock at h
  by_cases hmatches : bindingMatches store.binding state = false
  · rw [if_pos hmatches] at h
    cases h
  · rw [if_neg hmatches] at h
    cases hconnection : state.connection with
    | none => simp [hconnection] at h
    | some c =>
      rw [hconnection] at h
      cases h
      exact ⟨by simpa using hmatches, rfl⟩

theorem bindingMatches_some {binding : StoreBinding} {state : StoreState}
    (h : bindingMatches (some binding) state = true) : binding.generation = state.generation := by
  simp only [bindingMatches, Bool.and_eq_true, decide_eq_true_eq] at h
  exact h.1

/-- A tied work locks the connection it was bound beside or none. -/
theorem Tied.lock {state : StoreState} {activations : Nat} {work : AccountStoreWork}
    {connection : Connection} (h : Tied state activations work)
    (hlock : work.store.lock state = .ok connection) :
    work.boundBeside = some connection ∧ state.connection = work.boundBeside := by
  obtain ⟨binding, c, hbinding, hc, -, -, htied⟩ := h
  obtain ⟨hmatches, hconnection⟩ := SessionStore.lock_ok hlock
  rw [hbinding] at hmatches
  have hopen := htied (bindingMatches_some hmatches)
  rw [hconnection, Option.some.injEq] at hopen
  subst hopen
  exact ⟨hc, by rw [hconnection, hc]⟩

theorem SessionStore.ensureActiveAccountBinding_ok {store : SessionStore} {state : StoreState}
    (h : (store.ensureActiveAccountBinding state).toBool = true) :
    ∃ connection, store.lock state = .ok connection := by
  unfold ensureActiveAccountBinding at h
  cases hlock : store.lock state with
  | error e => simp [hlock, bind, Except.bind, Except.toBool] at h
  | ok connection => exact ⟨connection, rfl⟩

/-- Binding ties a work to the open connection. -/
theorem SessionStore.bindActiveAccount_ok {store bound : SessionStore} {state : StoreState}
    (h : store.bindActiveAccount state = .ok bound) :
    ∃ binding connection, bound.binding = some binding ∧ state.connection = some connection ∧
      binding.generation = state.generation := by
  unfold bindActiveAccount at h
  cases hbinding : store.binding with
  | some binding =>
    rw [hbinding, if_pos Option.isSome_some] at h
    cases hensure : store.ensureActiveAccountBinding state with
    | error e =>
      rw [hensure] at h
      cases h
    | ok u =>
      rw [hensure] at h
      cases h
      obtain ⟨connection, hlock⟩ := ensureActiveAccountBinding_ok (by rw [hensure]; rfl)
      obtain ⟨hmatches, hconnection⟩ := lock_ok hlock
      rw [hbinding] at hmatches
      exact ⟨binding, connection, hbinding, hconnection, bindingMatches_some hmatches⟩
  | none =>
    rw [hbinding, if_neg (by simp)] at h
    cases hconnection : state.connection with
    | none => simp [hconnection] at h
    | some connection =>
      split at h
      · cases h
      · cases h
        exact ⟨⟨state.generation, state.accountId⟩, connection, rfl, rfl, rfl⟩

theorem advanceStoreGeneration_ok {state state' : StoreState}
    (h : advanceStoreGeneration state = .ok state') :
    state' = { state with generation := state.generation + 1 } := by
  unfold advanceStoreGeneration at h
  split at h
  · cases h
    rfl
  · cases h

/-- A section that closes the database goes on to a new generation. -/
def Closes (state state' : StoreState) : Prop :=
  state'.generation = state.generation + 1 ∧ state'.connection = none

theorem SessionStore.deactivateAccount_ok {store : SessionStore} {state state' : StoreState}
    (h : store.deactivateAccount state = .ok state') : Closes state state' := by
  unfold deactivateAccount at h
  split at h
  · cases h
  · cases hnext : advanceStoreGeneration state with
    | error e =>
      rw [hnext] at h
      cases h
    | ok next =>
      rw [hnext] at h
      cases h
      rw [advanceStoreGeneration_ok hnext]
      exact ⟨rfl, rfl⟩

theorem SessionStore.beginActivation_ok {store : SessionStore} {state state' : StoreState}
    {account : AccountId} (h : store.beginActivation state account = .ok (some state')) :
    Closes state state' := by
  unfold beginActivation at h
  split_ifs at h
  · cases h
  · cases hnext : advanceStoreGeneration state with
    | error e =>
      rw [hnext] at h
      cases h
    | ok next =>
      rw [hnext] at h
      cases h
      rw [advanceStoreGeneration_ok hnext]
      exact ⟨rfl, rfl⟩

theorem Tied.closes {state state' : StoreState} {activations : Nat} {work : AccountStoreWork}
    (h : Tied state activations work) (hcloses : Closes state state') :
    Tied state' activations work := by
  obtain ⟨binding, connection, hbinding, hc, hnumber, hle, -⟩ := h
  refine ⟨binding, connection, hbinding, hc, hnumber, by rw [hcloses.1]; omega, ?_⟩
  intro hgeneration
  rw [hcloses.1] at hgeneration
  omega

/-- No work is tied to a generation without a connection, so a new one takes nothing over. -/
theorem Tied.endActivation {state : StoreState} {activations : Nat} {work : AccountStoreWork}
    (h : Tied state activations work) (hnone : state.connection = none) (account : AccountId)
    (connection : Connection) : Tied (state.endActivation account connection) activations work := by
  obtain ⟨binding, c, hbinding, hc, hnumber, hle, htied⟩ := h
  refine ⟨binding, c, hbinding, hc, hnumber, hle, ?_⟩
  intro hgeneration
  rw [htied hgeneration] at hnone
  cases hnone

namespace AccountSystem

variable {Task : Type*} {s s' : AccountSystem Task} {t : Task} {owner owner' : Option Task}
  {phase : SwitchPhase}

/-! ## The invariant -/

/-- A phase fits what the tasks share; `owner` is the task that owns the switch. -/
structure Sound (s : AccountSystem Task) (owner : Option Task) (u : Task) (phase : SwitchPhase) :
    Prop where
  owned : phase.owns = true → s.tracker.switching = true ∧ owner = some u
  drained : phase.settled = true → s.tracker.drained = true
  locked : phase.publishes = true → s.trackerOwner = some u ∧ s.tracker.switching = false
  published : ∀ work, phase = .publishing work → s.store.connection = work.boundBeside
  closed : phase.closes = true → s.store.connection = none
  tied : ∀ work, phase.work? = some work → Tied s.store s.activations work

/-- **The invariant** of the tracker, the store and the tasks. -/
structure Barrier (s : AccountSystem Task) (owner : Option Task) : Prop where
  phases : ∀ u, Sound s owner u (s.phase u)
  works : ∀ work ∈ s.works, Tied s.store s.activations work
  numbered : ∀ connection, s.store.connection = some connection →
    connection.activation < s.activations

theorem sound_idle (u : Task) : Sound s owner u .idle := by
  constructor <;> simp [SwitchPhase.owns, SwitchPhase.settled, SwitchPhase.publishes, SwitchPhase.closes, SwitchPhase.work?]

theorem start_barrier (store : StoreState) : Barrier (start store : AccountSystem Task) none where
  phases u := sound_idle u
  works := by simp [start]
  numbered := by
    intro connection h
    have h : store.connection = some connection := h
    simp [start, h]

/-- Where the tracker and the store stay, so does what fits them. -/
theorem Sound.congr {u : Task} (h : Sound s owner u phase) (htracker : s'.tracker = s.tracker)
    (howner : s'.trackerOwner = s.trackerOwner) (hstore : s'.store = s.store)
    (hactivations : s'.activations = s.activations) : Sound s' owner u phase := by
  constructor
  · rw [htracker]
    exact h.owned
  · rw [htracker]
    exact h.drained
  · rw [htracker, howner]
    exact h.locked
  · rw [hstore]
    exact h.published
  · rw [hstore]
    exact h.closed
  · rw [hstore, hactivations]
    exact h.tied

/-- A phase in which the task has a work in hand and nothing else. -/
theorem sound_work {u : Task} {work : AccountStoreWork} (h : Tied s.store s.activations work) :
    Sound s owner u (.bound work) ∧ Sound s owner u (.entered work) ∧
      Sound s owner u (.operating work) ∧ Sound s owner u (.operated work) := by
  refine ⟨?_, ?_, ?_, ?_⟩ <;> constructor <;>
    simp [SwitchPhase.owns, SwitchPhase.settled, SwitchPhase.publishes, SwitchPhase.closes, SwitchPhase.work?, h]

/-- A phase of the switch's owner fits as its earlier ones did. -/
theorem Sound.own {u : Task} {phase' : SwitchPhase} (h : Sound s owner u phase)
    (howns : phase.owns = true) (hsettled : phase'.settled = true → phase.settled = true)
    (hcloses : phase'.closes = true → phase.closes = true) (hpublishes : phase'.publishes = false)
    (hwork : phase'.work? = none) : Sound s owner u phase' where
  owned _ := h.owned howns
  drained hd := h.drained (hsettled hd)
  locked hl := by simp [hpublishes] at hl
  published work hw := by simp [hw, SwitchPhase.publishes] at hpublishes
  closed hc := h.closed (hcloses hc)
  tied work hw := by simp [hwork] at hw

theorem owns_of_settled (h : phase.settled = true) : phase.owns = true := by
  cases phase <;> simp_all [SwitchPhase.settled, SwitchPhase.owns]

theorem settled_of_closes (h : phase.closes = true) : phase.settled = true := by
  cases phase <;> simp_all [SwitchPhase.settled, SwitchPhase.closes]

/-- While no switch is on, no task is at a phase of one. -/
theorem Barrier.not_owns (h : Barrier s owner) (hs : s.tracker.switching = false) (u : Task) :
    (s.phase u).owns = false ∧ (s.phase u).settled = false := by
  have hnot : (s.phase u).owns = false := by
    by_contra ho
    rw [Bool.not_eq_false] at ho
    have := ((h.phases u).owned ho).1
    simp [hs] at this
  refine ⟨hnot, ?_⟩
  by_contra hd
  rw [Bool.not_eq_false] at hd
  simp [owns_of_settled hd] at hnot

/-- While a switch is on, no task publishes. -/
theorem Barrier.not_publishes (h : Barrier s owner) (hs : s.tracker.switching = true) (u : Task) :
    (s.phase u).publishes = false := by
  by_contra hp
  rw [Bool.not_eq_false] at hp
  have := ((h.phases u).locked hp).2
  simp [hs] at this

/-- The task that owns the switch is the only one. -/
theorem Barrier.eq_owner (h : Barrier s owner) {u : Task} (ht : (s.phase t).owns = true)
    (hu : (s.phase u).owns = true) : u = t := by
  have hto := ((h.phases t).owned ht).2
  have huo := ((h.phases u).owned hu).2
  rw [hto, Option.some.injEq] at huo
  exact huo.symm

theorem dropGuard_barrier (h : Barrier s owner) (guard : GuardId) :
    Barrier { s with tracker := s.tracker.remove guard } owner := by
  refine ⟨?_, h.works, h.numbered⟩
  intro u
  have hu := h.phases u
  exact ⟨hu.owned, fun hd => AccountWorkState.drained_remove (hu.drained hd) guard, hu.locked,
    hu.published, hu.closed, hu.tied⟩

/-- A bound work is tied to the connection it was bound beside. -/
theorem tied_of_bind (h : Barrier s owner) {store bound : SessionStore} {cancellation : Token}
    {guard : GuardId} (hb : store.bindActiveAccount s.store = .ok bound) :
    Tied s.store s.activations ⟨bound, cancellation, guard, s.store.connection⟩ := by
  obtain ⟨binding, connection, hbinding, hconnection, hgeneration⟩ :=
    SessionStore.bindActiveAccount_ok hb
  exact ⟨binding, connection, hbinding, hconnection, h.numbered connection hconnection,
    by omega, fun _ => hconnection⟩

/-- A work that `register_store` returned, or that a task has in hand. -/
def Known (s : AccountSystem Task) (work : AccountStoreWork) : Prop :=
  work ∈ s.works ∨ ∃ u, (s.phase u).work? = some work

theorem Barrier.known (h : Barrier s owner) {work : AccountStoreWork} (hw : s.Known work) :
    Tied s.store s.activations work := by
  obtain hw | ⟨u, hu⟩ := hw
  · exact h.works work hw
  · exact (h.phases u).tied work hu

/-- A section leaves the store, and lets nobody in while a switch is on. -/
def KeepsOut (s s' : AccountSystem Task) : Prop :=
  s'.store = s.store ∧
    ∀ entry ∈ s'.tracker.active, entry ∈ s.tracker.active ∨ s.tracker.switching = false

theorem KeepsOut.of_eq (hstore : s'.store = s.store)
    (hactive : s'.tracker.active = s.tracker.active) : KeepsOut s s' :=
  ⟨hstore, fun _ he => Or.inl (hactive ▸ he)⟩

theorem keepsOut_dropGuard (s : AccountSystem Task) (guard : GuardId) :
    KeepsOut s { s with tracker := s.tracker.remove guard } :=
  ⟨rfl, fun _ he => Or.inl (List.mem_filter.mp he).1⟩

variable [DecidableEq Task]

/-- One task steps: what the others are at must still fit, and what it comes to must. -/
theorem Barrier.step (h : Barrier s owner) (hphase : s'.phase = Function.update s.phase t phase)
    (hothers : ∀ u, u ≠ t → Sound s owner u (s.phase u) → Sound s' owner' u (s.phase u))
    (ht : Sound s' owner' t phase)
    (hworks : ∀ work ∈ s'.works, Tied s'.store s'.activations work)
    (hnumbered : ∀ connection, s'.store.connection = some connection →
      connection.activation < s'.activations) : Barrier s' owner' := by
  refine ⟨?_, hworks, hnumbered⟩
  rw [hphase, Function.forall_update_iff s.phase fun u phase => Sound s' owner' u phase]
  exact ⟨ht, fun u hu => hothers u hu (h.phases u)⟩

/-- One task steps, and the tracker and the store stay. -/
theorem Barrier.quiet (h : Barrier s owner) (htracker : s'.tracker = s.tracker)
    (howner : s'.trackerOwner = s.trackerOwner) (hstore : s'.store = s.store)
    (hactivations : s'.activations = s.activations)
    (hphase : s'.phase = Function.update s.phase t phase) (ht : Sound s owner t phase)
    (hworks : ∀ work ∈ s'.works, Tied s.store s.activations work) : Barrier s' owner := by
  refine h.step hphase ?_ (ht.congr htracker howner hstore hactivations) ?_ ?_
  · intro u _ hu
    exact hu.congr htracker howner hstore hactivations
  · rw [hstore, hactivations]
    exact hworks
  · rw [hstore, hactivations]
    exact h.numbered

theorem Barrier.moveTo (h : Barrier s owner) (ht : Sound s owner t phase) :
    Barrier (s.moveTo t phase) owner :=
  h.quiet rfl rfl rfl rfl rfl ht h.works

/-! ## The steps -/

theorem register_barrier (h : Barrier s owner) (store : SessionStore) (cancellation : Token) :
    Barrier (s.register t store cancellation) owner := by
  unfold register
  cases hr : s.tracker.register s.guards cancellation with
  | error e => exact h
  | ok tracker =>
    obtain ⟨hs, rfl⟩ := AccountWorkState.register_ok hr
    refine h.step rfl ?_ ?_ h.works h.numbered
    · intro u _ hu
      obtain ⟨howns, hsettled⟩ := h.not_owns hs u
      exact ⟨fun ho => by simp [howns] at ho, fun hd => by simp [hsettled] at hd, hu.locked,
        hu.published, hu.closed, hu.tied⟩
    · constructor <;> simp [SwitchPhase.owns, SwitchPhase.settled, SwitchPhase.publishes, SwitchPhase.closes, SwitchPhase.work?]

/-- `publish` takes the tracker's mutex when no switch is on. -/
theorem publish_barrier (h : Barrier s owner) {work : AccountStoreWork} (hwork : work ∈ s.works)
    (hfree : s.trackerOwner = none) : Barrier (s.publish t work) owner := by
  unfold publish
  split
  · exact h
  · next hcheck =>
    simp only [Bool.or_eq_true, not_or, Bool.not_eq_true] at hcheck
    refine h.step rfl ?_ ?_ h.works h.numbered
    · intro u _ hu
      refine ⟨hu.owned, hu.drained, ?_, hu.published, hu.closed, hu.tied⟩
      intro hl
      have := (hu.locked hl).1
      simp [hfree] at this
    · refine ⟨by simp [SwitchPhase.owns], by simp [SwitchPhase.settled], fun _ => ⟨rfl, hcheck.1.1⟩, by simp,
        by simp [SwitchPhase.closes], ?_⟩
      rintro w ⟨⟩
      exact h.works work hwork

/-- The publisher gives the tracker's mutex back. -/
theorem release_barrier (h : Barrier s owner) (ht : (s.phase t).publishes = true) :
    Barrier ({ s with trackerOwner := none }.moveTo t .idle) owner := by
  refine h.step rfl ?_ (sound_idle t) h.works h.numbered
  intro u hne hu
  refine ⟨hu.owned, hu.drained, ?_, hu.published, hu.closed, hu.tied⟩
  intro hl
  have howner := ((h.phases t).locked ht).1
  rw [(hu.locked hl).1, Option.some.injEq] at howner
  exact absurd howner hne

/-- The closure of `publish` starts beside the connection its work was bound beside. -/
theorem checked_barrier (h : Barrier s owner) {work : AccountStoreWork}
    (ht : s.phase t = .checked work) (hbound : s.isBound work = true) :
    Barrier (s.moveTo t (.publishing work)) owner := by
  have hsound := h.phases t
  rw [ht] at hsound
  obtain ⟨connection, hlock⟩ := SessionStore.ensureActiveAccountBinding_ok hbound
  have htied := hsound.tied work rfl
  refine h.moveTo ⟨by simp [SwitchPhase.owns], by simp [SwitchPhase.settled], fun _ => hsound.locked rfl, ?_,
    by simp [SwitchPhase.closes], ?_⟩
  · rintro w ⟨⟩
    exact (htied.lock hlock).2
  · rintro w ⟨⟩
    exact htied

/-- `start_switch` makes its task the owner. -/
theorem startSwitch_barrier (h : Barrier s owner) {switch : AccountSwitch}
    (hfree : s.trackerOwner = none) : ∃ owner', Barrier (s.startSwitch t switch) owner' := by
  unfold startSwitch
  rcases hr : s.tracker.startSwitch switch.excludingTask with e | ⟨tracker, tokens⟩
  · refine ⟨owner, h.moveTo ?_⟩
    constructor <;> simp [SwitchPhase.owns, SwitchPhase.settled, SwitchPhase.publishes, SwitchPhase.closes, SwitchPhase.work?]
  · obtain ⟨hs, rfl⟩ := AccountWorkState.startSwitch_ok hr
    refine ⟨some t, h.step rfl ?_ ?_ h.works h.numbered⟩
    · intro u _ hu
      obtain ⟨howns, hsettled⟩ := h.not_owns hs u
      refine ⟨fun ho => by simp [howns] at ho, fun hd => by simp [hsettled] at hd, ?_,
        hu.published, hu.closed, hu.tied⟩
      intro hl
      have := (hu.locked hl).1
      simp [hfree] at this
    · refine ⟨fun _ => ⟨rfl, rfl⟩, ?_, ?_, ?_, ?_, ?_⟩ <;>
        simp [SwitchPhase.settled, SwitchPhase.publishes, SwitchPhase.closes, SwitchPhase.work?]

/-- The owner of the switch closes the database. -/
theorem close_barrier (h : Barrier s owner) {state : StoreState} {switchOwner : Option Task}
    (hcloses : Closes s.store state) (ht : (s.phase t).settled = true)
    (hphase : phase = .switched ∨ ∃ account, phase = .closed account) :
    Barrier ({ s with store := state, switchOwner }.moveTo t phase) owner := by
  have howns := owns_of_settled ht
  have hswitching := ((h.phases t).owned howns).1
  refine h.step rfl ?_ ?_ ?_ ?_
  · intro u _ hu
    refine ⟨hu.owned, hu.drained, hu.locked, ?_, fun _ => hcloses.2,
      fun work hw => (hu.tied work hw).closes hcloses⟩
    intro work hw
    have := h.not_publishes hswitching u
    simp [hw, SwitchPhase.publishes] at this
  · refine ⟨fun _ => (h.phases t).owned howns, fun _ => (h.phases t).drained ht, ?_, ?_,
      fun _ => hcloses.2, ?_⟩
    all_goals obtain rfl | ⟨account, rfl⟩ := hphase
    all_goals simp [SwitchPhase.publishes, SwitchPhase.work?]
  · intro work hw
    exact (h.works work hw).closes hcloses
  · intro connection hc
    have hc : state.connection = some connection := hc
    simp [hcloses.2] at hc

theorem changeStore_barrier (h : Barrier s owner) {switch : AccountSwitch}
    (ht : s.phase t = .drained switch) : Barrier (s.changeStore t switch) owner := by
  have hsettled : (s.phase t).settled = true := by rw [ht]; rfl
  have hswitched : Barrier (s.moveTo t .switched) owner := by
    refine h.moveTo ((h.phases t).own (owns_of_settled hsettled) ?_ ?_ rfl rfl)
    · simp [SwitchPhase.settled]
    · simp [SwitchPhase.closes]
  unfold changeStore
  cases hstore : switch.store with
  | none => exact hswitched
  | some store =>
    cases haccount : switch.account with
    | none =>
      dsimp only
      cases hd : store.deactivateAccount s.store with
      | error e => exact hswitched
      | ok state =>
        exact close_barrier h (SessionStore.deactivateAccount_ok hd) hsettled (Or.inl rfl)
    | some account =>
      dsimp only
      rcases hb : store.beginActivation s.store account with e | _ | state
      · exact hswitched
      · exact hswitched
      · exact close_barrier h (SessionStore.beginActivation_ok hb) hsettled
          (Or.inr ⟨account, rfl⟩)

/-- The owner of the switch hands the new connection over. -/
theorem endActivation_barrier (h : Barrier s owner) {account : AccountId}
    (ht : s.phase t = .opened account) : Barrier ({ s with
      store := s.store.endActivation account ⟨some account, s.activations⟩
      activations := s.activations + 1
      switchOwner := none }.moveTo t .switched) owner := by
  have howns : (s.phase t).owns = true := by rw [ht]; rfl
  have hnone := (h.phases t).closed (by rw [ht]; rfl)
  have hswitching := ((h.phases t).owned howns).1
  have htied : ∀ work, Tied s.store s.activations work →
      Tied (s.store.endActivation account ⟨some account, s.activations⟩) (s.activations + 1)
        work := by
    intro work hw
    obtain ⟨binding, c, hbinding, hc, hnumber, hle⟩ := hw.endActivation hnone account
      ⟨some account, s.activations⟩
    exact ⟨binding, c, hbinding, hc, by omega, hle⟩
  refine h.step rfl ?_ ?_ (fun work hw => htied work (h.works work hw)) ?_
  · intro u hne hu
    refine ⟨hu.owned, hu.drained, hu.locked, ?_, ?_, fun work hw => htied work (hu.tied work hw)⟩
    · intro work hw
      have := h.not_publishes hswitching u
      simp [hw, SwitchPhase.publishes] at this
    · intro hc
      exact absurd (h.eq_owner howns (owns_of_settled (settled_of_closes hc))) hne
  · refine ⟨fun _ => (h.phases t).owned howns, ?_, ?_, ?_, ?_, ?_⟩ <;>
      simp [SwitchPhase.settled, SwitchPhase.publishes, SwitchPhase.closes, SwitchPhase.work?]
  · rintro connection ⟨⟩
    show s.activations < s.activations + 1
    omega

/-- The owner of the switch ends it. -/
theorem finishSwitch_barrier (h : Barrier s owner) (ht : s.phase t = .unmarked)
    (hfree : s.trackerOwner = none) :
    Barrier ({ s with tracker := s.tracker.finishSwitch }.moveTo t .idle) none := by
  have howns : (s.phase t).owns = true := by rw [ht]; rfl
  refine h.step rfl ?_ (sound_idle t) h.works h.numbered
  intro u hne hu
  have hnot : (s.phase u).owns ≠ true := fun ho => hne (h.eq_owner howns ho)
  refine ⟨fun ho => absurd ho hnot, fun hd => absurd (owns_of_settled hd) hnot, ?_, hu.published,
    hu.closed, hu.tied⟩
  intro hl
  have := (hu.locked hl).1
  simp [hfree] at this

/-- The next section of any task keeps the invariant. -/
theorem proceed_barrier (h : Barrier s owner) : ∃ owner', Barrier (s.proceed t) owner' := by
  have ht := h.phases t
  unfold proceed
  cases hp : s.phase t with
  | idle => exact ⟨owner, h⟩
  | abandoned => exact ⟨owner, h⟩
  | registered store guard cancellation =>
    dsimp only
    cases hb : store.bindActiveAccount s.store with
    | error e => exact ⟨owner, h.moveTo (sound_idle t)⟩
    | ok bound => exact ⟨owner, h.moveTo (sound_work (tied_of_bind h hb)).1⟩
  | bound work =>
    have htied := ht.tied work (by rw [hp]; rfl)
    dsimp only
    split
    · exact ⟨owner, h.moveTo (sound_idle t)⟩
    · refine ⟨owner, h.quiet rfl rfl rfl rfl rfl (sound_idle t) ?_⟩
      intro w hw
      obtain hw | hw := List.mem_append.mp hw
      · exact h.works w hw
      · rw [List.mem_singleton.mp hw]
        exact htied
  | entered work =>
    have htied := ht.tied work (by rw [hp]; rfl)
    refine ⟨owner, h.moveTo ?_⟩
    split
    · exact (sound_work htied).2.2.1
    · exact sound_idle t
  | operating work =>
    have htied := ht.tied work (by rw [hp]; rfl)
    refine ⟨owner, h.moveTo ?_⟩
    split
    · exact sound_idle t
    · exact (sound_work htied).2.2.2
  | operated work => exact ⟨owner, h.moveTo (sound_idle t)⟩
  | checked work =>
    dsimp only
    split
    · next hbound => exact ⟨owner, checked_barrier h hp hbound⟩
    · exact ⟨owner, release_barrier h (by rw [hp]; rfl)⟩
  | publishing work => exact ⟨owner, release_barrier h (by rw [hp]; rfl)⟩
  | marked switch =>
    dsimp only
    split
    · exact ⟨owner, h⟩
    · next hfree => exact startSwitch_barrier h (by simpa using hfree)
  | refused => exact ⟨owner, h.quiet rfl rfl rfl rfl rfl (sound_idle t) h.works⟩
  | cancelling tokens switch =>
    cases tokens with
    | nil => exact ⟨owner, h.moveTo (ht.own (by rw [hp]; rfl) (by simp [SwitchPhase.settled])
        (by simp [SwitchPhase.closes]) rfl rfl)⟩
    | cons token tokens => exact ⟨owner, h.quiet rfl rfl rfl rfl rfl (ht.own (by rw [hp]; rfl)
        (by simp [SwitchPhase.settled]) (by simp [SwitchPhase.closes]) rfl rfl) h.works⟩
  | started switch =>
    dsimp only
    split
    · exact ⟨owner, h⟩
    · next hdrained =>
      simp only [Bool.or_eq_true, not_or, Bool.not_eq_true, Bool.not_eq_false'] at hdrained
      refine ⟨owner, h.moveTo ⟨fun _ => ht.owned (by rw [hp]; rfl), fun _ => hdrained.2, ?_, ?_,
        ?_, ?_⟩⟩ <;> simp [SwitchPhase.publishes, SwitchPhase.closes, SwitchPhase.work?]
  | drained switch =>
    dsimp only
    split
    · exact ⟨owner, h⟩
    · exact ⟨owner, changeStore_barrier h hp⟩
  | closed account =>
    exact ⟨owner, h.moveTo (ht.own (by rw [hp]; rfl) (by simp [hp, SwitchPhase.settled])
      (by simp [hp, SwitchPhase.closes]) rfl rfl)⟩
  | opened account => exact ⟨owner, endActivation_barrier h hp⟩
  | switched =>
    exact ⟨owner, h.quiet rfl rfl rfl rfl rfl (ht.own (by rw [hp]; rfl) (by simp [SwitchPhase.settled])
      (by simp [SwitchPhase.closes]) rfl rfl) h.works⟩
  | unmarked =>
    dsimp only
    split
    · exact ⟨owner, h⟩
    · next hfree => exact ⟨none, finishSwitch_barrier h hp (by simpa using hfree)⟩

theorem fail_barrier (h : Barrier s owner) : Barrier (s.fail t) owner := by
  have ht := h.phases t
  unfold fail
  cases hp : s.phase t with
  | operating work => exact h.moveTo (sound_idle t)
  | publishing work => exact release_barrier h (by rw [hp]; rfl)
  | started switch =>
    exact h.moveTo (ht.own (by rw [hp]; rfl) (by simp [SwitchPhase.settled]) (by simp [SwitchPhase.closes])
      rfl rfl)
  | closed account =>
    exact h.quiet rfl rfl rfl rfl rfl (ht.own (by rw [hp]; rfl) (by simp [SwitchPhase.settled])
      (by simp [SwitchPhase.closes]) rfl rfl) h.works
  | _ => exact h

/-- **Every step keeps the invariant.** -/
theorem step_barrier (h : Barrier s owner) (action : TaskStep) :
    ∃ owner', Barrier (s.step t action) owner' := by
  cases action with
  | register store cancellation =>
    rw [step]
    split
    · exact ⟨owner, register_barrier h store cancellation⟩
    · exact ⟨owner, h⟩
  | operate work =>
    rw [step]
    split
    · next hw => exact ⟨owner, h.moveTo (sound_work (h.works work hw.2.1)).2.1⟩
    · exact ⟨owner, h⟩
  | publish work =>
    rw [step]
    split
    · next hw => exact ⟨owner, publish_barrier h hw.2.1 hw.2.2⟩
    · exact ⟨owner, h⟩
  | switchAccount switch =>
    rw [step]
    split
    · unfold switchAccount
      split
      · exact ⟨owner, h⟩
      · refine ⟨owner, h.quiet rfl rfl rfl rfl rfl ?_ h.works⟩
        constructor <;>
          simp [SwitchPhase.owns, SwitchPhase.settled, SwitchPhase.publishes, SwitchPhase.closes, SwitchPhase.work?]
    · exact ⟨owner, h⟩
  | cancel token => exact ⟨owner, fun u => (h.phases u).congr rfl rfl rfl rfl, h.works, h.numbered⟩
  | dropGuard guard =>
    rw [step]
    split
    · exact ⟨owner, dropGuard_barrier h guard⟩
    · exact ⟨owner, h⟩
  | proceed => exact proceed_barrier h
  | fail => exact ⟨owner, fail_barrier h⟩

/-- The invariant holds over every interleaving. -/
theorem run_barrier (store : StoreState) (actions : List (Task × TaskStep)) :
    ∃ owner, Barrier (machine.run (start store) actions).1 owner :=
  machine.run_invariant' (P := fun s => ∃ owner, Barrier s owner)
    (fun _ action ⟨_, h⟩ => step_barrier h action.2) ⟨none, start_barrier store⟩ actions

/-! ## The barrier -/

theorem keepsOut_register (s : AccountSystem Task) (t : Task) (store : SessionStore)
    (cancellation : Token) : KeepsOut s (s.register t store cancellation) := by
  unfold register
  cases hr : s.tracker.register s.guards cancellation with
  | error e => exact .of_eq rfl rfl
  | ok tracker =>
    have hs := (AccountWorkState.register_ok hr).1
    exact ⟨rfl, fun _ _ => Or.inr hs⟩

theorem keepsOut_startSwitch (s : AccountSystem Task) (t : Task) (switch : AccountSwitch) :
    KeepsOut s (s.startSwitch t switch) := by
  unfold startSwitch
  rcases hr : s.tracker.startSwitch switch.excludingTask with e | ⟨tracker, tokens⟩
  · exact .of_eq rfl rfl
  · refine .of_eq rfl ?_
    show tracker.active = s.tracker.active
    rw [(AccountWorkState.startSwitch_ok hr).2]

theorem keepsOut_publish (s : AccountSystem Task) (t : Task) (work : AccountStoreWork) :
    KeepsOut s (s.publish t work) := by
  unfold publish
  split <;> exact .of_eq rfl rfl

theorem keepsOut_switchAccount (s : AccountSystem Task) (t : Task) (switch : AccountSwitch) :
    KeepsOut s (s.switchAccount t switch) := by
  unfold switchAccount
  split <;> exact .of_eq rfl rfl

theorem keepsOut_fail (s : AccountSystem Task) (t : Task) : KeepsOut s (s.fail t) := by
  unfold fail
  split <;> exact .of_eq rfl rfl

/-- The owner of the switch changes the store when the work is drained, and a connection it hands
over has a new number. -/
theorem proceed_cases (s : AccountSystem Task) (t : Task) : KeepsOut s (s.proceed t) ∨
    (s.phase t).settled = true ∧ (s.proceed t).tracker = s.tracker ∧
      ∀ connection, (s.proceed t).store.connection = some connection →
        connection.activation = s.activations := by
  unfold proceed
  cases hp : s.phase t with
  | drained switch =>
    dsimp only
    split
    · exact Or.inl (.of_eq rfl rfl)
    unfold changeStore
    rcases switch with ⟨_ | store, _ | account, excluding⟩ <;> dsimp only
    · exact Or.inl (.of_eq rfl rfl)
    · exact Or.inl (.of_eq rfl rfl)
    · cases hd : store.deactivateAccount s.store with
      | error e => exact Or.inl (.of_eq rfl rfl)
      | ok state =>
        refine Or.inr ⟨rfl, rfl, fun connection hc => ?_⟩
        have hc : state.connection = some connection := hc
        simp [(SessionStore.deactivateAccount_ok hd).2] at hc
    · rcases hb : store.beginActivation s.store account with e | _ | state
      · exact Or.inl (.of_eq rfl rfl)
      · exact Or.inl (.of_eq rfl rfl)
      · refine Or.inr ⟨rfl, rfl, fun connection hc => ?_⟩
        have hc : state.connection = some connection := hc
        simp [(SessionStore.beginActivation_ok hb).2] at hc
  | opened account =>
    refine Or.inr ⟨rfl, rfl, ?_⟩
    rintro connection ⟨⟩
    rfl
  | registered store guard cancellation =>
    dsimp only
    split <;> exact Or.inl (.of_eq rfl rfl)
  | bound work =>
    dsimp only
    split <;> exact Or.inl (.of_eq rfl rfl)
  | checked work =>
    dsimp only
    split <;> exact Or.inl (.of_eq rfl rfl)
  | marked switch =>
    dsimp only
    split
    · exact Or.inl (.of_eq rfl rfl)
    · exact Or.inl (keepsOut_startSwitch s t switch)
  | cancelling tokens switch => cases tokens <;> exact Or.inl (.of_eq rfl rfl)
  | started switch =>
    dsimp only
    split <;> exact Or.inl (.of_eq rfl rfl)
  | unmarked =>
    dsimp only
    split <;> exact Or.inl (.of_eq rfl rfl)
  | _ => exact Or.inl (.of_eq rfl rfl)

/-- What a step does to the store and to the guards. -/
theorem step_cases (s : AccountSystem Task) (t : Task) (action : TaskStep) :
    KeepsOut s (s.step t action) ∨
    (s.phase t).settled = true ∧ (s.step t action).tracker = s.tracker ∧
      ∀ connection, (s.step t action).store.connection = some connection →
        connection.activation = s.activations := by
  have hsame : KeepsOut s s := .of_eq rfl rfl
  cases action with
  | register store cancellation =>
    rw [step]
    split
    · exact Or.inl (keepsOut_register s t store cancellation)
    · exact Or.inl hsame
  | operate work =>
    rw [step]
    split <;> exact Or.inl (.of_eq rfl rfl)
  | publish work =>
    rw [step]
    split
    · exact Or.inl (keepsOut_publish s t work)
    · exact Or.inl hsame
  | switchAccount switch =>
    rw [step]
    split
    · exact Or.inl (keepsOut_switchAccount s t switch)
    · exact Or.inl hsame
  | cancel token => exact Or.inl (.of_eq rfl rfl)
  | dropGuard guard =>
    rw [step]
    split
    · exact Or.inl (keepsOut_dropGuard s guard)
    · exact Or.inl hsame
  | proceed => exact proceed_cases s t
  | fail => exact Or.inl (keepsOut_fail s t)

/-- **The account switch barrier.** In every state that an interleaving reaches, and for every step
from it: while a switch is on, no guard is added and no closure of `publish` runs; the store
changes when no guard but the excluded one is alive; and what a work locks, and what its
publication runs beside, is the connection it was bound beside, which no later activation makes
the store's. -/
theorem account_switch_barrier (store : StoreState) (actions : List (Task × TaskStep)) (t : Task)
    (action : TaskStep) :
    let s := (machine.run (start store) actions).1
    let s' := s.step t action
    (s.tracker.switching = true →
      (∀ entry ∈ s'.tracker.active, entry ∈ s.tracker.active) ∧
      ∀ u work, s.phase u ≠ .publishing work) ∧
    (s'.store ≠ s.store → s.tracker.switching = true ∧
      ∀ entry ∈ s.tracker.active, some entry.1 = s.tracker.switchExcluded) ∧
    ∀ work, s.Known work →
      (∀ connection, work.store.lock s.store = .ok connection →
        work.boundBeside = some connection) ∧
      (∀ u, s.phase u = .publishing work → s.store.connection = work.boundBeside) ∧
      ∀ connection, s'.store.connection = some connection →
        s.store.connection ≠ some connection → work.boundBeside ≠ some connection := by
  intro s s'
  obtain ⟨owner, h⟩ := run_barrier store actions
  refine ⟨?_, ?_, ?_⟩
  · intro hs
    refine ⟨?_, ?_⟩
    · intro entry he
      obtain hkeeps | ⟨-, htracker, -⟩ := step_cases s t action
      · refine (hkeeps.2 entry he).resolve_right ?_
        simp [hs]
      · rwa [← htracker]
    · intro u work hu
      have := h.not_publishes hs u
      rw [show (machine.run (start store) actions).1 = s from rfl, hu] at this
      cases this
  · intro hne
    obtain hkeeps | ⟨hsettled, -⟩ := step_cases s t action
    · exact absurd hkeeps.1 hne
    · have ht := h.phases t
      refine ⟨(ht.owned (owns_of_settled hsettled)).1, ?_⟩
      have hdrained := ht.drained hsettled
      rw [AccountWorkState.drained, List.all_eq_true] at hdrained
      intro entry he
      simpa using hdrained entry he
  · intro work hw
    have htied := h.known hw
    refine ⟨fun connection hc => (htied.lock hc).1, fun u hu => (h.phases u).published work hu, ?_⟩
    intro connection hc hnew hbeside
    obtain hkeeps | ⟨-, -, hnumber⟩ := step_cases s t action
    · rw [hkeeps.1] at hc
      exact hnew hc
    · obtain ⟨binding, c, -, hb, hlt, -⟩ := htied
      rw [hbeside, Option.some.injEq] at hb
      subst hb
      have hnew := hnumber connection hc
      exact absurd hlt (by rw [hnew]; exact Nat.lt_irrefl _)

end AccountSystem

end AxiomDesktop
