import AxiomDesktop.Auth.Discipline

/-!
# A credential is replaced by who has read it

Where the managers of one entry share the file of their lock, every write to the credential store
replaces the value its manager has loaded and compared in the same hold of the lock, a late write
too: `changes_replace_what_was_read`. The invariant is `Coherent`; one task is `Anchored`, by what
it holds (`Reads`) of an entry of the system store.

The lock is a file in the directory of the client's identity, and the entry is
that of the server, so that two data directories of one user have one credential
and two locks: `other_directory_overwrites`.
-/

namespace AxiomDesktop.Auth

/-! ## Places -/

/-- The scope of a manager, and whether its credential is the environment's. -/
def Manager.place (manager : Manager) : Scope × Bool :=
  (manager.scope, decide (manager.backend = .environment))

namespace World

variable (w : World) (i : Nat)

/-- Where the credential of a task is. -/
def place : Option (Scope × Bool) := (w.managers (w.owner i)).map Manager.place

/-- A task has a handle of its lock, or a late write of its does. -/
def Busy : Prop := (w.holds i).isSome ∨ (w.late i).isSome

theorem place_of_manager {w : World} {i : Nat} {manager : Manager}
    (h : w.managers (w.owner i) = some manager) : w.place i = some manager.place :=
  congrArg (Option.map Manager.place) h

/-- A manager is replaced by one of its place. -/
theorem setManager_places {w : World} {m : Nat} {manager manager' : Manager}
    (h : w.managers m = some manager) (hplace : manager'.place = manager.place) (k : Nat) :
    ((w.setManager m manager').managers k).map Manager.place =
      (w.managers k).map Manager.place := by
  show (Function.update w.managers m (some manager') k).map Manager.place = _
  by_cases hk : k = m
  · subst hk
    rw [Function.update_self, h, Option.map_some, Option.map_some, hplace]
  · rw [Function.update_of_ne hk]

end World

/-! ## The invariant -/

/-- A late write changes what its task had read. -/
def LateWrite.Meant (store : Option String) : LateWrite → Prop
  | save _ compared seen => seen = some compared ∧ store = compared
  | cleanup _ => True
  | remove credential => store = some credential
  | delete compared seen => seen = some compared ∧ store = compared

/-- What a task knows of an entry of the system store. -/
structure Reads (store : Option String) (seen : Option (Option String)) (late : Option LateWrite)
    (φ : Grip) : Prop where
  seen : ∀ value, φ.seen = some value → seen = some value ∧ store = value
  burning : ∀ token, φ.burning = some token → store = some token ∧ isTokenShape token = true
  write : ∀ write, late = some write → write.Meant store

theorem Reads.of_empty {store : Option String} {seen : Option (Option String)}
    {late : Option LateWrite} {φ : Grip} (hseen : φ.seen = none) (hburning : φ.burning = none)
    (hwrite : ∀ write, late = some write → write.Meant store) : Reads store seen late φ := by
  refine ⟨?_, ?_, hwrite⟩
  · rw [hseen]
    nofun
  · rw [hburning]
    nofun

/-- One task and its grip. -/
structure Anchored (w : World) (i : Nat) (φ : Grip) : Prop where
  held : (w.holds i).isSome = φ.held
  locked : w.Busy i → ∃ scope environment, w.place i = some (scope, environment) ∧
    w.locks scope.lockPath = some i
  free : φ.held = false → φ.seen = none ∧ φ.burning = none
  late : (w.late i).isSome → φ.late = true ∧ φ.seen = none ∧ φ.burning = none
  keyring : ∀ scope, w.place i = some (scope, false) →
    Reads (w.store scope.entry) (w.seen i) (w.late i) φ
  environment : ∀ scope, w.place i = some (scope, true) →
    (∀ value, φ.seen = some value → value = none) ∧ φ.burning = none ∧ w.late i = none

/-- The managers of one entry share the file of their lock, and every write has replaced what its
manager had read and compared. -/
structure Coherent (w : World) (φ : Nat → Grip) : Prop where
  fresh : ∀ m, w.nextManager ≤ m → (w.managers m).map Manager.place = none
  shared : ∀ m m' scope scope', (w.managers m).map Manager.place = some (scope, false) →
    (w.managers m').map Manager.place = some (scope', false) → scope.entry = scope'.entry →
    scope.lockPath = scope'.lockPath
  changes : ∀ change ∈ w.changes, change.read = some change.before ∧ change.compared = change.before
  tasks : ∀ i, Anchored w i (φ i)

variable {w w' : World} {φ : Nat → Grip} {i m : Nat} {ψ : Grip}

/-! ## What leaves the invariant alone -/

/-- What the grip of a task says of the store. -/
def Grip.core (ψ : Grip) : Bool × Option (Option String) × Option String × Bool :=
  (ψ.held, ψ.seen, ψ.burning, ψ.late)

theorem Anchored.regrip {χ : Grip} (h : Anchored w i χ) (hcore : ψ.core = χ.core) :
    Anchored w i ψ := by
  obtain ⟨hheld, hseen, hburning, hlate⟩ :
      ψ.held = χ.held ∧ ψ.seen = χ.seen ∧ ψ.burning = χ.burning ∧ ψ.late = χ.late := by
    simpa [Grip.core] using hcore
  refine ⟨hheld ▸ h.held, h.locked, ?_, ?_, ?_, ?_⟩
  · rw [hheld, hseen, hburning]
    exact h.free
  · rw [hlate, hseen, hburning]
    exact h.late
  · intro scope hscope
    obtain ⟨hreads, hburns, hwrite⟩ := h.keyring scope hscope
    exact ⟨hseen ▸ hreads, hburning ▸ hburns, hwrite⟩
  · rw [hseen, hburning]
    exact h.environment

/-- The part of the world the invariant is about is as it was. -/
structure Aside (w w' : World) : Prop where
  store : w'.store = w.store
  nextManager : w'.nextManager = w.nextManager
  owner : w'.owner = w.owner
  locks : w'.locks = w.locks
  holds : w'.holds = w.holds
  late : w'.late = w.late
  changes : w'.changes = w.changes
  managers : ∀ m, (w'.managers m).map Manager.place = (w.managers m).map Manager.place

theorem Aside.place (h : Aside w w') (j : Nat) : w'.place j = w.place j := by
  show (w'.managers (w'.owner j)).map Manager.place = _
  rw [h.owner, h.managers]
  rfl

theorem Anchored.same (h : Anchored w i ψ) (hplace : w'.place i = w.place i)
    (hstore : w'.store = w.store) (hlocks : w'.locks = w.locks) (hholds : w'.holds = w.holds)
    (hlate : w'.late = w.late) : Anchored w' i ψ := by
  have hseen : w'.seen i = w.seen i := by simp only [World.seen, hholds]
  refine ⟨hholds ▸ h.held, ?_, h.free, hlate ▸ h.late, ?_, ?_⟩
  · rw [World.Busy, hholds, hlate, hplace, hlocks]
    exact h.locked
  · rw [hplace, hseen, hstore, hlate]
    exact h.keyring
  · rw [hplace, hlate]
    exact h.environment

theorem Anchored.aside (h : Anchored w i ψ) (haside : Aside w w') : Anchored w' i ψ :=
  h.same (haside.place i) haside.store haside.locks haside.holds haside.late

theorem Coherent.aside (h : Coherent w φ) (haside : Aside w w') : Coherent w' φ := by
  refine ⟨?_, ?_, haside.changes ▸ h.changes, fun j => (h.tasks j).aside haside⟩
  · intro m
    rw [haside.nextManager, haside.managers]
    exact h.fresh m
  · intro m m'
    rw [haside.managers, haside.managers]
    exact h.shared m m'

/-- The grip of one task changes. -/
theorem Coherent.own (h : Coherent w φ) (hself : Anchored w i ψ) :
    Coherent w (Function.update φ i ψ) := by
  refine ⟨h.fresh, h.shared, h.changes, fun j => ?_⟩
  by_cases hj : j = i
  · subst hj
    rw [Function.update_self]
    exact hself
  · rw [Function.update_of_ne hj]
    exact h.tasks j

theorem Coherent.regrip (h : Coherent w φ) (hcore : ψ.core = (φ i).core) :
    Coherent w (Function.update φ i ψ) :=
  h.own ((h.tasks i).regrip hcore)

/-! ## What a task does under its lock -/

/-- What the other tasks see of a task: its lock, which is free or its own, and its entry. -/
structure Within (w w' : World) (i : Nat) (scope : Scope) (environment : Bool) : Prop where
  place : w.place i = some (scope, environment)
  mine : w.locks scope.lockPath = none ∨ w.locks scope.lockPath = some i
  owner : w'.owner = w.owner
  nextManager : w'.nextManager = w.nextManager
  managers : ∀ m, (w'.managers m).map Manager.place = (w.managers m).map Manager.place
  holds : ∀ j, j ≠ i → w'.holds j = w.holds j
  late : ∀ j, j ≠ i → w'.late j = w.late j
  locks : ∀ path, path ≠ scope.lockPath → w'.locks path = w.locks path
  store : w'.store = w.store ∨
    environment = false ∧ ∀ entry, entry ≠ scope.entry → w'.store entry = w.store entry

section Within

variable {scope : Scope} {environment : Bool}

theorem Within.places (h : Within w w' i scope environment) (j : Nat) : w'.place j = w.place j := by
  show (w'.managers (w'.owner j)).map Manager.place = _
  rw [h.owner, h.managers]
  rfl

/-- The lock of another busy task is another one. -/
theorem Within.apart (h : Within w w' i scope environment) {j : Nat} (hji : j ≠ i)
    {path : List String} (hj : w.locks path = some j) : path ≠ scope.lockPath := by
  rintro rfl
  obtain hmine | hmine := h.mine <;> rw [hmine] at hj <;> cases hj
  exact hji rfl

/-- The entry of another busy task is not written. -/
theorem Within.untouched (h : Within w w' i scope environment) (hw : Coherent w φ) {j : Nat}
    (hji : j ≠ i) {other : Scope} (hplace : w.place j = some (other, false)) (hbusy : w.Busy j) :
    w'.store other.entry = w.store other.entry := by
  obtain hsame | ⟨rfl, hothers⟩ := h.store
  · rw [hsame]
  · refine hothers _ fun hentry => ?_
    obtain ⟨held, environment, hheld, hlock⟩ := (hw.tasks j).locked hbusy
    obtain ⟨rfl, rfl⟩ : other = held ∧ false = environment := by
      simpa using hplace.symm.trans hheld
    exact h.apart hji hlock (hw.shared _ _ other scope hplace h.place hentry)

theorem Within.others (h : Within w w' i scope environment) (hw : Coherent w φ) {j : Nat}
    (hji : j ≠ i) : Anchored w' j (φ j) := by
  have hj := hw.tasks j
  have hplace := h.places j
  have hholds := h.holds j hji
  have hlate := h.late j hji
  have hseen : w'.seen j = w.seen j := by simp only [World.seen, hholds]
  refine ⟨hholds ▸ hj.held, ?_, hj.free, hlate ▸ hj.late, ?_, ?_⟩
  · rw [World.Busy, hholds, hlate, hplace]
    intro hbusy
    obtain ⟨other, environment, hother, hlock⟩ := hj.locked hbusy
    exact ⟨other, environment, hother, (h.locks _ (h.apart hji hlock)).trans hlock⟩
  · intro other hother
    rw [hplace] at hother
    have hreads := hj.keyring other hother
    by_cases hbusy : w.Busy j
    · rw [h.untouched hw hji hother hbusy, hseen, hlate]
      exact hreads
    · obtain ⟨hnone, hlateNone⟩ : w.holds j = none ∧ w.late j = none := by
        simpa [World.Busy, not_or] using hbusy
      have hfree := hj.free (by rw [← hj.held, hnone]; rfl)
      refine ⟨?_, ?_, ?_⟩
      · rw [hfree.1]
        nofun
      · rw [hfree.2]
        nofun
      · rw [hlate, hlateNone]
        nofun
  · rw [hplace, hlate]
    exact hj.environment

/-- **A step under the lock keeps the invariant**, where it does for the task itself. -/
theorem Coherent.within (scope : Scope) (h : Coherent w φ)
    (hwithin : Within w w' i scope environment)
    (hchanges : ∀ change ∈ w'.changes,
      change ∈ w.changes ∨ change.read = some change.before ∧ change.compared = change.before)
    (hself : Anchored w' i ψ) : Coherent w' (Function.update φ i ψ) := by
  refine ⟨?_, ?_, ?_, fun j => ?_⟩
  · intro m
    rw [hwithin.nextManager, hwithin.managers]
    exact h.fresh m
  · intro m m'
    rw [hwithin.managers, hwithin.managers]
    exact h.shared m m'
  · intro change hchange
    exact (hchanges change hchange).elim (h.changes change) id
  · by_cases hj : j = i
    · subst hj
      rw [Function.update_self]
      exact hself
    · rw [Function.update_of_ne hj]
      exact hwithin.others h hj

end Within

/-! ## The effects -/

section Effects

variable {manager : Manager}

theorem place_keyring (hmanager : w.managers (w.owner i) = some manager)
    (hbackend : manager.backend = .keyring) : w.place i = some (manager.scope, false) := by
  rw [World.place_of_manager hmanager, Manager.place, hbackend]
  rfl

/-- The lock of a busy task is its own. -/
theorem Coherent.mine (h : Coherent w φ) (hmanager : w.managers (w.owner i) = some manager)
    (hbusy : w.Busy i) : w.locks manager.scope.lockPath = some i := by
  obtain ⟨scope, environment, hplace, hlock⟩ := (h.tasks i).locked hbusy
  obtain ⟨rfl, -⟩ : manager.scope = scope ∧ _ := by
    simpa [Manager.place] using (World.place_of_manager hmanager).symm.trans hplace
  exact hlock

theorem Coherent.busy (h : Coherent w φ) (hheld : (φ i).held = true) : w.Busy i :=
  .inl ((h.tasks i).held.trans hheld)

/-- A task that has begun no write of its own in this hold has none. -/
theorem Coherent.no_late (h : Coherent w φ) (hlate : (φ i).late = false) : w.late i = none := by
  cases hwrite : w.late i with
  | none => rfl
  | some write =>
    have hbegun := ((h.tasks i).late (by rw [hwrite]; rfl)).1
    rw [hlate] at hbegun
    cases hbegun

/-- What a task has read is there. -/
theorem Coherent.reads (h : Coherent w φ) (hmanager : w.managers (w.owner i) = some manager)
    (hbackend : manager.backend = .keyring) :
    Reads (w.store manager.scope.entry) (w.seen i) (w.late i) (φ i) :=
  (h.tasks i).keyring _ (place_keyring hmanager hbackend)

theorem Coherent.take (h : Coherent w φ) (hmanager : w.managers (w.owner i) = some manager)
    (hfree : w.locks manager.scope.lockPath = none) (hcore : ψ.core = (true, none, none, false)) :
    Coherent (w.take i manager.scope.lockPath) (Function.update φ i ψ) := by
  simp only [Grip.core, Prod.mk.injEq] at hcore
  obtain ⟨hψheld, hψseen, hψburning, hψlate⟩ := hcore
  have hplace := World.place_of_manager hmanager
  have hlate : w.late i = none := by
    cases hwrite : w.late i with
    | none => rfl
    | some write =>
      have hmine := h.mine hmanager (.inr (by rw [hwrite]; rfl))
      rw [hfree] at hmine
      cases hmine
  refine h.within manager.scope ⟨hplace, .inl hfree, rfl, rfl, fun _ => rfl, ?_, fun _ _ => rfl,
    ?_, .inl rfl⟩ (fun _ hchange => .inl hchange) ?_
  · exact fun j hj => Function.update_of_ne hj _ _
  · exact fun path hpath => Function.update_of_ne hpath _ _
  · refine ⟨?_, fun _ => ⟨_, _, hplace, Function.update_self _ _ _⟩, ?_, ?_, ?_, ?_⟩
    · rw [hψheld]
      show (Function.update w.holds i _ i).isSome = true
      rw [Function.update_self]
      rfl
    · rw [hψheld]
      nofun
    · intro hsome
      rw [show (w.take i manager.scope.lockPath).late i = none from hlate] at hsome
      cases hsome
    · intro scope _
      refine .of_empty hψseen hψburning ?_
      rw [show (w.take i manager.scope.lockPath).late i = none from hlate]
      nofun
    · intro scope _
      refine ⟨?_, hψburning, hlate⟩
      rw [hψseen]
      nofun

theorem Coherent.release (h : Coherent w φ) (hmanager : w.managers (w.owner i) = some manager)
    (hheld : (φ i).held = true) (hcore : ψ.core = (false, none, none, (φ i).late)) :
    Coherent (w.release i manager.scope.lockPath) (Function.update φ i ψ) := by
  simp only [Grip.core, Prod.mk.injEq] at hcore
  obtain ⟨hψheld, hψseen, hψburning, hψlate⟩ := hcore
  have hplace := World.place_of_manager hmanager
  have hmine := h.mine hmanager (h.busy hheld)
  have hself := h.tasks i
  refine h.within manager.scope ⟨hplace, .inr hmine, rfl, rfl, fun _ => rfl, ?_, fun _ _ => rfl,
    ?_, .inl rfl⟩ (fun _ hchange => .inl hchange) ?_
  · exact fun j hj => Function.update_of_ne hj _ _
  · intro path hpath
    simp only [World.release]
    split
    · exact Function.update_of_ne hpath _ _
    · rfl
  · have hholds : (w.release i manager.scope.lockPath).holds i = none := Function.update_self _ _ _
    refine ⟨?_, ?_, fun _ => ⟨hψseen, hψburning⟩, ?_, ?_, ?_⟩
    · rw [hholds, hψheld]
      rfl
    · rintro (hbusy | hlate)
      · rw [hholds] at hbusy
        cases hbusy
      · refine ⟨_, _, hplace, ?_⟩
        have hlate : (w.late i).isSome := hlate
        simp only [World.release]
        rw [if_neg (Option.ne_none_iff_isSome.mpr hlate)]
        exact hmine
    · intro hlate
      exact ⟨hψlate.trans (hself.late hlate).1, hψseen, hψburning⟩
    · intro scope hscope
      exact .of_empty hψseen hψburning (hself.keyring scope hscope).write
    · intro scope hscope
      refine ⟨?_, hψburning, (hself.environment scope hscope).2.2⟩
      rw [hψseen]
      nofun

theorem Coherent.look (h : Coherent w φ) (hmanager : w.managers (w.owner i) = some manager)
    (hbackend : manager.backend = .keyring) (hheld : (φ i).held = true) (hlate : (φ i).late = false)
    (hcore : ψ.core = (true, some (w.store manager.scope.entry), (φ i).burning, false)) :
    Coherent (w.look i (w.store manager.scope.entry)) (Function.update φ i ψ) := by
  simp only [Grip.core, Prod.mk.injEq] at hcore
  obtain ⟨hψheld, hψseen, hψburning, hψlate⟩ := hcore
  have hplace := place_keyring hmanager hbackend
  have hmine := h.mine hmanager (h.busy hheld)
  have hself := h.tasks i
  have hnone := h.no_late hlate
  have hreads := h.reads hmanager hbackend
  obtain ⟨hold, hhold⟩ := Option.isSome_iff_exists.mp (hself.held.trans hheld)
  have hholds : (w.look i (w.store manager.scope.entry)).holds i =
      some { hold with seen := some (w.store manager.scope.entry) } := by
    show Function.update w.holds i _ i = _
    rw [Function.update_self, hhold]
    rfl
  refine h.within manager.scope ⟨hplace, .inr hmine, rfl, rfl, fun _ => rfl, ?_, fun _ _ => rfl,
    fun _ _ => rfl, .inl rfl⟩ (fun _ hchange => .inl hchange) ?_
  · exact fun j hj => Function.update_of_ne hj _ _
  · refine ⟨by rw [hholds, hψheld]; rfl, fun _ => ⟨_, _, hplace, hmine⟩, ?_, ?_, ?_, ?_⟩
    · rw [hψheld]
      nofun
    · intro hsome
      rw [show (w.look i (w.store manager.scope.entry)).late i = none from hnone] at hsome
      cases hsome
    · intro scope hscope
      obtain rfl : manager.scope = scope := by
        simpa using hplace.symm.trans hscope
      refine ⟨?_, ?_, hreads.write⟩
      · intro value hvalue
        obtain rfl : w.store manager.scope.entry = value := by
          simpa using hψseen.symm.trans hvalue
        exact ⟨by rw [World.seen, hholds]; rfl, rfl⟩
      · rw [hψburning]
        exact hreads.burning
    · intro scope hscope
      exact absurd (hplace.symm.trans hscope) (by simp)

/-- **A write keeps the invariant** where it is of the value its manager has read. -/
theorem Coherent.put (h : Coherent w φ) (hmanager : w.managers (w.owner i) = some manager)
    (hbackend : manager.backend = .keyring) {value compared : Option String}
    (hheld : (φ i).held = true) (hlate : (φ i).late = false) (hseen : (φ i).seen = some compared)
    (hcore : ψ.core = (true, none, none, false)) :
    Coherent (w.put i m manager.scope.entry value compared) (Function.update φ i ψ) := by
  simp only [Grip.core, Prod.mk.injEq] at hcore
  obtain ⟨hψheld, hψseen, hψburning, hψlate⟩ := hcore
  have hplace := place_keyring hmanager hbackend
  have hmine := h.mine hmanager (h.busy hheld)
  have hself := h.tasks i
  have hnone := h.no_late hlate
  have hread := (h.reads hmanager hbackend).seen compared hseen
  have hholds : ((w.put i m manager.scope.entry value compared).holds i).isSome = true := by
    show (Function.update w.holds i _ i).isSome = true
    rw [Function.update_self, Option.isSome_map]
    exact hself.held.trans hheld
  refine h.within manager.scope ⟨hplace, .inr hmine, rfl, rfl, fun _ => rfl, ?_, fun _ _ => rfl,
    fun _ _ => rfl, .inr ⟨rfl, ?_⟩⟩ ?_ ?_
  · exact fun j hj => Function.update_of_ne hj _ _
  · exact fun entry hentry => Function.update_of_ne hentry _ _
  · intro change hchange
    obtain rfl | hchange := List.mem_cons.mp hchange
    · exact .inr ⟨hread.1.trans (congrArg some hread.2.symm), hread.2.symm⟩
    · exact .inl hchange
  · refine ⟨hholds.trans hψheld.symm, fun _ => ⟨_, _, hplace, hmine⟩, ?_, ?_, ?_, ?_⟩
    · rw [hψheld]
      nofun
    · intro hsome
      rw [show (w.put i m manager.scope.entry value compared).late i = none from hnone] at hsome
      cases hsome
    · intro scope _
      refine .of_empty hψseen hψburning ?_
      rw [show (w.put i m manager.scope.entry value compared).late i = none from hnone]
      nofun
    · intro scope hscope
      exact absurd (hplace.symm.trans hscope) (by simp)

theorem Coherent.delay (h : Coherent w φ) (hmanager : w.managers (w.owner i) = some manager)
    (hbackend : manager.backend = .keyring) {write : LateWrite} (hheld : (φ i).held = true)
    (hmeant : write.Meant (w.store manager.scope.entry))
    (hcore : ψ.core = (true, none, none, true)) :
    Coherent (w.delay i write) (Function.update φ i ψ) := by
  simp only [Grip.core, Prod.mk.injEq] at hcore
  obtain ⟨hψheld, hψseen, hψburning, hψlate⟩ := hcore
  have hplace := place_keyring hmanager hbackend
  have hmine := h.mine hmanager (h.busy hheld)
  have hself := h.tasks i
  have hholds : ((w.delay i write).holds i).isSome = true := by
    show (Function.update w.holds i _ i).isSome = true
    rw [Function.update_self, Option.isSome_map]
    exact hself.held.trans hheld
  refine h.within manager.scope ⟨hplace, .inr hmine, rfl, rfl, fun _ => rfl, ?_, ?_,
    fun _ _ => rfl, .inl rfl⟩ (fun _ hchange => .inl hchange) ?_
  · exact fun j hj => Function.update_of_ne hj _ _
  · exact fun j hj => Function.update_of_ne hj _ _
  · refine ⟨hholds.trans hψheld.symm, fun _ => ⟨_, _, hplace, hmine⟩, ?_,
      fun _ => ⟨hψlate, hψseen, hψburning⟩, ?_, ?_⟩
    · rw [hψheld]
      nofun
    · intro scope hscope
      obtain rfl : manager.scope = scope := by
        simpa using hplace.symm.trans hscope
      refine .of_empty hψseen hψburning fun late hlate => ?_
      obtain rfl : write = late := by
        simpa [World.delay, World.setLate, World.forget] using hlate
      exact hmeant
    · intro scope hscope
      exact absurd (hplace.symm.trans hscope) (by simp)

/-- The end of a late write drops its clone of the handle. -/
theorem Coherent.endLate (h : Coherent w φ) (hmanager : w.managers (w.owner i) = some manager)
    {write : LateWrite} (hwrite : w.late i = some write) :
    Coherent (w.endLate i manager.scope.lockPath) φ := by
  have hplace := World.place_of_manager hmanager
  have hmine := h.mine hmanager (.inr (by rw [hwrite]; rfl))
  have hself := h.tasks i
  have hlate : (w.endLate i manager.scope.lockPath).late i = none := Function.update_self _ _ _
  have hwithin : Coherent (w.endLate i manager.scope.lockPath) (Function.update φ i (φ i)) := by
    refine h.within manager.scope ⟨hplace, .inr hmine, rfl, rfl, fun _ => rfl,
      fun _ _ => rfl, ?_, ?_, .inl rfl⟩ (fun _ hchange => .inl hchange) ?_
    · exact fun j hj => Function.update_of_ne hj _ _
    · intro path hpath
      simp only [World.endLate]
      split
      · exact Function.update_of_ne hpath _ _
      · rfl
    · refine ⟨hself.held, ?_, hself.free, ?_, ?_, ?_⟩
      · rintro (hbusy | hsome)
        · refine ⟨_, _, hplace, ?_⟩
          have hbusy : (w.holds i).isSome := hbusy
          simp only [World.endLate]
          rw [if_neg (Option.ne_none_iff_isSome.mpr hbusy)]
          exact hmine
        · rw [hlate] at hsome
          cases hsome
      · intro hsome
        rw [hlate] at hsome
        cases hsome
      · intro scope hscope
        obtain ⟨hseen, hburning, -⟩ := hself.keyring scope hscope
        refine ⟨hseen, hburning, ?_⟩
        rw [hlate]
        nofun
      · intro scope hscope
        obtain ⟨hseen, hburning, -⟩ := hself.environment scope hscope
        exact ⟨hseen, hburning, hlate⟩
  rwa [Function.update_eq_self] at hwithin

/-- What a late write is about is an entry of the system store. -/
theorem Coherent.late_keyring (h : Coherent w φ) (hmanager : w.managers (w.owner i) = some manager)
    {write : LateWrite} (hwrite : w.late i = some write) :
    w.place i = some (manager.scope, false) := by
  have hplace := World.place_of_manager hmanager
  cases henvironment : decide (manager.backend = .environment) with
  | false => rw [hplace, Manager.place, henvironment]
  | true =>
    rw [Manager.place, henvironment] at hplace
    have hnone := ((h.tasks i).environment _ hplace).2.2
    rw [hwrite] at hnone
    cases hnone

theorem Coherent.meant (h : Coherent w φ) (hmanager : w.managers (w.owner i) = some manager)
    {write : LateWrite} (hwrite : w.late i = some write) :
    write.Meant (w.store manager.scope.entry) :=
  ((h.tasks i).keyring _ (h.late_keyring hmanager hwrite)).write write hwrite

/-- A late write that goes on to another one. -/
theorem Coherent.setLate (h : Coherent w φ) (hmanager : w.managers (w.owner i) = some manager)
    {write write' : LateWrite} (hwrite : w.late i = some write)
    (hmeant : write'.Meant (w.store manager.scope.entry)) : Coherent (w.setLate i write') φ := by
  have hplace := h.late_keyring hmanager hwrite
  have hmine := h.mine hmanager (.inr (by rw [hwrite]; rfl))
  have hself := h.tasks i
  have hbegun := hself.late (by rw [hwrite]; rfl)
  have hwithin : Coherent (w.setLate i write') (Function.update φ i (φ i)) := by
    refine h.within manager.scope ⟨hplace, .inr hmine, rfl, rfl, fun _ => rfl,
      fun _ _ => rfl, ?_, fun _ _ => rfl, .inl rfl⟩ (fun _ hchange => .inl hchange) ?_
    · exact fun j hj => Function.update_of_ne hj _ _
    · refine ⟨hself.held, fun _ => ⟨_, _, hplace, hmine⟩, hself.free, fun _ => hbegun, ?_, ?_⟩
      · intro scope hscope
        obtain rfl : manager.scope = scope := by
          simpa using hplace.symm.trans hscope
        refine .of_empty hbegun.2.1 hbegun.2.2 fun late hlate => ?_
        obtain rfl : write' = late := by
          simpa [World.setLate] using hlate
        exact hmeant
      · intro scope hscope
        exact absurd (hplace.symm.trans hscope) (by simp)
  rwa [Function.update_eq_self] at hwithin

/-- **A late write keeps the invariant** where it is of the value its manager had read. -/
theorem Coherent.replace (h : Coherent w φ) (hmanager : w.managers (w.owner i) = some manager)
    {credential : String} (hwrite : w.late i = some (.cleanup credential))
    {value compared : Option String} {seen : Option (Option String)} (hseen : seen = some compared)
    (hstore : w.store manager.scope.entry = compared) :
    Coherent (w.replace m manager.scope.entry value compared seen) φ := by
  have hplace := h.late_keyring hmanager hwrite
  have hmine := h.mine hmanager (.inr (by rw [hwrite]; rfl))
  have hself := h.tasks i
  have hbegun := hself.late (by rw [hwrite]; rfl)
  have hwithin : Coherent (w.replace m manager.scope.entry value compared seen)
      (Function.update φ i (φ i)) := by
    refine h.within manager.scope ⟨hplace, .inr hmine, rfl, rfl, fun _ => rfl,
      fun _ _ => rfl, fun _ _ => rfl, fun _ _ => rfl, .inr ⟨rfl, ?_⟩⟩ ?_ ?_
    · exact fun entry hentry => Function.update_of_ne hentry _ _
    · intro change hchange
      obtain rfl | hchange := List.mem_cons.mp hchange
      · exact .inr ⟨hseen.trans (congrArg some hstore.symm), hstore.symm⟩
      · exact .inl hchange
    · refine ⟨hself.held, fun _ => ⟨_, _, hplace, hmine⟩, hself.free, fun _ => hbegun, ?_, ?_⟩
      · intro scope _
        refine .of_empty hbegun.2.1 hbegun.2.2 fun late hlate => ?_
        obtain rfl : LateWrite.cleanup credential = late := by
          simpa using hwrite.symm.trans hlate
        trivial
      · intro scope hscope
        exact absurd (hplace.symm.trans hscope) (by simp)
  rwa [Function.update_eq_self] at hwithin

theorem endLate_setLate (write : LateWrite) {value compared : Option String} {entry : String}
    {seen : Option (Option String)} {path : List String} :
    ((w.setLate i write).replace m entry value compared seen).endLate i path =
      (w.replace m entry value compared seen).endLate i path := by
  simp only [World.endLate, World.setLate, World.replace, Function.update_idem]
  rfl

/-- **A step of a late write keeps the invariant.** -/
theorem Coherent.moved (h : Coherent w φ) (hmanager : w.managers (w.owner i) = some manager)
    {write : LateWrite} {outcome : LateOutcome} (hwrite : w.late i = some write)
    (hmoved : LateMoved w i m manager write outcome w') : Coherent w' φ := by
  have hmeant := h.meant hmanager hwrite
  -- a write that lands is first one that has nothing more to say of the store
  have hcleanup (credential : String) : Coherent (w.setLate i (.cleanup credential)) φ :=
    h.setLate hmanager hwrite trivial
  have hlate (credential : String) :
      (w.setLate i (.cleanup credential)).late i = some (.cleanup credential) :=
    Function.update_self _ _ _
  cases hmoved with
  | saved credential compared seen =>
    exact (hcleanup credential).replace hmanager (hlate credential) hmeant.1 hmeant.2
  | found credential hstore => exact h.setLate hmanager hwrite hstore
  | lost credential hstore => exact h.endLate hmanager hwrite
  | removed credential =>
    rw [← endLate_setLate (.cleanup credential)]
    exact ((hcleanup credential).replace hmanager (hlate credential) rfl hmeant).endLate hmanager
      (hlate credential)
  | deleted compared seen =>
    rw [← endLate_setLate (.cleanup "")]
    exact ((hcleanup "").replace hmanager (hlate "") hmeant.1 hmeant.2).endLate hmanager (hlate "")
  | dropped => exact h.endLate hmanager hwrite
  | abandoned credential => exact h.endLate hmanager hwrite

end Effects

/-! ## Runs -/

theorem aside_setManager {manager manager' : Manager} (hmanager : w.managers m = some manager)
    (hplace : manager'.place = manager.place) : Aside w (w.setManager m manager') :=
  ⟨rfl, rfl, rfl, rfl, rfl, rfl, rfl, World.setManager_places hmanager hplace⟩

theorem note_managers (generation : Option Nat) : (w.note i m generation).managers = w.managers := by
  unfold World.note
  split <;> rfl

theorem aside_note (generation : Option Nat) : Aside w (w.note i m generation) := by
  unfold World.note
  split <;> exact ⟨rfl, rfl, rfl, rfl, rfl, rfl, rfl, fun _ => rfl⟩

theorem aside_noteState (state : AuthState) (op : StateOp) : Aside w (w.noteState i m state op) := by
  unfold World.noteState
  split
  case h_4 =>
    split
    · exact aside_note _
    · exact ⟨rfl, rfl, rfl, rfl, rfl, rfl, rfl, fun _ => rfl⟩
  case h_5 => exact aside_note _
  all_goals exact ⟨rfl, rfl, rfl, rfl, rfl, rfl, rfl, fun _ => rfl⟩

theorem Aside.trans {w'' : World} (h : Aside w w') (h' : Aside w' w'') : Aside w w'' :=
  ⟨h'.store.trans h.store, h'.nextManager.trans h.nextManager, h'.owner.trans h.owner,
    h'.locks.trans h.locks, h'.holds.trans h.holds,
    h'.late.trans h.late, h'.changes.trans h.changes, fun m => (h'.managers m).trans (h.managers m)⟩

theorem noteState_managers (state : AuthState) (op : StateOp) :
    (w.noteState i m state op).managers = w.managers := by
  unfold World.noteState
  split
  case h_4 =>
    split
    · exact note_managers _
    · rfl
  case h_5 => exact note_managers _
  all_goals rfl

theorem aside_enter {manager : Manager} (hmanager : w.managers m = some manager) (op : StateOp) :
    Aside w (w.enter i m manager op) := by
  have hnoted : (w.noteState i m manager.state op).managers m = some manager := by
    rw [noteState_managers]
    exact hmanager
  exact .trans (aside_noteState manager.state op) (aside_setManager hnoted rfl)

/-- An effect that only the task itself notices. -/
theorem Coherent.quiet (h : Coherent w φ) (haside : Aside w w') (hcore : ψ.core = (φ i).core) :
    Coherent w' (Function.update φ i ψ) :=
  (h.aside haside).regrip hcore

theorem Aside.refl (w : World) : Aside w w := ⟨rfl, rfl, rfl, rfl, rfl, rfl, rfl, fun _ => rfl⟩

/-- A write that deletes, with the validation it ends. -/
theorem put_note {generation : Option Nat} {entry : String} {value compared : Option String} :
    Aside ((w.put i m entry value compared)) ((w.note i m generation).put i m entry value compared) := by
  unfold World.note
  split <;> exact ⟨rfl, rfl, rfl, rfl, rfl, rfl, rfl, fun _ => rfl⟩

theorem delay_note {generation : Option Nat} {write : LateWrite} :
    Aside (w.delay i write) ((w.note i m generation).delay i write) := by
  unfold World.note
  split <;> exact ⟨rfl, rfl, rfl, rfl, rfl, rfl, rfl, fun _ => rfl⟩

/-- A task of a manager whose credential is the environment's loads nothing. -/
theorem Coherent.load_nothing (h : Coherent w φ) {scope : Scope}
    (hplace : w.place i = some (scope, true)) (hheld : (φ i).held = true) :
    Coherent w (Function.update φ i { φ i with seen := some none }) := by
  have hself := h.tasks i
  obtain ⟨-, hburning, hnone⟩ := hself.environment scope hplace
  refine h.own ⟨hself.held, hself.locked, ?_, ?_, ?_, ?_⟩
  · intro hfree
    rw [show (φ i).held = false from hfree] at hheld
    cases hheld
  · intro hsome
    rw [hnone] at hsome
    cases hsome
  · intro scope' hscope
    exact absurd (hplace.symm.trans hscope) (by simp)
  · intro _ _
    refine ⟨?_, hburning, hnone⟩
    intro value hvalue
    exact (Option.some.inj hvalue).symm

/-- A token that is sent is the stored one. -/
theorem Coherent.burn (h : Coherent w φ) {token : String} (hheld : (φ i).held = true)
    (hlate : (φ i).late = false) (hseen : (φ i).seen = some (some token))
    (hshape : isTokenShape token = true) (hcore : ψ.core = (true, some (some token), some token, false)) :
    Coherent w (Function.update φ i ψ) := by
  simp only [Grip.core, Prod.mk.injEq] at hcore
  obtain ⟨hψheld, hψseen, hψburning, hψlate⟩ := hcore
  have hself := h.tasks i
  have hnone := h.no_late hlate
  refine h.own ⟨?_, hself.locked, ?_, ?_, ?_, ?_⟩
  · rw [hself.held, hheld, hψheld]
  · rw [hψheld]
    nofun
  · intro hsome
    rw [hnone] at hsome
    cases hsome
  · intro scope hscope
    obtain ⟨hreads, -, hwrite⟩ := hself.keyring scope hscope
    refine ⟨?_, ?_, hwrite⟩
    · rw [hψseen, ← hseen]
      exact hreads
    · rw [hψburning]
      rintro _ ⟨⟩
      exact ⟨(hreads _ hseen).2, hshape⟩
  · intro scope hscope
    have := (hself.environment scope hscope).1 _ hseen
    cases this

/-- What was loaded is forgotten. -/
theorem Coherent.forgot (h : Coherent w φ) (hburning : (φ i).burning = none) :
    Coherent w (Function.update φ i { φ i with seen := none }) := by
  have hself := h.tasks i
  refine h.own ⟨hself.held, hself.locked, fun _ => ⟨rfl, hburning⟩, ?_, ?_, ?_⟩
  · intro hlate
    exact ⟨(hself.late hlate).1, rfl, hburning⟩
  · intro scope hscope
    exact .of_empty rfl hburning (hself.keyring scope hscope).write
  · intro scope hscope
    exact ⟨nofun, hburning, (hself.environment scope hscope).2.2⟩

/-- **An effect of the discipline keeps the invariant.** -/
theorem Coherent.executed {manager : Manager} {e : Effect} {choice : Choice} {r : e.Answer}
    (h : Coherent w φ) (hmanager : w.managers (w.owner i) = some manager)
    (hrequires : discipline.requires e (φ i))
    (hexecuted : Executed w i (w.owner i) manager e choice w' r) :
    discipline.admits e (φ i) r ∧
      Coherent w' (Function.update φ i (discipline.next e (φ i) r)) := by
  cases hexecuted with
  | now now => exact ⟨trivial, h.quiet (.refl w) rfl⟩
  | state op hbuilt =>
    refine ⟨trivial, h.quiet (aside_enter hmanager op) ?_⟩
    cases op <;> rfl
  | lockOperations cancellable hfree =>
    exact ⟨trivial, h.quiet (aside_setManager hmanager rfl) rfl⟩
  | lockCancelled => exact ⟨trivial, h.quiet (.refl w) rfl⟩
  | unlockOperations => exact ⟨trivial, h.quiet (aside_setManager hmanager rfl) rfl⟩
  | lock hfree => exact ⟨trivial, h.take hmanager hfree rfl⟩
  | lockFailed detail => exact ⟨trivial, h.quiet (.refl w) rfl⟩
  | unlock => exact ⟨trivial, h.release hmanager hrequires.1 rfl⟩
  | load hbackend =>
    refine ⟨(h.reads hmanager hbackend).burning, ?_⟩
    refine h.look hmanager hbackend hrequires.1 hrequires.2 ?_
    simp only [Grip.core, discipline, hrequires.1, hrequires.2]
  | loadNothing hbackend =>
    have hplace : w.place i = some (manager.scope, true) := by
      rw [World.place_of_manager hmanager, Manager.place, hbackend]
      rfl
    refine ⟨?_, h.load_nothing hplace hrequires.1⟩
    intro token htoken
    cases ((h.tasks i).environment _ hplace).2.1.symm.trans htoken
  | loadFailed choice detail hfailed => exact ⟨trivial, h.quiet (.refl w) rfl⟩
  | save credential compared hbackend =>
    obtain ⟨hheld, hlate, hseen, -⟩ := hrequires
    refine ⟨trivial, h.put hmanager hbackend hheld hlate hseen ?_⟩
    simp only [Grip.core, discipline, Grip.written, hheld, hlate]
  | saveFailed credential compared choice detail hfailed =>
    refine ⟨trivial, h.quiet (.refl w) ?_⟩
    cases hmarker : AuthManager.containsMarker detail <;>
      simp [Grip.core, discipline, hmarker, Grip.fail]
  | saveLate credential compared hbackend =>
    obtain ⟨hheld, hlate, hseen, -⟩ := hrequires
    refine ⟨trivial, h.delay hmanager hbackend hheld
      ((h.reads hmanager hbackend).seen compared hseen) ?_⟩
    simp only [Grip.core, discipline, Grip.written, Grip.delayed, hheld]
  | delete compared hbackend =>
    obtain ⟨hheld, hlate, hseen⟩ := hrequires
    refine ⟨trivial, Coherent.aside ?_ put_note⟩
    refine h.put hmanager hbackend hheld hlate hseen ?_
    simp only [Grip.core, discipline, Grip.written, hheld, hlate]
  | deleteFailed compared choice detail hfailed => exact ⟨trivial, h.quiet (.refl w) rfl⟩
  | deleteLate compared hbackend =>
    obtain ⟨hheld, hlate, hseen⟩ := hrequires
    refine ⟨trivial, Coherent.aside ?_ delay_note⟩
    refine h.delay hmanager hbackend hheld ((h.reads hmanager hbackend).seen compared hseen) ?_
    simp only [Grip.core, discipline, Grip.written, Grip.delayed, hheld]
  | deleteNow compared hbackend =>
    obtain ⟨hheld, hlate, hseen⟩ := hrequires
    refine ⟨trivial, h.put hmanager hbackend hheld hlate hseen ?_⟩
    simp only [Grip.core, discipline, Grip.written, hheld, hlate]
  | deleteNowFailed compared choice detail hfailed => exact ⟨trivial, h.quiet (.refl w) rfl⟩
  | refresh token reply =>
    obtain ⟨hheld, hlate, hseen, -, hshape⟩ := hrequires
    refine ⟨trivial, (h.burn hheld hlate hseen hshape ?_).aside
      ⟨rfl, rfl, rfl, rfl, rfl, rfl, rfl, fun _ => rfl⟩⟩
    simp only [Grip.core, discipline, Grip.given, hheld, hlate, hseen]
  | exchange reply => exact ⟨trivial, h.quiet ⟨rfl, rfl, rfl, rfl, rfl, rfl, rfl, fun _ => rfl⟩ rfl⟩
  | createAuthorization reply => exact ⟨trivial, h.quiet (.refl w) rfl⟩
  | session token reply =>
    exact ⟨trivial, h.quiet ⟨rfl, rfl, rfl, rfl, rfl, rfl, rfl, fun _ => rfl⟩ rfl⟩
  | revoke token => exact ⟨trivial, h.quiet (.refl w) rfl⟩
  | build state available hbuilt =>
    refine ⟨trivial, (h.forgot hrequires.2.1).aside (aside_setManager hmanager ?_)⟩
    cases available <;> simp [Manager.place, Manager.finish, hbuilt.2]
  | report report =>
    exact ⟨trivial, h.quiet ⟨rfl, rfl, rfl, rfl, rfl, rfl, rfl, fun _ => rfl⟩ rfl⟩

/-- A task that holds nothing. -/
theorem Anchored.idle (hheld : w.holds i = none) (hlate : w.late i = none) (hfree : ψ.held = false)
    (hseen : ψ.seen = none) (hburning : ψ.burning = none) : Anchored w i ψ := by
  refine ⟨by rw [hheld, hfree]; rfl, ?_, fun _ => ⟨hseen, hburning⟩, ?_, ?_, ?_⟩
  · rintro (hbusy | hbusy)
    · rw [hheld] at hbusy
      cases hbusy
    · rw [hlate] at hbusy
      cases hbusy
  · rw [hlate]
    nofun
  · intro _ _
    refine .of_empty hseen hburning ?_
    rw [hlate]
    nofun
  · intro _ _
    refine ⟨?_, hburning, hlate⟩
    rw [hseen]
    nofun

/-- A task that is not busy, wherever it is. -/
theorem Anchored.move (h : Anchored w i ψ) (hbusy : ¬ w.Busy i) (hholds : w'.holds = w.holds)
    (hlate : w'.late = w.late) : Anchored w' i ψ := by
  obtain ⟨hnone, hlateNone⟩ : w.holds i = none ∧ w.late i = none := by
    simpa [World.Busy, not_or] using hbusy
  have hfree : ψ.held = false := by
    rw [← h.held, hnone]
    rfl
  exact .idle (by rw [hholds, hnone]) (by rw [hlate, hlateNone]) hfree (h.free hfree).1
    (h.free hfree).2

/-- A new manager shares the lock of its entry, unless its credential is the environment's. -/
def Manager.SharesLock (w : World) (manager : Manager) : Prop :=
  manager.backend ≠ .environment → ∀ m other, w.managers m = some other →
    other.backend ≠ .environment → other.scope.entry = manager.scope.entry →
    other.scope.lockPath = manager.scope.lockPath

theorem Anchored.not_busy_of_place (h : Anchored w i ψ) (hplace : w.place i = none) : ¬ w.Busy i := by
  intro hbusy
  obtain ⟨scope, environment, hsome, -⟩ := h.locked hbusy
  rw [hplace] at hsome
  cases hsome

theorem Anchored.not_busy (h : Anchored w i {}) : ¬ w.Busy i := by
  rintro (hbusy | hbusy)
  · rw [h.held] at hbusy
    cases hbusy
  · cases (h.late hbusy).1

theorem Coherent.addManager (h : Coherent w φ) {task : Nat} (htask : φ task = {}) {manager : Manager}
    (hshares : manager.SharesLock w) : Coherent (w.addManager task manager) φ := by
  have hmanagers (m : Nat) (hm : m ≠ w.nextManager) :
      (w.addManager task manager).managers m = w.managers m :=
    Function.update_of_ne hm _ _
  have hnew : (w.addManager task manager).managers w.nextManager = some manager :=
    Function.update_self _ _ _
  have hscope {m : Nat} {scope : Scope}
      (hm : ((w.addManager task manager).managers m).map Manager.place = some (scope, false)) :
      (w.managers m).map Manager.place = some (scope, false) ∨
        m = w.nextManager ∧ scope = manager.scope ∧ manager.backend ≠ .environment := by
    by_cases hk : m = w.nextManager
    · subst hk
      rw [hnew] at hm
      simp only [Option.map_some, Manager.place, Option.some.injEq, Prod.mk.injEq,
        decide_eq_false_iff_not] at hm
      exact .inr ⟨rfl, hm.1.symm, hm.2⟩
    · rw [hmanagers m hk] at hm
      exact .inl hm
  have hold {m : Nat} {scope : Scope}
      (hm : (w.managers m).map Manager.place = some (scope, false))
      (hback : manager.backend ≠ .environment) (hentry : scope.entry = manager.scope.entry) :
      scope.lockPath = manager.scope.lockPath := by
    obtain ⟨other, hother, hplace⟩ := Option.map_eq_some_iff.mp hm
    simp only [Manager.place, Prod.mk.injEq, decide_eq_false_iff_not] at hplace
    obtain ⟨rfl, hkeyring⟩ := hplace
    exact hshares hback m other hother hkeyring hentry
  refine ⟨?_, ?_, h.changes, fun j => ?_⟩
  · intro m hm
    have hm : w.nextManager + 1 ≤ m := hm
    rw [hmanagers m (by omega)]
    exact h.fresh m (by omega)
  · intro m m' scope scope' hm hm' hentry
    obtain hm | ⟨rfl, rfl, hback⟩ := hscope hm
    · obtain hm' | ⟨rfl, rfl, hback⟩ := hscope hm'
      · exact h.shared m m' scope scope' hm hm' hentry
      · exact hold hm hback hentry
    · obtain hm' | ⟨rfl, rfl, -⟩ := hscope hm'
      · exact (hold hm' hback hentry.symm).symm
      · rfl
  · have hself := h.tasks j
    by_cases hj : j = task
    · subst hj
      rw [htask] at hself ⊢
      exact hself.move hself.not_busy rfl rfl
    · have howner : (w.addManager task manager).owner j = w.owner j := Function.update_of_ne hj _ _
      by_cases hnext : w.owner j = w.nextManager
      · refine hself.move (hself.not_busy_of_place ?_) rfl rfl
        show (w.managers (w.owner j)).map Manager.place = none
        rw [hnext]
        exact h.fresh _ (Nat.le_refl _)
      · refine hself.same ?_ rfl rfl rfl rfl
        show Option.map _ ((w.addManager task manager).managers _) = _
        rw [howner, hmanagers _ hnext]
        rfl

/-- A task of a manager begins. -/
theorem Coherent.enroll (h : Coherent w φ) {task : Nat} (htask : φ task = {}) :
    Coherent { w with owner := Function.update w.owner task m } φ := by
  refine ⟨h.fresh, h.shared, h.changes, fun j => ?_⟩
  have hself := h.tasks j
  by_cases hj : j = task
  · subst hj
    rw [htask] at hself ⊢
    exact hself.move hself.not_busy rfl rfl
  · refine hself.same ?_ rfl rfl rfl rfl
    show (w.managers (Function.update w.owner task m j)).map Manager.place = _
    rw [Function.update_of_ne hj]
    rfl

/-! ## Every run -/

abbrev AuthPool : Type := Pool World Effect Effect.Answer

abbrev AuthStep : Type := PoolStep Choice LateStep AuthOperation

/-- The managers of one credential entry are built with one lock file. -/
def SharedLock (env : SystemEnvironment) (pool : AuthPool) : AuthStep → Prop
  | .start (.build origin clientIdPath) =>
    Manager.SharesLock pool.shared
      { scope := credentialScope env.digest env.debug origin clientIdPath }
  | _ => True

theorem coherent_sound (env : SystemEnvironment) :
    TaskSystem.Sound (authSystem env) discipline Coherent {} Discipline.Idle (SharedLock env) where
  exec := by
    intro pool φ i e k choice w' r h _ _ hrequires hexec
    obtain ⟨manager, hmanager, hexecuted⟩ := exec_executed hexec
    exact h.executed hmanager hrequires hexecuted
  event := by
    intro pool φ step w' h _ hevent
    obtain ⟨write, manager, hwrite, hmanager, hmoved⟩ := lateStep_moved hevent
    exact h.moved hmanager hwrite hmoved
  start := by
    intro pool φ operation w' p h htask hshared hstart
    cases operation with
    | build origin clientIdPath =>
      cases hstart
      exact ⟨Discipline.newWithPaths_keeps rfl, h.addManager htask hshared⟩
    | buildEnvironment key origin clientIdPath =>
      cases hstart
      exact ⟨rfl, h.addManager htask fun hback => absurd rfl hback⟩
    | call m call =>
      simp only [authSystem, start] at hstart
      split at hstart
      · split at hstart
        · cases hstart
          exact ⟨Discipline.call_keeps call rfl, h.enroll htask⟩
        · cases hstart
      · cases hstart

theorem coherent_start (store : String → Option String) :
    Coherent { store } fun _ => {} := by
  refine ⟨fun _ _ => rfl, ?_, nofun, fun _ => .idle rfl rfl rfl rfl rfl⟩
  intro _ _ _ _ hm
  cases hm

/-- **A credential is replaced by who has read it.** Where the managers of one entry share the file
of their lock, whatever fails and whatever ends late, every write to the credential store replaces
the value that its manager has loaded, and compared, in the same hold of the lock. -/
theorem changes_replace_what_was_read (env : SystemEnvironment) (store : String → Option String)
    (steps : List AuthStep)
    (h : (authSystem env).machine.Meets (SharedLock env) { shared := { store } } steps) :
    ∀ change ∈ ((authSystem env).machine.run { shared := { store } } steps).1.shared.changes,
      change.read = some change.before ∧ change.compared = change.before := by
  obtain ⟨φ, hrelated⟩ := (coherent_sound env).run (coherent_start store) h
  exact hrelated.inv.changes

/-! ## Sign-ins -/

/-- Times are counted in letters. -/
def letterTimes : AuthEnvironment where
  parseTime text := some text.length
  formatTime time := String.ofList (List.replicate time 'x')
  avatarUrl _ := some true

def plainSystem : SystemEnvironment where
  auth := letterTimes
  digest := id
  debug := false

/-- The tokens of a reply. -/
def grant (token : String) : TokenResponse where
  tokenType := "Bearer"
  accessToken := "an-access-token-of-enough-letters"
  accessExpiresAt := "soon"
  refreshToken := token
  refreshExpiresAt := "later"
  account := { id := "a" }
  session := { expiresAt := "later" }

/-- The reply to a sign-in. -/
def signedIn (token : String) : ExchangeResponse where
  status := "complete"
  tokens := some (grant token)

/-- The next effects of a task. -/
def go (task count : Nat) : List AuthStep := List.replicate count (.run task .go)

/-- A manager of a data directory is built. -/
def buildIn (task : Nat) (directory : String) : List AuthStep :=
  .start (.build "https://api.axiom.stream" [directory, "client-id"]) :: go task 4

/-- A sign-in, up to its save. -/
def signInAs (task manager : Nat) (token : String) : List AuthStep :=
  [.start (.call manager (.pollExchange 0)), .run task (.exchanged (.ok (signedIn token)))] ++
    go task 4 ++ [.run task (.time 0)] ++ go task 2

def firstToken : String := "a-refresh-token-of-enough-letters"

def secondToken : String := "a-second-refresh-token-of-letters"

/-- A sign-in whose save lasts longer than its timeout, and is cleaned up. -/
def lateSignIn : List AuthStep :=
  buildIn 0 "a" ++ signInAs 1 0 firstToken ++
    [.run 1 .late, .event ⟨1, .landed⟩, .event ⟨1, .landed⟩, .event ⟨1, .landed⟩]

theorem late_sign_in_replaces_what_was_read :
    ((authSystem plainSystem).machine.run { shared := { store := fun _ => none } }
        lateSignIn).1.shared.changes.length = 2 ∧
      ∀ change ∈ ((authSystem plainSystem).machine.run { shared := { store := fun _ => none } }
          lateSignIn).1.shared.changes,
        change.read = some change.before ∧ change.compared = change.before := by
  refine ⟨by decide +kernel, changes_replace_what_was_read plainSystem _ lateSignIn ?_⟩
  -- only the first step is a build, and there is no other manager
  refine And.intro (fun _ _ _ hother => ?_) ?_
  · cases hother
  · iterate 17 refine And.intro trivial ?_
    exact trivial

/-- Two data directories of one user, with a sign-in in each. -/
def twoDirectories : List AuthStep :=
  buildIn 0 "a" ++ buildIn 1 "b" ++ signInAs 2 0 firstToken ++ signInAs 3 1 secondToken ++ go 3 5 ++
    go 2 1

/-- **The credential of another data directory is overwritten.** Both managers have read that the
entry is empty, each under its own lock, and the second one saves over the token of the first. -/
theorem other_directory_overwrites :
    ¬ ∀ change ∈ ((authSystem plainSystem).machine.run { shared := { store := fun _ => none } }
        twoDirectories).1.shared.changes,
      change.read = some change.before ∧ change.compared = change.before := by
  decide +kernel

end AxiomDesktop.Auth
