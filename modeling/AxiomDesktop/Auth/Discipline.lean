import AxiomDesktop.Auth.System

/-!
# What an operation does with the credential store

The `discipline` of the operations of a manager, whatever the other tasks do: a write to the store
comes behind a load in the same hold of the lock, and compares what was loaded; a refresh token is
sent only as it was loaded; and the lock is not given back before the token that was sent is out of
the store and out of the manager's own state (`Settled`), unless a load or a deletion has failed
(`Grip.broken`). `call_keeps` and `newWithPaths_keeps` are the main results.
-/

namespace AxiomDesktop.Auth

/-- What a task has done with the store. -/
structure Grip where
  /-- It has the lock. -/
  held : Bool := false
  /-- The value it has loaded, and not written since. -/
  seen : Option (Option String) := none
  /-- The token it has saved. -/
  saved : Option String := none
  /-- The token it has sent, while the store still has it. -/
  burning : Option String := none
  /-- The manager may still have the token it has sent. -/
  dirty : Bool := false
  /-- A write of its own may still be under way. -/
  late : Bool := false
  /-- What it has sent could not be removed. -/
  broken : Bool := false
  /-- It has sent a token. -/
  used : Bool := false
  /-- The refresh tokens it was given, and has not saved. -/
  fresh : List String := []
  deriving DecidableEq, Repr

namespace Grip

variable (φ : Grip)

/-- The token that was sent stays in the store, if there is one. -/
def fail : Grip := { φ with broken := φ.broken || φ.burning.isSome }

/-- The stored value is written. -/
def written : Grip := { φ with seen := none, burning := none }

/-- The store is written by a task that goes on. -/
def delayed : Grip := { φ.written with late := true }

/-- The refresh token of a reply. -/
def given (tokens : Option TokenResponse) : Grip :=
  { φ with fresh := (tokens.map (·.refreshToken)).toList ++ φ.fresh }

end Grip

/-- The discipline of the operations. -/
def discipline : Protocol Effect Effect.Answer Grip where
  requires
    | .state (.adoptExternalCredential credential), φ => φ.held = true ∧ φ.seen = some credential
    | .state (.clearLocalAuthorization _), φ =>
      φ.held = true → φ.broken = true ∨ φ.burning = none
    | .state (.commitBundle bundle _ _), φ =>
      φ.held = true ∧ φ.saved = some bundle.refreshToken ∧ φ.burning = none
    | .lock, φ => φ.held = false
    | .unlock, φ =>
      φ.held = true ∧ (φ.broken = true ∨ φ.burning = none ∧ φ.dirty = false)
    | .load, φ => φ.held = true ∧ φ.late = false
    | .save credential compared, φ =>
      φ.held = true ∧ φ.late = false ∧ φ.seen = some compared ∧ credential ∈ φ.fresh
    | .delete compared, φ | .deleteNow compared, φ =>
      φ.held = true ∧ φ.late = false ∧ φ.seen = some compared
    | .refresh token, φ =>
      φ.held = true ∧ φ.late = false ∧ φ.seen = some (some token) ∧ φ.burning = none ∧
        isTokenShape token = true
    | .build state _, φ =>
      φ.held = true ∧ φ.burning = none ∧ (state.refreshToken = none ∨ φ.seen = some state.refreshToken)
    | _, _ => True
  admits
    | .load, φ, .ok value => ∀ token, φ.burning = some token →
      value = some token ∧ isTokenShape token = true
    | _, _, _ => True
  next
    | .state (.clearLocalAuthorization _), φ, _ => { φ with dirty := false }
    | .state (.commitBundle _ _ _), φ, _ => { φ with dirty := false }
    | .lock, φ, .ok () =>
      { φ with held := true, seen := none, saved := none, burning := none, dirty := false
               late := false }
    | .unlock, φ, _ => { φ with held := false, seen := none, saved := none, burning := none }
    | .load, φ, .ok value => { φ with seen := some value }
    | .load, φ, .error _ => φ.fail
    | .save credential _, φ, .ok =>
      { φ.written with saved := some credential, fresh := φ.fresh.filter (· ≠ credential) }
    | .save _ _, φ, .error detail =>
      if AuthManager.containsMarker detail then φ.fail else φ
    | .save credential _, φ, .timedOut =>
      { φ.delayed with fresh := φ.fresh.filter (· ≠ credential) }
    | .delete _, φ, .ok => φ.written
    | .delete _, φ, .error _ => φ.fail
    | .delete _, φ, .timedOut => φ.delayed
    | .deleteNow _, φ, .ok () => φ.written
    | .refresh token, φ, reply =>
      { φ.given reply.tokens with
        burning := some token, dirty := true, saved := none, used := true }
    | .exchange, φ, reply => φ.given (exchangeTokens reply)
    | .build _ _, φ, _ => { φ with seen := none }
    | _, φ, _ => φ

namespace Discipline

open AuthManager

variable {env : AuthEnvironment} {φ : Grip}

/-- The task has no lock. -/
def Idle (φ : Grip) : Prop := φ.held = false

/-- The task has the lock, and no write of its own under way. -/
def Ready (φ : Grip) : Prop := φ.held = true ∧ φ.late = false

/-- The lock can be given back. -/
def Settled (φ : Grip) : Prop :=
  φ.held = true ∧ (φ.broken = true ∨ φ.burning = none ∧ φ.dirty = false)

/-- The task keeps to the discipline and ends in `Q`. -/
abbrev Keeps {α : Type} (p : Operation α) (Q : α → Grip → Prop) (φ : Grip) : Prop :=
  discipline.Keeps p Q φ

/-! ## Single effects -/

/-- An effect that the discipline does not look at. -/
theorem keeps_free {e : Effect} {Q : e.Answer → Grip → Prop} (hrequires : discipline.requires e φ)
    (hnext : ∀ r, discipline.next e φ r = φ) (h : ∀ r, Q r φ) : Keeps (ask e) Q φ := by
  refine ⟨hrequires, fun r _ => ?_⟩
  rw [hnext r]
  exact h r

/-- A critical section that only reads. -/
theorem keeps_read {what : StateRead} {Q : AuthState → Grip → Prop} (h : ∀ s, Q s φ) :
    Keeps (read what) Q φ :=
  keeps_free trivial (fun _ => rfl) h

theorem keeps_clear {detail : Option String} {Q : Nat → Grip → Prop}
    (hend : φ.held = true → φ.broken = true ∨ φ.burning = none)
    (h : ∀ revision, Q revision { φ with dirty := false }) :
    Keeps (clearLocalAuthorization detail) Q φ :=
  ⟨hend, fun s _ => h (s.revision + 1)⟩

theorem keeps_adopt {credential : Option String} {Q : AuthState → Grip → Prop}
    (hheld : φ.held = true) (hseen : φ.seen = some credential) (h : ∀ s, Q s φ) :
    Keeps (write (.adoptExternalCredential credential)) Q φ :=
  ⟨⟨hheld, hseen⟩, fun s _ => h s⟩

theorem keeps_unlock {Q : Unit → Grip → Prop} (h : Settled φ)
    (hQ : ∀ ψ, Idle ψ → Q () ψ) : Keeps (ask .unlock) Q φ :=
  ⟨h, fun _ _ => hQ _ rfl⟩

/-! ## The credential store -/

/-- What a task holds behind a load: the value, with a token that was sent, and nothing else. -/
structure Loaded (value : Option String) (φ ψ : Grip) : Prop where
  eq : ψ = { φ with seen := some value }
  burning : ∀ token, φ.burning = some token → value = some token

theorem Loaded.ready {value : Option String} {ψ : Grip} (h : Loaded value φ ψ) (hφ : Ready φ) :
    Ready ψ := by
  rw [h.eq]
  exact hφ

/-- What `load_persisted_credential` answers, with what its check says. -/
def answerLoad (value : String) : Except AxiomError Unit → Operation (Except AxiomError (Option String))
  | .error error => return .error error
  | .ok () => return .ok (some value)

/-- A load that fails with a token sent leaves it in the store. -/
theorem keeps_load (hready : Ready φ) {Q : Except AxiomError (Option String) → Grip → Prop}
    (herror : ∀ e ψ, ψ.held = true → (ψ.burning = none ∨ ψ.broken = true) →
      (φ.dirty = false → ψ.dirty = false) → Q (.error e) ψ)
    (hok : ∀ value ψ, Loaded value φ ψ → value.all isTokenShape = true → Q (.ok value) ψ) :
    Keeps loadPersistedCredential Q φ := by
  refine ⟨hready, ?_⟩
  rintro (detail | value) hadmits
  · refine herror _ _ hready.1 ?_ id
    cases hburning : φ.burning with
    | none => exact .inl hburning
    | some token => exact .inr (by simp [discipline, Grip.fail, hburning])
  · have hloaded : Loaded value φ { φ with seen := some value } :=
      ⟨rfl, fun token htoken => (hadmits token htoken).1⟩
    cases value with
    | none => exact hok none _ hloaded rfl
    | some value =>
      have hvalidate : validateTokenShape value "stored refresh token" =
          if isTokenShape value then .ok ()
          else .error (.protocol ("Axiom returned an invalid " ++ "stored refresh token")) := rfl
      cases hshape : isTokenShape value with
      | true =>
        rw [hshape, if_pos rfl] at hvalidate
        have hok := hok (some value) _ hloaded hshape
        show Keeps (answerLoad value (validateTokenShape value "stored refresh token")) Q
          { φ with seen := some (some value) }
        rw [hvalidate]
        exact hok
      | false =>
        rw [hshape, if_neg (by simp)] at hvalidate
        show Keeps (answerLoad value (validateTokenShape value "stored refresh token")) Q
          { φ with seen := some (some value) }
        rw [hvalidate]
        refine herror _ _ hready.1 (.inl ?_) id
        cases hburning : φ.burning with
        | none => rfl
        | some token =>
          obtain ⟨heq, htoken⟩ := hadmits token hburning
          cases heq
          rw [hshape] at htoken
          cases htoken

/-- A deletion that keeps to what was loaded. -/
theorem keeps_delete {compared : Option String} (hready : Ready φ) (hseen : φ.seen = some compared)
    {Q : Except String Unit → Grip → Prop}
    (hQ : ∀ r ψ, ψ.held = true → (ψ.broken = true ∨ ψ.burning = none) → Q r ψ) :
    Keeps (deletePersistedCredential compared) Q φ := by
  refine ⟨⟨hready.1, hready.2, hseen⟩, ?_⟩
  rintro (_ | detail | _) -
  · exact hQ _ _ hready.1 (.inr rfl)
  · refine hQ _ _ hready.1 ?_
    cases hburning : φ.burning with
    | none => exact .inr hburning
    | some token => exact .inl (by simp [discipline, Grip.fail, hburning])
  · exact hQ _ _ hready.1 (.inr rfl)

/-- `deleteIfMatches` removes a token that was sent. -/
theorem keeps_deleteIfMatches {expected : Option String} (hready : Ready φ)
    (hburning : ∀ token, φ.burning = some token → expected = some token)
    {Q : Except String Unit → Grip → Prop}
    (hQ : ∀ r ψ, ψ.held = true → (ψ.broken = true ∨ ψ.burning = none) → Q r ψ) :
    Keeps (deleteIfMatches expected) Q φ := by
  refine (discipline.keeps_bind).mpr (keeps_load hready ?_ ?_)
  · intro e ψ hheld hfail _
    exact hQ _ _ hheld hfail.symm
  · intro value ψ hloaded _
    have hψ := hloaded.ready hready
    show Keeps (if expected.isSome ∧ value = expected then deletePersistedCredential expected
      else pure (.ok ())) Q ψ
    split
    · next hmatches =>
      refine keeps_delete hψ ?_ hQ
      rw [hloaded.eq, hmatches.2]
    · next hother =>
      refine hQ _ _ hψ.1 (.inr ?_)
      rw [hloaded.eq]
      cases hsent : φ.burning with
      | none => rfl
      | some token =>
        have hexpected := hburning token hsent
        have hvalue := hloaded.burning token hsent
        exact absurd ⟨by rw [hexpected]; rfl, by rw [hvalue, hexpected]⟩ hother

theorem settled_clear (hheld : φ.held = true) (h : φ.broken = true ∨ φ.burning = none) :
    Settled { φ with dirty := false } := by
  obtain hbroken | hburning := h
  · exact ⟨hheld, .inl hbroken⟩
  · exact ⟨hheld, .inr ⟨hburning, rfl⟩⟩

/-- **The end of a rotation that failed**: what was sent is removed. -/
theorem keeps_deleteIfMatchesAndClear {expected : Option String} (hready : Ready φ)
    (hburning : ∀ token, φ.burning = some token → expected = some token)
    {Q : Except AxiomError Nat → Grip → Prop} (hQ : ∀ r ψ, Settled ψ → Q r ψ) :
    Keeps (deleteIfMatchesAndClear expected) Q φ := by
  refine (discipline.keeps_bind).mpr (keeps_deleteIfMatches hready hburning ?_)
  rintro (detail | ⟨⟩) ψ hheld hend
  · exact keeps_clear (fun _ => hend) fun _ => hQ _ _ (settled_clear hheld hend)
  · exact keeps_clear (fun _ => hend) fun _ => hQ _ _ (settled_clear hheld hend)

/-! ## Bundles -/

/-- What a task holds when it has a bundle: the lock, its token, and a token that was sent is the
expected one. -/
structure Given (expected : Option String) (bundle : SessionBundle) (φ : Grip) : Prop where
  ready : Ready φ
  fresh : bundle.refreshToken ∈ φ.fresh
  burning : ∀ token, φ.burning = some token → expected = some token
  dirty : φ.burning = none → φ.dirty = false

theorem keeps_refuse {bundle : SessionBundle} {expected : Option String} {error : AxiomError}
    (h : Given expected bundle φ) {Q : Except AxiomError AccountStatus → Grip → Prop}
    (hQ : ∀ r ψ, Settled ψ → Q r ψ) : Keeps (refuse bundle expected error) Q φ := by
  refine (discipline.keeps_bind).mpr (keeps_free trivial (fun _ => rfl) fun _ => ?_)
  refine (discipline.keeps_bind).mpr (keeps_deleteIfMatchesAndClear h.ready h.burning ?_)
  exact fun _ ψ hψ => hQ _ ψ hψ

/-- A save that was not waited for is one of the store's errors. -/
theorem timedOut_marker :
    credentialOperationTimedOut (credentialTimeoutError "credential persistence") = true := by
  decide +kernel

theorem keeps_persistenceFailed_timedOut {bundle : SessionBundle} {expected : Option String}
    {error : AxiomError} (hheld : φ.held = true) (hend : φ.broken = true ∨ φ.burning = none)
    (herror : credentialOperationTimedOut error = true)
    {Q : Except AxiomError AccountStatus → Grip → Prop} (hQ : ∀ r ψ, Settled ψ → Q r ψ) :
    Keeps (persistenceFailed bundle expected error) Q φ := by
  refine (discipline.keeps_bind).mpr (keeps_free trivial (fun _ => rfl) fun _ => ?_)
  show Keeps (if credentialOperationTimedOut error = true then _ else _) Q φ
  rw [if_pos herror]
  exact keeps_clear (fun _ => hend) fun _ => hQ _ _ (settled_clear hheld hend)

theorem keeps_persistenceFailed {bundle : SessionBundle} {expected : Option String}
    {error : AxiomError} (hready : Ready φ)
    (hburning : ∀ token, φ.burning = some token → expected = some token)
    (herror : credentialOperationTimedOut error = false)
    {Q : Except AxiomError AccountStatus → Grip → Prop} (hQ : ∀ r ψ, Settled ψ → Q r ψ) :
    Keeps (persistenceFailed bundle expected error) Q φ := by
  refine (discipline.keeps_bind).mpr (keeps_free trivial (fun _ => rfl) fun _ => ?_)
  show Keeps (if credentialOperationTimedOut error = true then _ else _) Q φ
  rw [if_neg (by simp [herror])]
  refine (discipline.keeps_bind).mpr (keeps_deleteIfMatchesAndClear hready hburning ?_)
  exact fun _ ψ hψ => hQ _ ψ hψ

/-- **A bundle is saved in the place of what was loaded, or its token is removed.** -/
theorem keeps_persistBundle {bundle : SessionBundle} {force : Bool}
    {previous expected : Option String} (h : Given expected bundle φ)
    {Q : Except AxiomError AccountStatus → Grip → Prop} (hQ : ∀ r ψ, Settled ψ → Q r ψ) :
    Keeps (persistBundle bundle force previous expected) Q φ := by
  refine (discipline.keeps_bind).mpr (keeps_load h.ready ?_ ?_)
  · intro e ψ hheld hfail _
    refine (discipline.keeps_bind).mpr (keeps_free trivial (fun _ => rfl) fun _ => ?_)
    exact keeps_clear (fun _ => hfail.symm) fun _ => hQ _ _ (settled_clear hheld hfail.symm)
  · intro persisted ψ hloaded _
    have hψ := hloaded.ready h.ready
    have hburning : ψ.burning = φ.burning := by rw [hloaded.eq]
    have hseen : ψ.seen = some persisted := by rw [hloaded.eq]
    show Keeps (if persisted ≠ expected then _ else _) Q ψ
    split
    · next hother =>
      have hnone : φ.burning = none := by
        cases hsent : φ.burning with
        | none => rfl
        | some token =>
          exact absurd ((hloaded.burning token hsent).trans (h.burning token hsent).symm) hother
      refine (discipline.keeps_bind).mpr (keeps_free trivial (fun _ => rfl) fun _ => ?_)
      refine (discipline.keeps_bind).mpr (keeps_adopt hψ.1 hseen fun _ => ?_)
      refine hQ _ _ ⟨hψ.1, .inr ⟨hburning.trans hnone, ?_⟩⟩
      rw [hloaded.eq]
      exact h.dirty hnone
    · next hsame =>
      have hsame : persisted = expected := not_not.mp hsame
      have hfresh : bundle.refreshToken ∈ ψ.fresh := by
        rw [hloaded.eq]
        exact h.fresh
      refine (discipline.keeps_bind).mpr ⟨⟨hψ.1, hψ.2, hsame ▸ hseen, hfresh⟩, ?_⟩
      rintro (_ | detail | _) -
      · refine ⟨⟨hψ.1, rfl, rfl⟩, ?_⟩
        intro s _
        exact hQ _ _ ⟨hψ.1, .inr ⟨rfl, rfl⟩⟩
      · cases hmarker : containsMarker detail with
        | true =>
          have herror : credentialOperationTimedOut (.storage detail) = true := hmarker
          refine keeps_persistenceFailed_timedOut ?_ ?_ herror hQ
          · simp [discipline, hmarker, Grip.fail, hψ.1]
          · cases hsent : ψ.burning <;> simp [discipline, hmarker, Grip.fail, hsent]
        | false =>
          have hnext : discipline.next (.save bundle.refreshToken expected) ψ (.error detail) = ψ := by
            simp [discipline, hmarker]
          have herror : credentialOperationTimedOut (.storage detail) = false := hmarker
          rw [hnext]
          refine keeps_persistenceFailed hψ ?_ herror hQ
          intro token hsent
          exact h.burning token (hburning ▸ hsent)
      · refine keeps_persistenceFailed_timedOut ?_ ?_ timedOut_marker hQ
        · exact hψ.1
        · exact .inr rfl

theorem keeps_commitBundleUnderCredentialLock {bundle : SessionBundle} {force : Bool}
    {expected : Option String} (h : Given expected bundle φ)
    {Q : Except AxiomError AccountStatus → Grip → Prop} (hQ : ∀ r ψ, Settled ψ → Q r ψ) :
    Keeps (commitBundleUnderCredentialLock env bundle force expected) Q φ := by
  refine (discipline.keeps_bind).mpr (keeps_free trivial (fun _ => rfl) fun now => ?_)
  cases hvalid : validateBundle env now bundle with
  | error error => exact keeps_refuse h hQ
  | ok =>
    refine (discipline.keeps_bind).mpr (keeps_read fun s => ?_)
    dsimp only
    split
    · exact keeps_refuse h hQ
    · exact keeps_persistBundle h hQ

/-! ## Under the lock -/

/-- What a task holds when it has just taken the lock. -/
structure Entered (φ : Grip) : Prop where
  ready : Ready φ
  burning : φ.burning = none
  dirty : φ.dirty = false

theorem Entered.settled (h : Entered φ) : Settled φ :=
  ⟨h.ready.1, .inr ⟨h.burning, h.dirty⟩⟩

theorem Entered.loaded {value : Option String} {ψ : Grip} (h : Entered φ) (hψ : Loaded value φ ψ) :
    Entered ψ := by
  obtain ⟨rfl, -⟩ := hψ
  exact ⟨h.ready, h.burning, h.dirty⟩

theorem keeps_acquire (h : Idle φ) {Q : Except AxiomError Unit → Grip → Prop}
    (herror : ∀ e ψ, Idle ψ → Q (.error e) ψ)
    (hok : ∀ ψ, Entered ψ → ψ.fresh = φ.fresh → Q (.ok ()) ψ) :
    Keeps acquireCredentialLock Q φ := by
  refine ⟨h, ?_⟩
  rintro (detail | ⟨⟩) -
  · refine (discipline.keeps_bind).mpr (keeps_clear ?_ fun _ => herror _ _ h)
    intro hheld
    cases Eq.trans hheld.symm h
  · exact hok _ ⟨⟨rfl, rfl⟩, rfl, rfl⟩ rfl

/-- The load that an operation begins with. -/
theorem keeps_firstLoad (h : Entered φ) {Q : Except AxiomError (Option String) → Grip → Prop}
    (herror : ∀ e ψ, Settled ψ → Q (.error e) ψ)
    (hok : ∀ value ψ, Entered ψ → ψ.seen = some value → value.all isTokenShape = true →
      Q (.ok value) ψ) :
    Keeps loadPersistedCredential Q φ := by
  refine keeps_load h.ready ?_ ?_
  · intro e ψ hheld hend hdirty
    refine herror e ψ ⟨hheld, ?_⟩
    obtain hburning | hbroken := hend
    · exact .inr ⟨hburning, hdirty h.dirty⟩
    · exact .inl hbroken
  · intro value ψ hloaded hshape
    refine hok value ψ (h.loaded hloaded) ?_ hshape
    rw [hloaded.eq]

theorem keeps_settle {detail : Option String} (h : Settled φ) {Q : Nat → Grip → Prop}
    (hQ : ∀ revision ψ, Settled ψ → Q revision ψ) : Keeps (clearLocalAuthorization detail) Q φ :=
  keeps_clear (fun _ => h.2.imp_right And.left) fun _ =>
    hQ _ _ ⟨h.1, h.2.imp_right fun h => ⟨h.1, rfl⟩⟩

/-! ## Refreshing -/

theorem keeps_burn {refresh : String} {error : Option AxiomError → AxiomError} (hready : Ready φ)
    (hburning : φ.burning = some refresh) {Q : Except AxiomError AccessTokenLease → Grip → Prop}
    (hQ : ∀ r ψ, Settled ψ → Q r ψ) : Keeps (burn refresh error) Q φ := by
  refine (discipline.keeps_bind).mpr (keeps_deleteIfMatchesAndClear hready ?_ ?_)
  · intro token htoken
    exact hburning.symm.trans htoken
  · rintro (failure | revision) ψ hψ
    · exact hQ _ ψ hψ
    · exact hQ _ ψ hψ

theorem sessionBundle_refreshToken {response : TokenResponse} {bundle : SessionBundle}
    (h : sessionBundle env response = some bundle) :
    bundle.refreshToken = response.refreshToken := by
  simp only [sessionBundle] at h
  split at h
  · split at h
    · cases h
    · cases h
      rfl
  · cases h

/-- `takeBundle`, once the manager has the stored token. -/
def commitTaken (env : AuthEnvironment) (switched allow : Bool) (refresh : String)
    (bundle : SessionBundle) : Operation (Except AxiomError AccessTokenLease) := do
  match ← commitBundleUnderCredentialLock env bundle false (some refresh) with
  | .error error => return .error error
  | .ok _ =>
    if switched ∧ allow = false then return .error accountChanged
    else
      match (← read .token).accessToken with
      | some token => return .ok ⟨token.token, some token.expiresAt⟩
      | none => return .error (.storage "session refresh task failed")

theorem keeps_commitTaken {switched allow : Bool} {refresh : String} {bundle : SessionBundle}
    (h : Given (some refresh) bundle φ) {Q : Except AxiomError AccessTokenLease → Grip → Prop}
    (hQ : ∀ r ψ, Settled ψ → Q r ψ) :
    Keeps (commitTaken env switched allow refresh bundle) Q φ := by
  refine (discipline.keeps_bind).mpr (keeps_commitBundleUnderCredentialLock h ?_)
  rintro (error | status) ψ hψ
  · exact hQ _ ψ hψ
  · dsimp only
    split
    · exact hQ _ ψ hψ
    · refine (discipline.keeps_bind).mpr (keeps_read fun s => ?_)
      split <;> exact hQ _ ψ hψ

theorem keeps_takeBundle {allow changed : Bool} {previous : Option String} {refresh : String}
    {bundle : SessionBundle} (h : Given (some refresh) bundle φ)
    (hseen : φ.seen = some (some refresh)) {Q : Except AxiomError AccessTokenLease → Grip → Prop}
    (hQ : ∀ r ψ, Settled ψ → Q r ψ) :
    Keeps (takeBundle env allow changed previous refresh bundle) Q φ := by
  have hcommit (switched : Bool) : Keeps (commitTaken env switched allow refresh bundle) Q φ :=
    keeps_commitTaken h hQ
  unfold takeBundle
  dsimp only
  split
  · exact (discipline.keeps_bind).mpr (keeps_adopt h.ready.1 hseen fun _ => hcommit _)
  · exact hcommit _

theorem keeps_refresh {refresh : String} (h : Entered φ) (hseen : φ.seen = some (some refresh))
    (hshape : isTokenShape refresh = true) {Q : RefreshReply → Grip → Prop}
    (hQ : ∀ reply ψ, Ready ψ → ψ.burning = some refresh → ψ.seen = φ.seen →
      (∀ response, reply = .response response → response.refreshToken ∈ ψ.fresh) → Q reply ψ) :
    Keeps (ask (.refresh refresh)) Q φ := by
  refine ⟨⟨h.ready.1, h.ready.2, hseen, h.burning, hshape⟩, fun reply _ => ?_⟩
  refine hQ reply _ h.ready rfl rfl ?_
  rintro response rfl
  exact List.mem_cons_self

/-- **A refresh token that was sent is replaced or removed.** -/
theorem keeps_rotate {allow changed : Bool} {previous : Option String} {refresh : String}
    (h : Entered φ) (hseen : φ.seen = some (some refresh)) (hshape : isTokenShape refresh = true)
    {Q : Except AxiomError AccessTokenLease → Grip → Prop} (hQ : ∀ r ψ, Settled ψ → Q r ψ) :
    Keeps (rotate env allow changed previous refresh) Q φ := by
  refine (discipline.keeps_bind).mpr (keeps_refresh h hseen hshape fun reply ψ hψ hsent hkept htokens => ?_)
  have hburn (error : Option AxiomError → AxiomError) : Keeps (burn refresh error) Q ψ :=
    keeps_burn hψ hsent hQ
  cases reply with
  | lost error => exact hburn _
  | unauthorized => exact hburn _
  | status code => exact hburn _
  | malformed => exact hburn _
  | response response =>
    dsimp only
    split
    · exact hburn _
    · next bundle hbundle =>
      refine keeps_takeBundle ⟨hψ, ?_, ?_, ?_⟩ (hkept.trans hseen) hQ
      · rw [sessionBundle_refreshToken hbundle]
        exact htokens response rfl
      · intro token htoken
        exact hsent.symm.trans htoken
      · intro hnone
        cases hsent.symm.trans hnone

theorem keeps_refreshHolding {allow : Bool} (h : Entered φ)
    {Q : Except AxiomError AccessTokenLease → Grip → Prop} (hQ : ∀ r ψ, Settled ψ → Q r ψ) :
    Keeps (refreshHolding env allow) Q φ := by
  refine (discipline.keeps_bind).mpr (keeps_firstLoad h ?_ ?_)
  · intro error ψ hψ
    exact (discipline.keeps_bind).mpr (keeps_settle hψ fun _ ψ hψ => hQ _ ψ hψ)
  · intro persisted ψ hψ hseen hshape
    refine (discipline.keeps_bind).mpr (keeps_read fun found => ?_)
    refine (discipline.keeps_bind).mpr (keeps_read fun s => ?_)
    dsimp only
    split
    · refine (discipline.keeps_bind).mpr (keeps_adopt hψ.ready.1 hseen fun _ => ?_)
      cases persisted with
      | none =>
        dsimp only
        split <;> exact hQ _ ψ hψ.settled
      | some refresh =>
        dsimp only
        split
        · exact hQ _ ψ hψ.settled
        · exact keeps_rotate hψ hseen hshape hQ
    · cases persisted with
      | none => exact hQ _ ψ hψ.settled
      | some refresh => exact keeps_rotate hψ hseen hshape hQ

theorem keeps_refreshUnderLock {allow : Bool} (h : Idle φ)
    {Q : Except AxiomError AccessTokenLease → Grip → Prop} (hQ : ∀ r ψ, Idle ψ → Q r ψ) :
    Keeps (refreshUnderLock env allow) Q φ := by
  refine (discipline.keeps_bind).mpr (keeps_acquire h ?_ ?_)
  · intro error ψ hψ
    exact hQ _ ψ hψ
  · intro ψ hψ _
    refine (discipline.keeps_bind).mpr (keeps_refreshHolding hψ fun result ψ hψ => ?_)
    exact (discipline.keeps_bind).mpr (keeps_unlock hψ fun ψ hψ => hQ _ ψ hψ)

/-! ## Operations -/

theorem keeps_accessTokenInternal {minimumRemaining : Nat} {cancellable allow : Bool} (h : Idle φ)
    {Q : Except AxiomError AccessTokenLease → Grip → Prop} (hQ : ∀ r ψ, Idle ψ → Q r ψ) :
    Keeps (accessTokenInternal env minimumRemaining cancellable allow) Q φ := by
  refine (discipline.keeps_bind).mpr (keeps_free trivial (fun _ => rfl) fun now => ?_)
  refine (discipline.keeps_bind).mpr (keeps_read fun state => ?_)
  split
  · exact hQ _ φ h
  · split
    · exact hQ _ φ h
    · refine (discipline.keeps_bind).mpr (keeps_free trivial (fun _ => rfl) fun taken => ?_)
      split
      · have hexclusive (result : Except AxiomError AccessTokenLease) (ψ : Grip) (hψ : Idle ψ) :
            Keeps (do ask .unlockOperations; return result) Q ψ :=
          (discipline.keeps_bind).mpr (keeps_free trivial (fun _ => rfl) fun _ => hQ _ ψ hψ)
        refine (discipline.keeps_bind).mpr ?_
        refine (discipline.keeps_bind).mpr (keeps_free trivial (fun _ => rfl) fun now => ?_)
        refine (discipline.keeps_bind).mpr (keeps_read fun state => ?_)
        split
        · exact hexclusive _ φ h
        · exact keeps_refreshUnderLock h hexclusive
      · exact hQ _ φ h

theorem keeps_accessToken {minimumRemaining : Nat} (h : Idle φ)
    {Q : Except AxiomError AccessTokenLease → Grip → Prop} (hQ : ∀ r ψ, Idle ψ → Q r ψ) :
    Keeps (accessToken env minimumRemaining) Q φ :=
  keeps_accessTokenInternal h hQ

theorem keeps_accountOperation (h : Idle φ)
    {Q : Except AxiomError AccountAccessTokenLease → Grip → Prop} (hQ : ∀ r ψ, Idle ψ → Q r ψ) :
    Keeps (accessTokenForAccountOperation env) Q φ := by
  refine (discipline.keeps_bind).mpr (keeps_read fun state => ?_)
  split
  · exact hQ _ φ h
  · refine (discipline.keeps_bind).mpr (keeps_accessToken h ?_)
    rintro (error | access) ψ hψ
    · exact hQ _ ψ hψ
    · refine (discipline.keeps_bind).mpr (keeps_read fun state => ?_)
      split <;> exact hQ _ ψ hψ

theorem keeps_deletePersistedAndClear (h : Idle φ) {Q : Except AxiomError Nat → Grip → Prop}
    (hQ : ∀ r ψ, Idle ψ → Q r ψ) : Keeps deletePersistedAndClear Q φ := by
  refine (discipline.keeps_bind).mpr (keeps_read fun state => ?_)
  split
  · exact hQ _ φ h
  · refine (discipline.keeps_bind).mpr (keeps_read fun state => ?_)
    refine (discipline.keeps_bind).mpr (keeps_acquire h (fun _ ψ hψ => hQ _ ψ hψ) ?_)
    intro ψ hψ _
    refine (discipline.keeps_bind).mpr (keeps_deleteIfMatchesAndClear hψ.ready ?_ ?_)
    · intro token htoken
      cases hψ.burning.symm.trans htoken
    · intro result ψ hψ
      exact (discipline.keeps_bind).mpr (keeps_unlock hψ fun ψ hψ => hQ _ ψ hψ)

theorem keeps_clearIfGeneration {generation : Nat} (h : Idle φ)
    {Q : Except AxiomError Nat → Grip → Prop} (hQ : ∀ r ψ, Idle ψ → Q r ψ) :
    Keeps (clearIfGeneration generation) Q φ := by
  refine (discipline.keeps_bind).mpr (keeps_free trivial (fun _ => rfl) fun _ => ?_)
  refine (discipline.keeps_bind).mpr (keeps_read fun state => ?_)
  split
  · refine (discipline.keeps_bind).mpr (keeps_read fun state => ?_)
    exact (discipline.keeps_bind).mpr (keeps_free trivial (fun _ => rfl) fun _ => hQ _ φ h)
  · refine (discipline.keeps_bind).mpr (keeps_deletePersistedAndClear h fun result ψ hψ => ?_)
    exact (discipline.keeps_bind).mpr (keeps_free trivial (fun _ => rfl) fun _ => hQ _ ψ hψ)

theorem keeps_expire {generation revision : Nat} (h : Idle φ)
    {Q : VersionedValidationStatus → Grip → Prop} (hQ : ∀ r ψ, Idle ψ → Q r ψ) :
    Keeps (expire generation revision) Q φ := by
  refine (discipline.keeps_bind).mpr (keeps_clearIfGeneration h ?_)
  rintro (error | clearRevision) ψ hψ <;> exact hQ _ ψ hψ

theorem keeps_publish {generation revision : Nat} {account : AccountProfile}
    {session : NativeSessionStatus} (h : Idle φ)
    {Q : VersionedValidationStatus → Grip → Prop} (hQ : ∀ r ψ, Idle ψ → Q r ψ) :
    Keeps (publish generation revision account session) Q φ := by
  refine (discipline.keeps_bind).mpr (keeps_free trivial (fun _ => rfl) fun state => ?_)
  split
  · exact hQ _ φ h
  · split
    · exact hQ _ φ h
    · exact keeps_expire h hQ

theorem keeps_validated {lease : AccessTokenLease} {generation revision : Nat}
    {reply : SessionReply} (h : Idle φ) {Q : VersionedValidationStatus → Grip → Prop}
    (hQ : ∀ r ψ, Idle ψ → Q r ψ) :
    Keeps (validated env lease generation revision reply) Q φ := by
  unfold validated
  dsimp only
  split
  · exact hQ _ φ h
  · exact keeps_expire h hQ
  · exact hQ _ φ h
  · exact hQ _ φ h
  · exact hQ _ φ h
  · split
    · exact hQ _ φ h
    · refine (discipline.keeps_bind).mpr (keeps_free trivial (fun _ => rfl) fun now => ?_)
      split
      · exact hQ _ φ h
      · exact keeps_publish h hQ

theorem keeps_validateWithRevision (h : Idle φ) {Q : VersionedValidationStatus → Grip → Prop}
    (hQ : ∀ r ψ, Idle ψ → Q r ψ) : Keeps (validateWithRevision env) Q φ := by
  refine (discipline.keeps_bind).mpr (keeps_free trivial (fun _ => rfl) fun state => ?_)
  refine (discipline.keeps_bind).mpr (keeps_read fun state => ?_)
  split
  · exact hQ _ φ h
  · refine (discipline.keeps_bind).mpr (keeps_read fun state => ?_)
    split
    · exact hQ _ φ h
    · refine (discipline.keeps_bind).mpr (keeps_accessTokenInternal h ?_)
      rintro (error | lease) ψ hψ
      · refine (discipline.keeps_bind).mpr (keeps_read fun state => ?_)
        split
        · exact (discipline.keeps_bind).mpr (keeps_read fun state => hQ _ ψ hψ)
        · exact hQ _ ψ hψ
      · refine (discipline.keeps_bind).mpr (keeps_read fun state => ?_)
        exact (discipline.keeps_bind).mpr (keeps_free trivial (fun _ => rfl) fun reply =>
          keeps_validated hψ hQ)

/-- `startNativeLogin`, once the lock is given back. -/
def createLogin : Operation (Except AxiomError Nat) := do
  if (← read .credential).hasCredential then
    return .error (.invalidTransition
      "sign out of the current Axiom account before starting another native login")
  else
    let generation := (← read .generation).generation
    match ← ask .createAuthorization with
    | .error error => return .error error
    | .ok () => return .ok generation

theorem keeps_createLogin (h : Idle φ) {Q : Except AxiomError Nat → Grip → Prop}
    (hQ : ∀ r ψ, Idle ψ → Q r ψ) : Keeps createLogin Q φ := by
  refine (discipline.keeps_bind).mpr (keeps_read fun state => ?_)
  split
  · exact hQ _ φ h
  · refine (discipline.keeps_bind).mpr (keeps_read fun state => ?_)
    refine (discipline.keeps_bind).mpr (keeps_free trivial (fun _ => rfl) fun reply => ?_)
    cases reply <;> exact hQ _ φ h

theorem keeps_startNativeLogin (h : Idle φ) {Q : Except AxiomError Nat → Grip → Prop}
    (hQ : ∀ r ψ, Idle ψ → Q r ψ) : Keeps startNativeLogin Q φ := by
  refine (discipline.keeps_bind).mpr (keeps_read fun state => ?_)
  split
  · exact hQ _ φ h
  · refine (discipline.keeps_bind).mpr (keeps_read fun state => ?_)
    split
    · exact hQ _ φ h
    · refine (discipline.keeps_bind).mpr (keeps_acquire h (fun _ ψ hψ => hQ _ ψ hψ) ?_)
      intro ψ hψ _
      refine (discipline.keeps_bind).mpr (keeps_firstLoad hψ ?_ ?_)
      · intro error ψ hψ
        refine (discipline.keeps_bind).mpr (keeps_settle hψ fun _ ψ hψ => ?_)
        exact (discipline.keeps_bind).mpr (keeps_unlock hψ fun ψ hψ => hQ _ ψ hψ)
      · intro persisted ψ hψ hseen _
        have hrest : Keeps (do ask .unlock; createLogin) Q ψ := by
          refine (discipline.keeps_bind).mpr (keeps_unlock hψ.settled fun ψ hψ => ?_)
          exact keeps_createLogin hψ hQ
        refine (discipline.keeps_bind).mpr (keeps_read fun state => ?_)
        dsimp only
        split
        · exact (discipline.keeps_bind).mpr (keeps_adopt hψ.ready.1 hseen fun _ => hrest)
        · exact hrest

theorem keeps_commitBundle {bundle : SessionBundle} {force : Bool} (h : Idle φ)
    (hfresh : bundle.refreshToken ∈ φ.fresh) {Q : Except AxiomError AccountStatus → Grip → Prop}
    (hQ : ∀ r ψ, Idle ψ → Q r ψ) : Keeps (commitBundle env bundle force) Q φ := by
  refine (discipline.keeps_bind).mpr (keeps_read fun state => ?_)
  refine (discipline.keeps_bind).mpr (keeps_acquire h ?_ ?_)
  · intro error ψ hψ
    exact (discipline.keeps_bind).mpr (keeps_free trivial (fun _ => rfl) fun _ => hQ _ ψ hψ)
  · intro ψ hψ hkept
    have hgiven : Given state.refreshToken bundle ψ := by
      refine ⟨hψ.ready, hkept ▸ hfresh, ?_, fun _ => hψ.dirty⟩
      intro token htoken
      cases hψ.burning.symm.trans htoken
    refine (discipline.keeps_bind).mpr (keeps_commitBundleUnderCredentialLock hgiven ?_)
    intro result ψ hψ
    exact (discipline.keeps_bind).mpr (keeps_unlock hψ fun ψ hψ => hQ _ ψ hψ)

theorem keeps_finishExchange {response : ExchangeResponse} {generation : Nat} (h : Idle φ)
    (hfresh : ∀ tokens, response.tokens = some tokens → tokens.refreshToken ∈ φ.fresh)
    {Q : Except AxiomError AccountStatus → Grip → Prop} (hQ : ∀ r ψ, Idle ψ → Q r ψ) :
    Keeps (finishExchange env response generation) Q φ := by
  unfold finishExchange
  split
  · exact hQ _ φ h
  · split
    · exact hQ _ φ h
    · next bundle hbundle =>
      obtain ⟨tokens, htokens, hbundle⟩ := Option.bind_eq_some_iff.mp hbundle
      have hbundleFresh : bundle.refreshToken ∈ φ.fresh := by
        rw [sessionBundle_refreshToken hbundle]
        exact hfresh tokens htokens
      refine (discipline.keeps_bind).mpr (keeps_free trivial (fun _ => rfl) fun _ => ?_)
      refine (discipline.keeps_bind).mpr (keeps_read fun state => ?_)
      split
      · refine (discipline.keeps_bind).mpr (keeps_free trivial (fun _ => rfl) fun _ => ?_)
        exact (discipline.keeps_bind).mpr (keeps_free trivial (fun _ => rfl) fun _ => hQ _ φ h)
      · refine (discipline.keeps_bind).mpr (keeps_commitBundle h hbundleFresh fun result ψ hψ => ?_)
        exact (discipline.keeps_bind).mpr (keeps_free trivial (fun _ => rfl) fun _ => hQ _ ψ hψ)

theorem keeps_pollExchange {generation : Nat} (h : Idle φ)
    {Q : Except AxiomError (Option AccountStatus) → Grip → Prop} (hQ : ∀ r ψ, Idle ψ → Q r ψ) :
    Keeps (pollExchange env generation) Q φ := by
  refine (discipline.keeps_bind).mpr ⟨trivial, fun reply _ => ?_⟩
  obtain error | response := reply
  · exact hQ _ _ h
  · show Keeps (if response.status = "pending" then _ else _) Q _
    split
    · exact hQ _ _ h
    · have hnext : Idle (discipline.next .exchange φ (.ok response)) := h
      refine (discipline.keeps_bind).mpr (keeps_finishExchange hnext ?_ ?_)
      · intro tokens htokens
        show tokens.refreshToken ∈ (response.tokens.map (·.refreshToken)).toList ++ φ.fresh
        rw [htokens]
        exact List.mem_cons_self
      · rintro (error | status) ψ hψ <;> exact hQ _ ψ hψ

theorem keeps_logoutWith {bearer : Option AccessTokenLease} (h : Idle φ)
    {Q : Except AxiomError Nat → Grip → Prop} (hQ : ∀ r ψ, Idle ψ → Q r ψ) :
    Keeps (logoutWith bearer) Q φ := by
  refine (discipline.keeps_bind).mpr (keeps_free trivial (fun _ => rfl) fun taken => ?_)
  split
  · have hdelete : Keeps (do
        let result ← deletePersistedAndClear
        ask .unlockOperations
        return result) Q φ := by
      refine (discipline.keeps_bind).mpr (keeps_deletePersistedAndClear h fun result ψ hψ => ?_)
      exact (discipline.keeps_bind).mpr (keeps_free trivial (fun _ => rfl) fun _ => hQ _ ψ hψ)
    cases bearer with
    | none => exact hdelete
    | some bearer => exact (discipline.keeps_bind).mpr (keeps_free trivial (fun _ => rfl) fun _ => hdelete)
  · exact hQ _ φ h

theorem keeps_logout (h : Idle φ) {Q : Except AxiomError Nat → Grip → Prop}
    (hQ : ∀ r ψ, Idle ψ → Q r ψ) : Keeps (logoutWithCancellation env) Q φ := by
  refine (discipline.keeps_bind).mpr (keeps_read fun state => ?_)
  split
  · exact hQ _ φ h
  · refine (discipline.keeps_bind).mpr (keeps_accessToken h ?_)
    intro result ψ hψ
    split
    · exact keeps_logoutWith hψ hQ
    · exact hQ _ ψ hψ
    · exact keeps_logoutWith hψ hQ

/-- **Every call of a manager keeps to the discipline.** -/
theorem call_keeps (call : Call) (h : Idle φ) :
    Keeps (call.program env) (fun _ ψ => Idle ψ) φ := by
  have hreport {α : Type} (report : α → Report) (result : α) (ψ : Grip) (hψ : Idle ψ) :
      Keeps (ask (.report (report result))) (fun _ ψ => Idle ψ) ψ :=
    keeps_free trivial (fun _ => rfl) fun _ => hψ
  cases call with
  | accessToken minimumRemaining =>
    exact (discipline.keeps_bind).mpr (keeps_accessToken h (hreport .accessToken))
  | accountOperation =>
    exact (discipline.keeps_bind).mpr (keeps_accountOperation h (hreport .accountOperation))
  | validate => exact (discipline.keeps_bind).mpr (keeps_validateWithRevision h (hreport .validation))
  | startNativeLogin =>
    exact (discipline.keeps_bind).mpr (keeps_startNativeLogin h (hreport .loginStarted))
  | pollExchange generation =>
    exact (discipline.keeps_bind).mpr (keeps_pollExchange h (hreport .login))
  | logout => exact (discipline.keeps_bind).mpr (keeps_logout h (hreport .logout))

/-- **A new manager keeps to the discipline.** -/
theorem newWithPaths_keeps (h : Idle φ) :
    Keeps newWithPaths (fun _ ψ => Idle ψ) φ := by
  refine (discipline.keeps_bind).mpr ⟨h, ?_⟩
  rintro (detail | ⟨⟩) -
  · exact keeps_free trivial (fun _ => rfl) fun _ => h
  · have hbuild (state : AuthState) (available : Bool) (ψ : Grip) (hψ : Entered ψ)
        (hstate : state.refreshToken = none ∨ ψ.seen = some state.refreshToken) :
        Keeps (do ask (.build state available); ask .unlock) (fun _ ψ => Idle ψ) ψ := by
      refine (discipline.keeps_bind).mpr ⟨⟨hψ.ready.1, hψ.burning, hstate⟩, fun _ _ => ?_⟩
      exact keeps_unlock ⟨hψ.ready.1, .inr ⟨hψ.burning, hψ.dirty⟩⟩ fun ψ hψ => hψ
    refine (discipline.keeps_bind).mpr ⟨⟨rfl, rfl⟩, ?_⟩
    rintro (error | value) -
    · exact hbuild _ _ _ ⟨⟨rfl, rfl⟩, rfl, rfl⟩ (.inl rfl)
    · cases value with
      | none => exact hbuild _ _ _ ⟨⟨rfl, rfl⟩, rfl, rfl⟩ (.inl rfl)
      | some value =>
        show Keeps (if isTokenShape value = true then _ else _) _ _
        split
        · exact hbuild _ _ _ ⟨⟨rfl, rfl⟩, rfl, rfl⟩ (.inr rfl)
        · refine (discipline.keeps_bind).mpr ⟨⟨rfl, rfl, rfl⟩, ?_⟩
          rintro (error | ⟨⟩) - <;>
            exact hbuild _ _ _ ⟨⟨rfl, rfl⟩, rfl, rfl⟩ (.inl rfl)

end Discipline

end AxiomDesktop.Auth
