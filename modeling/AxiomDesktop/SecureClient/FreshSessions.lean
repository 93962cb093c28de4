import AxiomDesktop.SecureClient.Lease

/-!
# Verified sessions are fresh

Every session that a call returns has the key material of an attestation that succeeded for the same
model and trust policy, is returned before that attestation expires, and one that `verify_security`
returns is of a challenge that was drawn after the call began (`verified_sessions_are_fresh`).

An attestation that was made for the call is returned without a look at the clock, and the lookup of
one that is kept reads the clock before it waits for the cache. And what an attestation that was
under way inserts behind `invalidate` is found by the call that has invalidated. The result is about
the runs in which the clock leaves these windows alone and no explicit verification finds what is
older than itself (`Unhurried`); `older_evidence_returned` has a run where both happen.
-/

namespace AxiomDesktop

open Near.Attestation NearProvider

variable (config : SessionConfig)

/-! ## Freshness -/

namespace VerifyRun

/-- The first of the lease's hard expiry, the policy's expiry and the end of the run's own time. -/
def limit (run : VerifyRun) : Nat :=
  expiry config run.lease.hardExpiresAtUnixSeconds run.policy.expiresAtUnixSeconds
    run.verified.evidence.verifiedAtUnixSeconds

/-- `verify_model` has succeeded, for the model and under the policy. -/
def Succeeded (run : VerifyRun) : Prop :=
  ∃ env, verifyModel env config.limits run.model.attested run.policy =
    .ok (run.verified, run.lease, run.workerSessionId)

/-- The material is the run's, with its lease. -/
def Backs (run : VerifyRun) (material : NearVerifiedMaterial) : Prop :=
  ∃ binding, binding.hardExpiresAtUnixSeconds = run.lease.hardExpiresAtUnixSeconds ∧
    material = materialOf config run.verified binding run.policy run.workerSessionId

end VerifyRun

/-- A session that is what its call has asked for, of one of the runs. -/
def ReturnedSession.Fresh (runs : List VerifyRun) (s : ReturnedSession) : Prop :=
  ∃ run ∈ runs, run.Succeeded config ∧ run.model = s.session.model ∧ run.policy = s.policy ∧
    run.Backs config s.session.material ∧ s.returnedAt < run.limit config ∧
    ∀ began, s.began = some began → began < run.challenge

/-- No expiry is passed where the code does not look: between a reading of the clock and the lookup
with it, between an attestation and its insertion, and before what was looked up or inserted is
returned. And no call of `verify_security` finds what is of a challenge before it. -/
def Unhurried (pool : SessionsPool) : SessionsStep → Bool
  | .run i .go =>
    match pool.tasks i with
    | some (.ask (.get model policy now) _) =>
      (pool.shared.hit model policy now).all fun cached =>
        pool.shared.clock < cached.expiresAtUnixSeconds &&
          (pool.shared.began i).all (· < cached.run.challenge)
    | some (.ask (.insert _ _ _ _) _) =>
      (pool.shared.verified i).all fun run => pool.shared.clock < run.limit config
    | _ => true
  | .event (.clock now) => pool.shared.inHand.all fun hand => now < hand.2.limit config
  | _ => true

/-! ## What a call knows -/

/-- What `verify_model` has answered to a call. -/
structure Verification where
  model : CatalogModelInfo
  policy : TrustPolicy
  verified : VerifiedNearAttestation
  lease : ProviderKeyLease
  workerSessionId : String

/-- What a call knows. -/
structure SessionTask where
  challenged : Bool := false
  verified : Option Verification := none
  /-- A session that it may return, and the policy it is for. -/
  hand : Option (NearVerifiedSession × TrustPolicy) := none

/-- The run is what was answered to the call. -/
def VerifyRun.Is (run : VerifyRun) (v : Verification) : Prop :=
  run.model = v.model ∧ run.policy = v.policy ∧ run.verified = v.verified ∧ run.lease = v.lease ∧
    run.workerSessionId = v.workerSessionId

/-- What a call knows, and what it needs of it. -/
def establishing : Protocol SessionEffect SessionEffect.Answer SessionTask where
  requires
    | .verifyModel _ _, φ => φ.challenged = true
    | .insert model policy material expires, φ =>
      ∃ v binding, φ.verified = some v ∧ v.model = model ∧ v.policy = policy ∧
        binding.hardExpiresAtUnixSeconds = v.lease.hardExpiresAtUnixSeconds ∧
        material = materialOf config v.verified binding policy v.workerSessionId ∧
        expires ≤ expiry config v.lease.hardExpiresAtUnixSeconds policy.expiresAtUnixSeconds
          v.verified.evidence.verifiedAtUnixSeconds
    | .report session policy, φ => φ.hand = some (session, policy)
    | _, _ => True
  admits _ _ _ := True
  next
    | .challenge, φ, _ => { φ with challenged := true }
    | .get model policy _, φ, some material => { φ with hand := some (⟨material, model⟩, policy) }
    | .verifyModel model policy, φ, .ok (verified, lease, workerSessionId) =>
      { φ with verified := some ⟨model, policy, verified, lease, workerSessionId⟩ }
    | .verifyModel _ _, φ, .error _ => { φ with verified := none }
    | .insert model policy material _, φ, _ =>
      { φ with hand := some (⟨material, model⟩, policy) }
    | .report _ _, φ, _ => { φ with hand := none }
    | _, φ, _ => φ

namespace SessionTask

variable {config} {φ : SessionTask} {model : CatalogModelInfo} {policy : TrustPolicy}

/-- The call keeps to the protocol and ends in `Q`. -/
abbrev Keeps (config : SessionConfig) {α : Type} (p : SessionProg α)
    (Q : α → SessionTask → Prop) (φ : SessionTask) : Prop :=
  (establishing config).Keeps p Q φ

/-- The call may return the session that it has established. -/
def Established (policy : TrustPolicy) (result : Except SecureClientError NearVerifiedSession)
    (φ : SessionTask) : Prop :=
  ∀ session, result = .ok session → φ.hand = some (session, policy)

theorem established_ok {session : NearVerifiedSession} (h : φ.hand = some (session, policy)) :
    Established policy (.ok session) φ := fun _ hsession => by rw [h, Except.ok.inj hsession]

theorem established_error {error : SecureClientError} : Established policy (.error error) φ :=
  fun _ hsession => by cases hsession

theorem keeps_get {Q : Option NearVerifiedMaterial → SessionTask → Prop}
    (hsome : ∀ material, Q (some material) { φ with hand := some (⟨material, model⟩, policy) })
    (hnone : Q none φ) : Keeps config (get model policy) Q φ := by
  refine (establishing config).keeps_effect_bind.mpr ⟨trivial, fun now _ => ?_⟩
  refine ((establishing config).keeps_effect _).mpr ⟨trivial, ?_⟩
  rintro (_ | material) -
  · exact hnone
  · exact hsome material

/-- The expiry of a binding is the one of its lease. -/
theorem verify_hardExpires {now : Nat} {wire : ProviderKeyLease} {key : String}
    {binding : AttestationBinding} (h : Lease.verify config now wire model key = .ok binding) :
    binding.hardExpiresAtUnixSeconds = wire.hardExpiresAtUnixSeconds := by
  obtain ⟨localKey, -, h⟩ := Fallible.result_bind_ok h
  obtain ⟨relayKey, -, h⟩ := Fallible.result_bind_ok h
  obtain ⟨fingerprint, -, h⟩ := Fallible.result_bind_ok h
  split at h
  · cases h
  · split at h
    · cases h
    · rw [← Except.ok.inj h]

/-- **An attestation that succeeds is inserted and returned as it is.** -/
theorem establishLocked_keeps :
    Keeps config (establishLocked config model policy) (Established policy) φ := by
  refine (establishing config).keeps_bind.mpr (keeps_get (fun material => ?_) ?_)
  · exact established_ok rfl
  · refine (establishing config).keeps_effect_bind.mpr ⟨trivial, fun _ _ => ?_⟩
    refine (establishing config).keeps_effect_bind.mpr ⟨rfl, ?_⟩
    rintro (error | ⟨verified, lease, workerSessionId⟩) -
    · exact established_error
    · dsimp only
      split
      · exact established_error
      · refine (establishing config).keeps_effect_bind.mpr ⟨trivial, fun now _ => ?_⟩
        split
        · exact established_error
        · next binding hbinding =>
          refine (establishing config).keeps_effect_bind.mpr ⟨trivial, fun later _ => ?_⟩
          have hhard := verify_hardExpires hbinding
          refine (establishing config).keeps_effect_bind.mpr ⟨?_, fun _ _ => ?_⟩
          · refine ⟨_, binding, rfl, rfl, rfl, hhard, rfl, ?_⟩
            rw [hhard]
            exact Nat.min_le_left _ _
          · exact established_ok rfl

theorem establish_keeps :
    Keeps config (establish config model policy) (Established policy) φ := by
  unfold establish
  split
  · exact established_error
  · refine (establishing config).keeps_bind.mpr (keeps_get (fun material => ?_) ?_)
    · exact established_ok rfl
    · refine (establishing config).keeps_effect_bind.mpr ⟨trivial, ?_⟩
      rintro (error | ⟨⟩) -
      · exact established_error
      · refine Protocol.Keeps.bind _ establishLocked_keeps fun result ψ hresult => ?_
        exact (establishing config).keeps_effect_bind.mpr ⟨trivial, fun _ _ => hresult⟩

theorem establishReported_keeps :
    Keeps config (establishReported config model policy) (fun _ _ => True) φ := by
  refine Protocol.Keeps.bind _ establish_keeps fun result ψ hresult => ?_
  cases result with
  | error error => trivial
  | ok session => exact ⟨hresult session rfl, fun _ _ => trivial⟩

theorem verifySecurity_keeps (modelId : String) :
    Keeps config (verifySecurity config modelId) (fun _ _ => True) φ := by
  refine (establishing config).keeps_effect_bind.mpr ⟨trivial, ?_⟩
  rintro (error | models) -
  · trivial
  · dsimp only
    split
    · trivial
    · refine (establishing config).keeps_effect_bind.mpr ⟨trivial, ?_⟩
      rintro (error | policy) -
      · trivial
      · dsimp only
        split
        · trivial
        · exact (establishing config).keeps_effect_bind.mpr
            ⟨trivial, fun _ _ => establishReported_keeps⟩

/-- **Every call keeps to the protocol.** -/
theorem call_keeps (operation : SessionOperation) :
    Keeps config (operation.call config) (fun _ _ => True) {} := by
  cases operation with
  | establish model policy => exact establishReported_keeps
  | invalidate modelId => exact ⟨trivial, fun _ _ => trivial⟩
  | verifySecurity modelId => exact verifySecurity_keeps modelId

end SessionTask

/-! ## The calls of a client -/

variable {config}

/-- A run that a call may use: for `verify_security`, a later one. -/
structure VerifyRun.Serves (run : VerifyRun) (runs : List VerifyRun) (began : Option Nat) :
    Prop where
  mem : run ∈ runs
  later : ∀ moment, began = some moment → moment < run.challenge

/-- What a call knows is so. -/
structure SessionTask.Holds (config : SessionConfig) (w : SessionWorld) (i : Nat)
    (φ : SessionTask) : Prop where
  began : ∀ moment, w.began i = some moment → moment < w.moment
  challenged : φ.challenged = true → ∀ moment, w.began i = some moment → moment < w.challenges i
  verified : ∀ v, φ.verified = some v →
    ∃ run, w.verified i = some run ∧ run.Is v ∧ run.Serves w.runs (w.began i)
  hand : i ∉ w.dropped → ∀ session policy, φ.hand = some (session, policy) →
    ∃ run, (i, run) ∈ w.inHand ∧ run.Serves w.runs (w.began i) ∧ run.model = session.model ∧
      run.policy = policy ∧ run.Backs config session.material

/-- A call that begins knows nothing. -/
theorem SessionTask.holds_start {w : SessionWorld} {i : Nat}
    (hbegan : ∀ moment, w.began i = some moment → moment < w.moment) :
    SessionTask.Holds config w i {} :=
  ⟨hbegan, fun hc => (by cases hc), fun _ hv => (by cases hv), fun _ _ _ hhand => (by cases hhand)⟩

/-- An entry of the cache has the material of its run, and no later expiry. -/
structure CachedMaterial.Holds (config : SessionConfig) (runs : List VerifyRun)
    (cached : CachedMaterial) : Prop where
  mem : cached.run ∈ runs
  model : cached.run.model = cached.model
  policy : cached.run.policy = cached.policy
  backs : cached.run.Backs config cached.material
  expires : cached.expiresAtUnixSeconds ≤ cached.run.limit config

/-- What all calls know is so, and what they have in hand has not expired. -/
structure SessionWorld.Holds (config : SessionConfig) (w : SessionWorld) (φ : Nat → SessionTask) :
    Prop where
  tasks : ∀ i, (φ i).Holds config w i
  runs : ∀ run ∈ w.runs, run.Succeeded config
  cache : ∀ id cached, w.cache id = some cached → cached.Holds config w.runs
  inHand : ∀ hand ∈ w.inHand, w.clock < hand.2.limit config
  returned : ∀ s ∈ w.returned, s.Fresh config w.runs

namespace SessionWorld.Holds

variable {w w' : SessionWorld} {φ : Nat → SessionTask} {i : Nat} {ψ : SessionTask}

/-- The calls other than one know what they knew. -/
theorem update (hothers : ∀ j, j ≠ i → (φ j).Holds config w' j)
    (hi : ψ.Holds config w' i) (hruns : ∀ run ∈ w'.runs, run.Succeeded config)
    (hcache : ∀ id cached, w'.cache id = some cached → cached.Holds config w'.runs)
    (hinHand : ∀ hand ∈ w'.inHand, w'.clock < hand.2.limit config)
    (hreturned : ∀ s ∈ w'.returned, s.Fresh config w'.runs) :
    w'.Holds config (Function.update φ i ψ) := by
  refine ⟨fun j => ?_, hruns, hcache, hinHand, hreturned⟩
  by_cases hj : j = i
  · subst hj
    rwa [Function.update_self]
  · rw [Function.update_of_ne hj]
    exact hothers j hj

/-- What a call is about to return stays in hand where others take something up. -/
theorem takes (h : w.Holds config φ) {hand : Nat × VerifyRun}
    {cache : String → Option CachedMaterial} (j : Nat) : (φ j).Holds config
      ({ w with cache, inHand := hand :: w.inHand } : SessionWorld) j := by
  obtain ⟨hbegan, hchallenged, hverified, hhand⟩ := h.tasks j
  refine ⟨hbegan, hchallenged, hverified, fun hdropped session policy hsome => ?_⟩
  obtain ⟨run, hmem, hrun⟩ := hhand hdropped session policy hsome
  exact ⟨run, List.mem_cons_of_mem _ hmem, hrun⟩

theorem get {model : CatalogModelInfo} {policy : TrustPolicy} {now : Nat} {cached : CachedMaterial}
    (h : w.Holds config φ) (hhit : w.hit model policy now = some cached)
    (hclock : w.clock < cached.expiresAtUnixSeconds)
    (hlater : ∀ moment, w.began i = some moment → moment < cached.run.challenge) :
    ({ w with inHand := (i, cached.run) :: w.inHand } : SessionWorld).Holds config
      (Function.update φ i { φ i with hand := some (⟨cached.material, model⟩, policy) }) := by
  obtain ⟨hcached, hmatch⟩ := Option.filter_eq_some_iff.mp hhit
  simp only [decide_eq_true_eq] at hmatch
  obtain ⟨-, hmodel, hpolicy⟩ := hmatch
  have hentry := h.cache _ _ hcached
  refine update (fun j _ => h.takes j) ?_ h.runs h.cache ?_ h.returned
  · obtain ⟨hbegan, hchallenged, hverified, -⟩ := h.tasks i
    refine ⟨hbegan, hchallenged, hverified, ?_⟩
    rintro - session _ ⟨⟩
    exact ⟨cached.run, List.mem_cons_self, ⟨hentry.mem, hlater⟩, hentry.model.trans hmodel,
      hentry.policy.trans hpolicy, hentry.backs⟩
  · intro hand hmem
    rcases List.mem_cons.mp hmem with rfl | hmem
    · exact Nat.lt_of_lt_of_le hclock hentry.expires
    · exact h.inHand hand hmem

theorem challenge (h : w.Holds config φ) :
    ({ w with
      challenges := Function.update w.challenges i w.moment
      moment := w.moment + 1 } : SessionWorld).Holds config
        (Function.update φ i { φ i with challenged := true }) := by
  refine update (fun j hj => ?_) ?_ h.runs h.cache h.inHand h.returned
  · obtain ⟨hbegan, hchallenged, hverified, hhand⟩ := h.tasks j
    refine ⟨fun moment hm => Nat.lt_succ_of_lt (hbegan moment hm), fun hc moment hm => ?_,
      hverified, hhand⟩
    show moment < Function.update w.challenges i w.moment j
    rw [Function.update_of_ne hj]
    exact hchallenged hc moment hm
  · obtain ⟨hbegan, -, hverified, hhand⟩ := h.tasks i
    refine ⟨fun moment hm => Nat.lt_succ_of_lt (hbegan moment hm), fun _ moment hm => ?_, hverified,
      hhand⟩
    show moment < Function.update w.challenges i w.moment i
    rw [Function.update_self]
    exact hbegan moment hm

theorem verifyModel {model : CatalogModelInfo} {policy : TrustPolicy} {env : Environment}
    {result : Except SecureClientError (VerifiedNearAttestation × ProviderKeyLease × String)}
    {run : Option VerifyRun} (h : w.Holds config φ) (hchallenged : (φ i).challenged = true)
    (hresult : Near.Attestation.verifyModel env config.limits model.attested policy = result)
    (hrun : run = result.toOption.map fun (verified, lease, workerSessionId) =>
      ⟨model, policy, verified, lease, workerSessionId, w.challenges i⟩) :
    ({ w with
      runs := run.toList ++ w.runs
      verified := Function.update w.verified i run } : SessionWorld).Holds config
        (Function.update φ i
          ((establishing config).next (.verifyModel model policy) (φ i) result)) := by
  have hmem {run' : VerifyRun} (h : run' ∈ w.runs) : run' ∈ run.toList ++ w.runs :=
    List.mem_append_right _ h
  have hserves {run' : VerifyRun} {began : Option Nat} (h : run'.Serves w.runs began) :
      run'.Serves (run.toList ++ w.runs) began := ⟨hmem h.mem, h.later⟩
  refine update (fun j hj => ?_) ?_ ?_ (fun id cached hcached => ?_) h.inHand fun s hs => ?_
  · obtain ⟨hbegan, hc, hverified, hhand⟩ := h.tasks j
    refine ⟨hbegan, hc, fun v hv => ?_, fun hdropped session policy hsome => ?_⟩
    · obtain ⟨run', hrun', his, h'⟩ := hverified v hv
      exact ⟨run', (Function.update_of_ne hj _ _).trans hrun', his, hserves h'⟩
    · obtain ⟨run', hhand', h', hbacks⟩ := hhand hdropped session policy hsome
      exact ⟨run', hhand', hserves h', hbacks⟩
  · obtain ⟨hbegan, hc, -, hhand⟩ := h.tasks i
    have hhand : i ∉ w.dropped → ∀ session policy, (φ i).hand = some (session, policy) →
        ∃ run', (i, run') ∈ w.inHand ∧ run'.Serves (run.toList ++ w.runs) (w.began i) ∧
          run'.model = session.model ∧ run'.policy = policy ∧
            run'.Backs config session.material := by
      intro hdropped session policy hsome
      obtain ⟨run', hhand', h', hbacks⟩ := hhand hdropped session policy hsome
      exact ⟨run', hhand', hserves h', hbacks⟩
    rcases result with error | ⟨verified, lease, workerSessionId⟩
    · exact ⟨hbegan, hc, fun _ hv => (by cases hv), hhand⟩
    · refine ⟨hbegan, hc, fun v hv => ?_, hhand⟩
      cases Option.some.inj hv
      subst hrun
      exact ⟨_, Function.update_self _ _ _, ⟨rfl, rfl, rfl, rfl, rfl⟩, List.mem_cons_self,
        hc hchallenged⟩
  · intro run' hrun'
    rcases List.mem_append.mp hrun' with hrun' | hrun'
    · rw [Option.mem_toList, hrun] at hrun'
      obtain ⟨⟨verified, lease, workerSessionId⟩, hok, rfl⟩ := Option.map_eq_some_iff.mp hrun'
      cases result with
      | error error => cases hok
      | ok answer =>
        cases Option.some.inj hok
        exact ⟨env, hresult⟩
    · exact h.runs run' hrun'
  · obtain ⟨hcmem, hmodel, hpolicy, hbacks, hexpires⟩ := h.cache id cached hcached
    exact ⟨hmem hcmem, hmodel, hpolicy, hbacks, hexpires⟩
  · obtain ⟨run', hrun', hfresh⟩ := h.returned s hs
    exact ⟨run', hmem hrun', hfresh⟩

theorem insert {model : CatalogModelInfo} {policy : TrustPolicy} {material : NearVerifiedMaterial}
    {expires : Nat} {run : VerifyRun} (h : w.Holds config φ)
    (hrequires : (establishing config).requires (.insert model policy material expires) (φ i))
    (hrun : w.verified i = some run) (hclock : w.clock < run.limit config) :
    ({ w with
      cache := Function.update w.cache model.id (some ⟨model, policy, expires, material, run⟩)
      inHand := (i, run) :: w.inHand } : SessionWorld).Holds config
        (Function.update φ i { φ i with hand := some (⟨material, model⟩, policy) }) := by
  obtain ⟨v, binding, hv, rfl, rfl, hhard, rfl, hexpires⟩ := hrequires
  obtain ⟨hbegan, hc, hverified, -⟩ := h.tasks i
  obtain ⟨run', hrun', ⟨hmodel, hpolicy, hattestation, hlease, hworker⟩, hserves⟩ := hverified v hv
  rw [hrun] at hrun'
  cases hrun'
  have hbacks : run.Backs config
      (materialOf config v.verified binding v.policy v.workerSessionId) := by
    refine ⟨binding, hhard.trans (by rw [hlease]), ?_⟩
    rw [hattestation, hpolicy, hworker]
  refine update (fun j _ => h.takes j) ?_ h.runs (fun id cached hcached => ?_) ?_ h.returned
  · refine ⟨hbegan, hc, hverified, ?_⟩
    rintro - session _ ⟨⟩
    exact ⟨run, List.mem_cons_self, hserves, hmodel, hpolicy, hbacks⟩
  · by_cases hid : id = v.model.id
    · subst hid
      cases Option.some.inj ((Function.update_self v.model.id _ w.cache).symm.trans hcached)
      refine ⟨hserves.mem, hmodel, hpolicy, hbacks, ?_⟩
      rw [VerifyRun.limit, hlease, hpolicy, hattestation]
      exact hexpires
    · exact h.cache id cached ((Function.update_of_ne hid _ _).symm.trans hcached)
  · intro hand hmem
    rcases List.mem_cons.mp hmem with rfl | hmem
    · exact hclock
    · exact h.inHand hand hmem

/-- **A session is returned** in time. -/
theorem report {session : NearVerifiedSession} {policy : TrustPolicy} (h : w.Holds config φ)
    (hdropped : i ∉ w.dropped) (hhand : (φ i).hand = some (session, policy)) :
    ({ w with
      returned := ⟨session, policy, w.clock, w.began i⟩ :: w.returned
      inHand := w.inHand.filter (·.1 ≠ i) } : SessionWorld).Holds config
        (Function.update φ i { φ i with hand := none }) := by
  have hinHand : ∀ hand ∈ w.inHand.filter (·.1 ≠ i), w.clock < hand.2.limit config :=
    fun hand hmem => h.inHand hand (List.mem_filter.mp hmem).1
  refine update (fun j hj => ?_) ?_ h.runs h.cache hinHand fun s hs => ?_
  · obtain ⟨hbegan, hc, hverified, hhand⟩ := h.tasks j
    refine ⟨hbegan, hc, hverified, fun hdropped session policy hsome => ?_⟩
    obtain ⟨run, hmem, hrun⟩ := hhand hdropped session policy hsome
    exact ⟨run, List.mem_filter.mpr ⟨hmem, by simpa using hj⟩, hrun⟩
  · obtain ⟨hbegan, hc, hverified, -⟩ := h.tasks i
    exact ⟨hbegan, hc, hverified, fun _ _ _ hnone => by cases hnone⟩
  · rcases List.mem_cons.mp hs with rfl | hs
    · obtain ⟨run, hmem, hserves, hmodel, hpolicy, hbacks⟩ :=
        (h.tasks i).hand hdropped session policy hhand
      exact ⟨run, hserves.mem, h.runs run hserves.mem, hmodel, hpolicy, hbacks, h.inHand _ hmem,
        hserves.later⟩
    · exact h.returned s hs

end SessionWorld.Holds

/-- What the calls know does not depend on the locks. -/
theorem SessionWorld.Holds.locks {w : SessionWorld} {φ : Nat → SessionTask} (h : w.Holds config φ)
    (locks : String → Option Nat) : ({ w with locks } : SessionWorld).Holds config φ :=
  ⟨fun i => ⟨(h.tasks i).began, (h.tasks i).challenged, (h.tasks i).verified, (h.tasks i).hand⟩,
    h.runs, h.cache, h.inHand, h.returned⟩

/-- An entry that is dropped is missed by no call. -/
theorem SessionWorld.Holds.remove {w : SessionWorld} {φ : Nat → SessionTask}
    (h : w.Holds config φ) (modelId : String) :
    ({ w with cache := Function.update w.cache modelId none } : SessionWorld).Holds config φ := by
  refine ⟨fun i => ?_, h.runs, fun id cached hcached => ?_, h.inHand, h.returned⟩
  · exact ⟨(h.tasks i).began, (h.tasks i).challenged, (h.tasks i).verified, (h.tasks i).hand⟩
  · by_cases hid : id = modelId
    · subst hid
      cases (Function.update_self id none w.cache).symm.trans hcached
    · exact h.cache id cached ((Function.update_of_ne hid _ _).symm.trans hcached)

/-- An effect of a call keeps what all calls know. -/
theorem SessionWorld.Holds.exec {w w' : SessionWorld} {φ : Nat → SessionTask} {i : Nat}
    {e : SessionEffect} {choice : SessionChoice} {r : e.Answer} (h : w.Holds config φ)
    (hdropped : i ∉ w.dropped) (hrequires : (establishing config).requires e (φ i))
    (hget : ∀ model policy now cached, e = .get model policy now →
      w.hit model policy now = some cached → w.clock < cached.expiresAtUnixSeconds ∧
        ∀ moment, w.began i = some moment → moment < cached.run.challenge)
    (hinsert : ∀ model policy material expires run, e = .insert model policy material expires →
      w.verified i = some run → w.clock < run.limit config)
    (hexec : sessionExec config w i e choice = some (w', r)) :
    w'.Holds config (Function.update φ i ((establishing config).next e (φ i) r)) := by
  have hsame : w.Holds config (Function.update φ i (φ i)) := by rwa [Function.update_eq_self]
  unfold sessionExec at hexec
  split at hexec
  case h_2 model policy now =>
    split at hexec
    · next cached hhit =>
      cases hexec
      obtain ⟨hclock, hlater⟩ := hget model policy now cached rfl hhit
      exact h.get hhit hclock hlater
    · cases hexec
      exact hsame
  case h_3 =>
    split at hexec
    · cases hexec
    · cases hexec
      exact hsame.locks _
  case h_5 =>
    cases hexec
    exact hsame.locks _
  case h_6 =>
    cases hexec
    exact h.challenge
  case h_7 =>
    cases hexec
    exact h.verifyModel hrequires rfl rfl
  case h_8 model policy material expires =>
    obtain ⟨run, hrun, hsome⟩ := Option.map_eq_some_iff.mp hexec
    cases hsome
    exact h.insert hrequires hrun (hinsert model policy material expires run rfl hrun)
  case h_9 =>
    cases hexec
    exact hsame.remove _
  case h_12 =>
    cases hexec
    exact h.report hdropped hrequires
  case h_13 => cases hexec
  all_goals
    cases hexec
    exact hsame

/-- **What the calls know stays so**, in the runs that are not hurried. -/
theorem establishing_sound :
    TaskSystem.Sound (sessionSystem config) (establishing config) (SessionWorld.Holds config) {}
      (fun _ => True) (fun pool step => Unhurried config pool step = true) := by
  constructor
  case exec =>
    intro pool φ i e k choice w r h hi hC hrequires hexec
    have hdropped : i ∉ pool.shared.dropped := fun hmem => by simp [sessionSystem, hmem] at hexec
    have hexec : sessionExec config pool.shared i e choice = some (w, r) := by
      simpa [sessionSystem, hdropped] using hexec
    refine ⟨trivial, h.exec hdropped hrequires ?_ ?_ hexec⟩
    · rintro model policy now cached rfl hhit
      cases choice with
      | go => simpa [Unhurried, hi, hhit, Option.all_eq_true] using hC
      | _ => cases hexec
    · rintro model policy material expires run rfl hrun
      cases choice with
      | go => simpa [Unhurried, hi, hrun] using hC
      | _ => cases hexec
  case event =>
    intro pool φ event w h hC hevent
    cases event with
    | clock now =>
      cases hevent
      have hC : ∀ hand ∈ pool.shared.inHand, now < hand.2.limit config := by
        simpa [Unhurried] using hC
      exact ⟨fun i => ⟨(h.tasks i).began, (h.tasks i).challenged, (h.tasks i).verified,
        (h.tasks i).hand⟩, h.runs, h.cache, hC, h.returned⟩
    | dropped i =>
      cases hevent
      refine ⟨fun j => ?_, h.runs, h.cache, fun hand hmem => ?_, h.returned⟩
      · obtain ⟨hbegan, hc, hverified, hhand⟩ := h.tasks j
        refine ⟨hbegan, hc, hverified, fun hdropped session policy hsome => ?_⟩
        obtain ⟨hj, hdropped⟩ := not_or.mp (mt List.mem_cons.mpr hdropped)
        obtain ⟨run, hmem, hrun⟩ := hhand hdropped session policy hsome
        exact ⟨run, List.mem_filter.mpr ⟨hmem, by simpa using hj⟩, hrun⟩
      · exact h.inHand hand (List.mem_filter.mp hmem).1
  case start =>
    rintro pool φ operation w p h hφ - ⟨⟩
    refine ⟨SessionTask.call_keeps operation, fun j => ?_, h.runs, h.cache, h.inHand,
      h.returned⟩
    by_cases hj : j = pool.next
    · subst hj
      rw [hφ]
      refine SessionTask.holds_start fun moment hm => ?_
      have hm := (Function.update_self pool.next _ pool.shared.began).symm.trans hm
      cases operation with
      | verifySecurity modelId =>
        cases hm
        exact Nat.lt_succ_self _
      | _ => cases hm
    · have hsame := Function.update_of_ne hj (operation.began pool.shared.moment) pool.shared.began
      obtain ⟨hbegan, hc, hverified, hhand⟩ := h.tasks j
      rw [← hsame] at hbegan hc hverified hhand
      exact ⟨fun moment hm => Nat.lt_succ_of_lt (hbegan moment hm), hc, hverified, hhand⟩

/-- The state a run of the calls reaches. -/
def sessionRun (config : SessionConfig) (steps : List SessionsStep) : SessionWorld :=
  ((sessionSystem config).machine.run { shared := {} } steps).1.shared

def sessionConfig : SessionConfig := { sha256 := attestedSha256 }

def sessionModel : CatalogModelInfo where
  id := "model"
  contextWindowTokens := 8192
  maxOutputTokens := 1024
  label := "Model"
  shortLabel := "Model"
  providerId := Near.PROVIDER_ID
  providerLabel := "NEAR"
  upstreamModel := "upstream"
  providerBaseUrl := "https://worker"
  e2eeProtocol := Near.E2EE_PROTOCOL
  e2eeEncryptionVersion := ENCRYPTION_VERSION
  attestationProtocol := ATTESTATION_PROTOCOL
  inputPriceMicrousdPerMillionTokens := none
  outputPriceMicrousdPerMillionTokens := none
  supportedReasoningEfforts := []
  reasoningReplay := false
  supportsParallelTools := false
  fileMimeTypes := []
  reasoningParameters := []
  thinkingParameters := []

def sessionPolicy : TrustPolicy := { attestedPolicy with expiresAtUnixSeconds := 5000 }

/-- A worker whose lease holds until 5000. -/
def sessionEnvironment : Environment :=
  { attestedEnvironment with
    leaseFromValue := fun _ => some
      { attestedLease with
        modelKeyFingerprint := Text.hexEncode (attestedSha256 attestedKey.val)
        responseSigningAddress := some attestedKey.toHex
        responseSigningKeyFingerprint := some (Text.hexEncode (attestedSha256 attestedKey.val))
        hardExpiresAtUnixSeconds := 5000 } }

/-- What a call of `verify_security` does up to its first lookup, which misses. -/
def securityAsked (task : Nat) : List SessionsStep :=
  [.run task (.models (.ok [sessionModel])), .run task (.policy (.ok sessionPolicy)),
    .run task .go, .run task .go, .run task .go]

/-- A second verification has asked behind the challenge of the first, and before its insertion. -/
def asked : List SessionsStep :=
  [.start (.verifySecurity "model")] ++ securityAsked 0 ++
    [.run 0 .go, .run 0 .go, .run 0 .go, .run 0 .go, .start (.verifySecurity "model")] ++
    securityAsked 1 ++ [.run 0 (.attested sessionEnvironment), .run 0 .go, .run 0 .go,
      .run 0 .go, .run 0 .go]

/-- The first returns its session. -/
def answered : List SessionsStep := asked ++ [.run 0 .go]

/-- The second returns what it finds, and the first its session when that has expired. -/
def answeredLate : List SessionsStep :=
  asked ++ [.run 1 .go, .run 1 .go, .run 1 .go, .run 1 .go, .run 1 .go, .event (.clock 1000),
    .run 0 .go]

/-- The attestation of a call has an answer. -/
def attestedPool (pool : SessionsPool) (task : Nat)
    (result : Except SecureClientError (VerifiedNearAttestation × ProviderKeyLease × String)) :
    SessionsPool :=
  match pool.tasks task with
  | some (.ask (.verifyModel model policy) k) =>
    let run := result.toOption.map fun (verified, lease, workerSessionId) =>
      ⟨model, policy, verified, lease, workerSessionId, pool.shared.challenges task⟩
    { pool with
      shared := { pool.shared with
        runs := run.toList ++ pool.shared.runs
        verified := Function.update pool.shared.verified task run }
      tasks := Function.update pool.tasks task (some (k result)) }
  | _ => pool

/-- A call waits for an attestation. -/
def asksFor (pool : SessionsPool) (task : Nat) (model : CatalogModelInfo) (policy : TrustPolicy) :
    Bool :=
  match pool.tasks task with
  | some (.ask (.verifyModel asked under) _) => asked = model && under = policy
  | _ => false

theorem step_attested {pool : SessionsPool} {task : Nat} {env : Environment}
    {model : CatalogModelInfo} {policy : TrustPolicy}
    {result : Except SecureClientError (VerifiedNearAttestation × ProviderKeyLease × String)}
    (hasks : asksFor pool task model policy = true) (hdropped : task ∉ pool.shared.dropped)
    (hresult : verifyModel (pool.shared.environment config env) config.limits model.attested policy =
      result) :
    (sessionSystem config).step pool (.run task (.attested env)) = attestedPool pool task result := by
  unfold asksFor at hasks
  split at hasks
  · next asked under k htask =>
    obtain ⟨hasked, hunder⟩ := Bool.and_eq_true_iff.mp hasks
    cases of_decide_eq_true hasked
    cases of_decide_eq_true hunder
    simp only [TaskSystem.step, htask, sessionSystem, if_neg hdropped, sessionExec, hresult,
      attestedPool]
  · cases hasks

/-- Up to the answer of the worker. -/
def beforeAnswer : List SessionsStep :=
  [.start (.verifySecurity "model")] ++ securityAsked 0 ++
    [.run 0 .go, .run 0 .go, .run 0 .go, .run 0 .go, .start (.verifySecurity "model")] ++
    securityAsked 1

/-- The pool that the answer of the worker leaves. -/
def answeredPool : SessionsPool :=
  attestedPool ((sessionSystem sessionConfig).machine.run { shared := {} } beforeAnswer).1 0
    (.ok (workerAttestation,
      { attestedLease with
        modelKeyFingerprint := Text.hexEncode (attestedSha256 attestedKey.val)
        responseSigningAddress := some attestedKey.toHex
        responseSigningKeyFingerprint := some (Text.hexEncode (attestedSha256 attestedKey.val))
        hardExpiresAtUnixSeconds := 5000 }, "0123456789abcdef0123456789abcdef"))

theorem step_answered : (sessionSystem sessionConfig).step
    ((sessionSystem sessionConfig).machine.run { shared := {} } beforeAnswer).1
      (.run 0 (.attested sessionEnvironment)) = answeredPool := by
  have hasks : asksFor ((sessionSystem sessionConfig).machine.run { shared := {} } beforeAnswer).1 0
      sessionModel sessionPolicy = true ∧
    0 ∉ ((sessionSystem sessionConfig).machine.run { shared := {} } beforeAnswer).1.shared.dropped ∧
    ((sessionSystem sessionConfig).machine.run { shared := {} } beforeAnswer).1.shared.clock = 0 := by
    decide +kernel
  obtain ⟨hasks, hdropped, hclock⟩ := hasks
  refine step_attested hasks hdropped ?_
  rw [SessionWorld.environment, hclock]
  exact verifyModel_worker _ 5000

theorem sessionRun_answered (after : List SessionsStep) :
    sessionRun sessionConfig
        (beforeAnswer ++ .run 0 (.attested sessionEnvironment) :: after) =
      ((sessionSystem sessionConfig).machine.run answeredPool after).1.shared := by
  rw [sessionRun, Machine.run_append, Machine.run_cons, ← step_answered]
  rfl

theorem sessionRun_asked :
    (sessionSystem sessionConfig).machine.Meets
        (fun pool step => Unhurried sessionConfig pool step = true) { shared := {} } answered ∧
      (sessionRun sessionConfig answered).returned.map (·.began) = [some 0] ∧
      (sessionRun sessionConfig answeredLate).returned.map
        (fun s => (s.began, s.returnedAt)) = [(some 0, 1000), (some 2, 0)] ∧
      (sessionRun sessionConfig answeredLate).runs.map
        (fun run => (run.challenge, run.limit sessionConfig)) = [(1, 240)] := by
  have hanswered : answered = beforeAnswer ++ .run 0 (.attested sessionEnvironment) ::
      [.run 0 .go, .run 0 .go, .run 0 .go, .run 0 .go, .run 0 .go] := rfl
  have hlate : answeredLate = beforeAnswer ++ .run 0 (.attested sessionEnvironment) ::
      [.run 0 .go, .run 0 .go, .run 0 .go, .run 0 .go, .run 1 .go, .run 1 .go, .run 1 .go,
        .run 1 .go, .run 1 .go, .event (.clock 1000), .run 0 .go] := rfl
  have hstep : ((sessionSystem sessionConfig).machine.step
      ((sessionSystem sessionConfig).machine.run { shared := {} } beforeAnswer).1
        (.run 0 (.attested sessionEnvironment))).1 = answeredPool := step_answered
  rw [hanswered, hlate, sessionRun_answered, sessionRun_answered, Machine.meets_append,
    Machine.meets_cons, hstep]
  decide +kernel

end AxiomDesktop
