import AxiomDesktop.SecureClient.Catalog
import Mathlib.Data.List.Forall2

/-!
# Installed offerings and the last accepted catalog

Two clients that differ in the installed offerings go through the same calls in step. Where the
client without offerings returns a list, the other one returns it with the offerings that are not in
it, except where that list is the one that is kept for an outage: there the other client returns its
offerings alone (`Agrees`).

A call that fails for a while is answered with the list of the last call that was accepted, if there
was no other failure since (`Remembers`). That list is the one of the call that started last, among
those that have an outcome, in the runs whose calls bring their lists in the order in which they
started, `offerings_only_add`.
-/

/-!
## The catalog of a client

`models` (`SecureClient::models`): the catalog of the relay, with the offerings that are installed
on this machine, and the last catalog that was accepted for the time that the relay is out of reach
(`acceptCatalog`). Any number of calls of one client run at a time. What the relay answers, and what
the clock says, is chosen by the environment.
-/

namespace AxiomDesktop

/-! ### Installed offerings -/

structure OfferingPrice where
  inputMicrousdPerMillion : Nat
  outputMicrousdPerMillion : Nat

structure PoolOffering where
  modelManifest : String
  label : String
  contextTokens : Nat
  outputTokens : Nat
  attestationProtocol : String := "tinfoil-gpu-v3"
  pricing : Option OfferingPrice := none

/-- The installation of the direct provider, by what its offering reads of it. -/
structure DirectInstallation where
  modelManifest : String
  origin : String
  tools : Bool
  vision : Bool
  /-- The price of the account, if there is one. -/
  chatPrice : Option OfferingPrice

/-- The fields of `SecureClientConfig` that the catalog reads. -/
structure OfferingConfig where
  relayBaseUrl : String
  pool : Option (List PoolOffering) := none
  direct : Option DirectInstallation := none
  catalogMaxStale : Nat

namespace Pool

/-- `pool::models`. -/
def models (config : OfferingConfig) : List CatalogModelInfo :=
  (config.pool.getD []).map fun offering =>
    { id := "pool:" ++ offering.modelManifest
      label := offering.label
      shortLabel := offering.label
      providerId := "axiom-pool"
      providerLabel := "Axiom confidential pool"
      upstreamModel := offering.modelManifest
      providerBaseUrl :=
        String.ofList (Text.dropWhileEnd (· = '/') config.relayBaseUrl.toList)
      e2eeProtocol := "axiom-pool-e2ee-v1"
      e2eeEncryptionVersion := 1
      attestationProtocol := offering.attestationProtocol
      contextWindowTokens := offering.contextTokens
      maxOutputTokens := offering.outputTokens
      inputPriceMicrousdPerMillionTokens := offering.pricing.map (·.inputMicrousdPerMillion)
      outputPriceMicrousdPerMillionTokens := offering.pricing.map (·.outputMicrousdPerMillion)
      supportedReasoningEfforts := [.low, .medium, .high]
      supportedThinkingModes := [.providerDefault, .enabled]
      reasoningReplay := false
      supportsTools := false
      supportsParallelTools := false
      supportsStreaming := true
      supportsImages := false
      fileMimeTypes := []
      reasoningParameters := []
      thinkingParameters := [] }

end Pool

namespace Direct

/-- `direct::models`. -/
def models (config : OfferingConfig) : List CatalogModelInfo :=
  match config.direct with
  | none => []
  | some direct =>
    [{ id := "direct:qwen3.8-27b"
       label := "Qwen3.8 Uncensored · AstreaAI"
       shortLabel := "Qwen3.8 Uncensored"
       providerId := "axiom-direct"
       providerLabel := "AstreaAI"
       upstreamModel := direct.modelManifest
       providerBaseUrl := direct.origin
       e2eeProtocol := "axiom-pool-e2ee-v1"
       e2eeEncryptionVersion := 1
       attestationProtocol := "axiom-snp-nvidia-v1"
       contextWindowTokens := 32768
       maxOutputTokens := 4096
       inputPriceMicrousdPerMillionTokens := direct.chatPrice.map (·.inputMicrousdPerMillion)
       outputPriceMicrousdPerMillionTokens := direct.chatPrice.map (·.outputMicrousdPerMillion)
       supportedReasoningEfforts := [.medium]
       supportedThinkingModes :=
         [.providerDefault, .enabled] ++ if direct.tools then [.disabled] else []
       reasoningReplay := false
       supportsTools := direct.tools
       supportsParallelTools := false
       supportsStreaming := true
       supportsImages := direct.vision
       fileMimeTypes := []
       reasoningParameters := []
       thinkingParameters := [] }]

end Direct

/-- `configured_pool`. -/
def OfferingConfig.offerings (config : OfferingConfig) : List CatalogModelInfo :=
  Pool.models config ++ Direct.models config

/-! ### A call of `models` -/

/-- The outcome of a request for the catalog. -/
abbrev CatalogOutcome := Except SecureClientError (List CatalogModelInfo)

inductive CatalogEffect where
  /-- `fetch_models`. -/
  | fetch
  /-- `accept_catalog`, whose answer `models` returns. -/
  | accept (result : CatalogOutcome)

@[reducible] def CatalogEffect.Answer : CatalogEffect → Type
  | fetch => CatalogOutcome
  | accept _ => CatalogOutcome

/-- A program over the catalog of a client. -/
abbrev CatalogProg (α : Type) : Type := Prog CatalogEffect CatalogEffect.Answer α

/-- The loop that adds the offerings to a list. -/
def addOfferings (models : List CatalogModelInfo) : List CatalogModelInfo → List CatalogModelInfo
  | [] => models
  | model :: rest =>
    if models.any (·.id = model.id) then addOfferings models rest
    else addOfferings (models ++ [model]) rest

/-- What a fetch comes to with the offerings. -/
def withOfferings (offerings : List CatalogModelInfo) : CatalogOutcome → CatalogOutcome
  | .ok models => .ok (addOfferings models offerings)
  | .error error =>
    if ¬ offerings.isEmpty ∧ error.kind ≠ .cancelled then .ok offerings else .error error

namespace SecureClient

/-- `models`. -/
def models (config : OfferingConfig) : CatalogProg CatalogOutcome := do
  let result ← Prog.effect CatalogEffect.fetch
  Prog.effect (CatalogEffect.accept (withOfferings config.offerings result))

end SecureClient

/-! ### The catalog that is kept -/

/-- The catalog that is kept, with the call whose list it is. -/
structure CachedCatalog where
  fetchedAt : Nat
  models : List CatalogModelInfo
  source : Nat

/-- A call whose outcome is accepted: what it fetched, what it made of that, when, and what it
returns. -/
structure CatalogCall where
  task : Nat
  fetched : CatalogOutcome
  result : CatalogOutcome
  instant : Nat
  answer : CatalogOutcome

structure CatalogWorld where
  cache : Option CachedCatalog := none
  /-- What a call has fetched. -/
  fetched : Nat → Option CatalogOutcome := fun _ => none
  /-- The calls whose outcome is accepted, the last one first. -/
  calls : List CatalogCall := []

/-- What the environment chooses in an effect. -/
inductive CatalogChoice where
  | fetched (outcome : CatalogOutcome)
  /-- A reading of the clock, which may be older than a lock that is waited for. -/
  | instant (instant : Nat)

/-- The locked section of `accept_catalog` for a call: the catalog that is kept, and the answer. -/
def acceptCatalog (catalogMaxStale : Nat) (cache : Option CachedCatalog) (task instant : Nat) :
    CatalogOutcome → Option CachedCatalog × CatalogOutcome
  | .ok models => (some ⟨instant, models, task⟩, .ok models)
  | .error error =>
    if error.kind ≠ .transient then (none, .error error)
    else
      match cache with
      | some cached =>
        if instant - cached.fetchedAt ≤ catalogMaxStale then (cache, .ok cached.models)
        else (cache, .error error)
      | none => (cache, .error error)

def catalogExec (catalogMaxStale : Nat) (w : CatalogWorld) (i : Nat) :
    (e : CatalogEffect) → CatalogChoice → Option (CatalogWorld × e.Answer)
  | .fetch, .fetched outcome =>
    some ({ w with fetched := Function.update w.fetched i (some outcome) }, outcome)
  | .accept result, .instant instant =>
    (w.fetched i).map fun fetched =>
      let (cache, answer) := acceptCatalog catalogMaxStale w.cache i instant result
      ({ w with cache, calls := ⟨i, fetched, result, instant, answer⟩ :: w.calls }, answer)
  | _, _ => none

/-- The calls of a client, and what happens to them. -/
abbrev CatalogPool : Type := AxiomDesktop.Pool CatalogWorld CatalogEffect CatalogEffect.Answer

abbrev CatalogStep : Type := PoolStep CatalogChoice Empty Unit

def catalogSystem (config : OfferingConfig) :
    TaskSystem CatalogWorld CatalogEffect CatalogEffect.Answer CatalogChoice Empty Unit where
  exec := catalogExec config.catalogMaxStale
  event _ := Empty.elim
  start w _ _ := some (w, do let _ ← SecureClient.models config)

end AxiomDesktop

namespace AxiomDesktop

/-! ## Adding offerings -/

/-- The offerings whose identifiers are not in a list, each identifier once. -/
def newOfferings (models offerings : List CatalogModelInfo) : List CatalogModelInfo :=
  (offerings.filter fun offering => !models.any (·.id = offering.id)).eraseDupsBy (·.id == ·.id)

theorem addOfferings_eq (models offerings : List CatalogModelInfo) :
    addOfferings models offerings = models ++ newOfferings models offerings := by
  induction offerings generalizing models with
  | nil => simp [addOfferings, newOfferings]
  | cons offering rest ih =>
    by_cases hany : models.any (·.id = offering.id) = true
    · rw [addOfferings, if_pos hany, ih]
      simp [newOfferings, hany]
    · rw [addOfferings, if_neg hany, ih, List.append_assoc]
      have hfilter : (rest.filter fun o => !(models ++ [offering]).any (·.id = o.id)) =
          (rest.filter fun o => !models.any (·.id = o.id)).filter
            fun o => (o.id == offering.id) = false := by
        rw [List.filter_filter]
        refine List.filter_congr fun o _ => ?_
        rw [List.any_append, Bool.not_or, Bool.and_comm]
        congr 1
        by_cases heq : o.id = offering.id
        · simp [heq]
        · simp [heq, Ne.symm heq]
      simp only [newOfferings, List.filter_cons, hany, hfilter]
      simp [List.eraseDupsBy_cons]

theorem newOfferings_nil (models : List CatalogModelInfo) : newOfferings models [] = [] := rfl

theorem withOfferings_nil (outcome : CatalogOutcome) : withOfferings [] outcome = outcome := by
  cases outcome <;> simp [withOfferings, addOfferings]

/-! ## Two clients in step -/

/-- The client without the offerings. -/
def OfferingConfig.bare (config : OfferingConfig) : OfferingConfig :=
  { config with pool := none, direct := none }

theorem offerings_bare (config : OfferingConfig) : config.bare.offerings = [] := rfl

/-- A call that has fetched. -/
def accepting (offerings : List CatalogModelInfo) (outcome : CatalogOutcome) : CatalogProg Unit :=
  .ask (.accept (withOfferings offerings outcome)) fun _ => .ret ()

/-- A call of both clients, in what it has still to do. -/
inductive Aligned (offerings : List CatalogModelInfo) (fetched : Option CatalogOutcome) :
    Option (CatalogProg Unit) → Option (CatalogProg Unit) → Prop where
  | absent : Aligned offerings fetched none none
  | fetching :
    Aligned offerings fetched (some (.ask .fetch (accepting [])))
      (some (.ask .fetch (accepting offerings)))
  | accepting (outcome : CatalogOutcome) (hfetched : fetched = some outcome) :
    Aligned offerings fetched (some (accepting [] outcome)) (some (accepting offerings outcome))
  | done : Aligned offerings fetched (some (.ret ())) (some (.ret ()))

/-- The answers of both clients to a call. -/
structure Agrees (offerings : List CatalogModelInfo) (bare full : CatalogCall) : Prop where
  task : bare.task = full.task
  fetched : bare.fetched = full.fetched
  listed : ∀ models, bare.fetched = .ok models →
    bare.answer = .ok models ∧ full.answer = .ok (addOfferings models offerings)
  /-- A call that is answered from the list that is kept. -/
  served : ∀ error models, bare.fetched = .error error → bare.answer = .ok models →
    full.answer = .ok (if offerings = [] then models else offerings)

/-- Both clients are where the same calls have led them. -/
structure Lockstep (offerings : List CatalogModelInfo)
    (bare full : CatalogPool) : Prop where
  next : bare.next = full.next
  fetched : bare.shared.fetched = full.shared.fetched
  tasks : ∀ i, Aligned offerings (full.shared.fetched i) (bare.tasks i) (full.tasks i)
  calls : List.Forall₂ (Agrees offerings) bare.shared.calls full.shared.calls
  cache : offerings = [] → bare.shared.cache = full.shared.cache

/-- The answers to a call whose outcome is accepted. -/
theorem Agrees.of_accept {offerings : List CatalogModelInfo} {stale task instant : Nat}
    {outcome : CatalogOutcome} {cache cache' : Option CachedCatalog}
    (hcache : offerings = [] → cache = cache') :
    Agrees offerings
      ⟨task, outcome, outcome, instant, (acceptCatalog stale cache task instant outcome).2⟩
      ⟨task, outcome, withOfferings offerings outcome, instant,
        (acceptCatalog stale cache' task instant (withOfferings offerings outcome)).2⟩ := by
  refine ⟨rfl, rfl, ?_, ?_⟩
  · rintro models rfl
    exact ⟨rfl, rfl⟩
  · rintro error models rfl hserved
    by_cases hnone : offerings = []
    · subst hnone
      rw [if_pos rfl, withOfferings_nil, ← hcache rfl]
      exact hserved
    · have htransient : error.kind = .transient := by
        by_contra hkind
        simp [acceptCatalog, hkind] at hserved
      have hfull : withOfferings offerings (.error error) = .ok offerings := by
        rw [withOfferings, if_pos ⟨by simpa using hnone, by simp [htransient]⟩]
      rw [if_neg hnone, hfull]
      rfl

namespace Lockstep

variable {config : OfferingConfig} {bare full : CatalogPool}

/-- Both clients go on with a call. -/
theorem aligned_update (h : Lockstep config.offerings bare full)
    {fetched : Nat → Option CatalogOutcome} {i : Nat} {b f : CatalogProg Unit}
    (hi : Aligned config.offerings (fetched i) (some b) (some f))
    (hfetched : ∀ j, j ≠ i → fetched j = full.shared.fetched j) (j : Nat) :
    Aligned config.offerings (fetched j) (Function.update bare.tasks i (some b) j)
      (Function.update full.tasks i (some f) j) := by
  by_cases hj : j = i
  · subst hj
    rwa [Function.update_self, Function.update_self]
  · rw [Function.update_of_ne hj, Function.update_of_ne hj, hfetched j hj]
    exact h.tasks j

/-- **A step of both clients.** -/
theorem step (h : Lockstep config.offerings bare full) (s : CatalogStep) :
    Lockstep config.offerings ((catalogSystem config.bare).step bare s)
      ((catalogSystem config).step full s) := by
  cases s with
  | event e => exact e.elim
  | start o =>
    refine ⟨congrArg (· + 1) h.next, h.fetched, fun i => ?_, h.calls, h.cache⟩
    show Aligned _ _ (Function.update bare.tasks bare.next _ i)
      (Function.update full.tasks full.next _ i)
    by_cases hi : i = full.next
    · subst hi
      rw [h.next, Function.update_self, Function.update_self]
      exact .fetching
    · rw [h.next, Function.update_of_ne hi, Function.update_of_ne hi]
      exact h.tasks i
  | run i choice =>
    have hi := h.tasks i
    simp only [TaskSystem.step]
    generalize hb : bare.tasks i = b at hi
    generalize hf : full.tasks i = f at hi
    cases hi with
    | absent => exact h
    | done => exact h
    | fetching =>
      cases choice with
      | instant instant => exact h
      | fetched outcome =>
        refine ⟨h.next, ?_, ?_, h.calls, h.cache⟩
        · exact congrArg (Function.update · i (some outcome)) h.fetched
        · refine h.aligned_update ?_ fun j hj => Function.update_of_ne hj _ _
          exact .accepting outcome (Function.update_self _ _ _)
    | accepting outcome hfetched =>
      cases choice with
      | fetched outcome => exact h
      | instant instant =>
        have hfetched' : bare.shared.fetched i = some outcome := by rw [h.fetched, hfetched]
        simp only [accepting, catalogSystem, catalogExec, hfetched, hfetched', Option.map_some,
          withOfferings_nil]
        refine ⟨h.next, h.fetched, h.aligned_update .done fun _ _ => rfl, ?_, fun hnone => ?_⟩
        · exact .cons (Agrees.of_accept h.cache) h.calls
        · rw [hnone, withOfferings_nil, h.cache hnone]
          rfl

/-- **A run of both clients.** -/
theorem run (h : Lockstep config.offerings bare full) (steps : List (CatalogStep)) :
    Lockstep config.offerings ((catalogSystem config.bare).machine.run bare steps).1
      ((catalogSystem config).machine.run full steps).1 := by
  induction steps generalizing bare full with
  | nil => exact h
  | cons s rest ih => exact ih (h.step s)

end Lockstep

/-- The state a run of a client reaches. -/
def catalogRun (config : OfferingConfig) (steps : List (CatalogStep)) :
    CatalogWorld :=
  ((catalogSystem config).machine.run { shared := {} } steps).1.shared

theorem agrees_run (config : OfferingConfig) (steps : List (CatalogStep)) :
    List.Forall₂ (Agrees config.offerings) (catalogRun config.bare steps).calls
      (catalogRun config steps).calls := by
  have hstart : Lockstep config.offerings ({ shared := {} } : CatalogPool)
      { shared := {} } := ⟨rfl, rfl, fun _ => .absent, .nil, fun _ => rfl⟩
  exact (hstart.run steps).calls

/-! ## The last accepted catalog -/

/-- A failure that may pass. -/
def CatalogCall.Transient (c : CatalogCall) : Prop :=
  ∃ error, c.result = .error error ∧ error.kind = .transient

/-- The call has an outcome: a list, or a failure for good. -/
def CatalogCall.Settles (c : CatalogCall) : Prop := ¬ c.Transient

/-- The list of the last call that has an outcome, unless that is a failure. -/
def lastAccepted : List CatalogCall → Option CachedCatalog
  | [] => none
  | call :: earlier =>
    match call.result with
    | .ok models => some ⟨call.instant, models, call.task⟩
    | .error error => if error.kind = .transient then lastAccepted earlier else none

theorem lastAccepted_of_transient {call : CatalogCall} {earlier : List CatalogCall}
    (h : call.Transient) : lastAccepted (call :: earlier) = lastAccepted earlier := by
  obtain ⟨error, hresult, hkind⟩ := h
  simp [lastAccepted, hresult, hkind]

theorem lastAccepted_eq_some {calls : List CatalogCall} {cached : CachedCatalog} :
    lastAccepted calls = some cached ↔ ∃ mid call earlier, calls = mid ++ call :: earlier ∧
      (∀ c ∈ mid, c.Transient) ∧ call.result = .ok cached.models ∧
        call.instant = cached.fetchedAt ∧ call.task = cached.source := by
  constructor
  · intro h
    induction calls with
    | nil => cases h
    | cons call earlier ih =>
      by_cases htransient : call.Transient
      · rw [lastAccepted_of_transient htransient] at h
        obtain ⟨mid, last, before, rfl, hmid, hlast⟩ := ih h
        exact ⟨call :: mid, last, before, rfl, List.forall_mem_cons.mpr ⟨htransient, hmid⟩, hlast⟩
      · unfold lastAccepted at h
        cases hresult : call.result with
        | error error =>
          have hkind : error.kind ≠ .transient := fun hkind => htransient ⟨error, hresult, hkind⟩
          simp [hresult, hkind] at h
        | ok models =>
          simp only [hresult, Option.some.injEq] at h
          subst h
          exact ⟨[], call, earlier, rfl, by simp, hresult, rfl, rfl⟩
  · rintro ⟨mid, call, earlier, rfl, hmid, hresult, hinstant, htask⟩
    induction mid with
    | nil => simp [lastAccepted, hresult, hinstant, htask]
    | cons c mid ih =>
      rw [List.forall_mem_cons] at hmid
      rw [List.cons_append, lastAccepted_of_transient hmid.1]
      exact ih hmid.2

/-- What a client keeps, and what it has answered. -/
structure Accepts (catalogMaxStale : Nat) (w : CatalogWorld) : Prop where
  cache : w.cache = lastAccepted w.calls
  answers : ∀ later call earlier, w.calls = later ++ call :: earlier →
    call.answer =
      (acceptCatalog catalogMaxStale (lastAccepted earlier) call.task call.instant call.result).2

theorem Accepts.exec {stale i : Nat} {w w' : CatalogWorld} {e : CatalogEffect}
    {choice : CatalogChoice} {r : e.Answer} (h : Accepts stale w)
    (hexec : catalogExec stale w i e choice = some (w', r)) : Accepts stale w' := by
  unfold catalogExec at hexec
  split at hexec
  · cases hexec
    exact ⟨h.cache, h.answers⟩
  · next result instant =>
    obtain ⟨fetched, -, hsome⟩ := Option.map_eq_some_iff.mp hexec
    cases hsome
    refine ⟨?_, fun later call earlier hcalls => ?_⟩
    · show (acceptCatalog stale w.cache i instant result).1 = lastAccepted (_ :: w.calls)
      rw [h.cache]
      cases result with
      | ok models => rfl
      | error error =>
        by_cases hkind : error.kind = .transient
        · rw [lastAccepted_of_transient ⟨error, rfl, hkind⟩]
          simp only [acceptCatalog, hkind, ne_eq, not_true_eq_false, if_false]
          split
          · split <;> simp_all
          · simp_all
        · simp [acceptCatalog, lastAccepted, hkind]
    · cases later with
      | nil =>
        cases hcalls
        rw [← h.cache]
        rfl
      | cons c later =>
        obtain ⟨-, hcalls⟩ := List.cons.inj hcalls
        exact h.answers later call earlier hcalls
  · cases hexec

/-- **The catalog that is kept** is the one that was accepted last, in every run. -/
theorem accepts_run (config : OfferingConfig) (steps : List (CatalogStep)) :
    Accepts config.catalogMaxStale (catalogRun config steps) := by
  refine (catalogSystem config).machine.run_invariant'
    (P := fun pool => Accepts config.catalogMaxStale pool.shared) ?_ ?_ steps
  · intro pool s h
    show Accepts _ ((catalogSystem config).step pool s).shared
    cases s with
    | event e => exact e.elim
    | start o => exact h
    | run i choice =>
      simp only [TaskSystem.step]
      split
      · split
        · next hexec => exact h.exec hexec
        · exact h
      · exact h
  · exact ⟨rfl, by simp⟩

/-- A call that fails for a while is answered with a list exactly if this is the one of the last
call that has an outcome, and not too old. -/
def Remembers (catalogMaxStale : Nat) (calls : List CatalogCall) : Prop :=
  ∀ later call earlier models, calls = later ++ call :: earlier → call.Transient →
    (call.answer = .ok models ↔ ∃ mid last before, earlier = mid ++ last :: before ∧
      (∀ c ∈ mid, c.Transient) ∧ last.result = .ok models ∧
        call.instant - last.instant ≤ catalogMaxStale)

theorem Accepts.remembers {stale : Nat} {w : CatalogWorld} (h : Accepts stale w) :
    Remembers stale w.calls := by
  rintro later call earlier models hcalls ⟨error, hresult, hkind⟩
  have hanswer : call.answer = .ok models ↔ ∃ cached, lastAccepted earlier = some cached ∧
      call.instant - cached.fetchedAt ≤ stale ∧ cached.models = models := by
    rw [h.answers later call earlier hcalls, hresult]
    simp only [acceptCatalog, hkind, ne_eq, not_true_eq_false, if_false]
    cases lastAccepted earlier with
    | none => simp
    | some cached =>
      by_cases hstale : call.instant - cached.fetchedAt ≤ stale
      · simp only [if_pos hstale, Except.ok.injEq, Option.some.injEq, exists_eq_left']
        exact ⟨fun hmodels => ⟨hstale, hmodels⟩, And.right⟩
      · simp only [hstale, if_false, reduceCtorEq, Option.some.injEq, exists_eq_left', false_and]
  rw [hanswer]
  constructor
  · rintro ⟨cached, hlast, hstale, rfl⟩
    obtain ⟨mid, last, before, hearlier, hmid, hresult, hinstant, -⟩ :=
      lastAccepted_eq_some.mp hlast
    exact ⟨mid, last, before, hearlier, hmid, hresult, hinstant ▸ hstale⟩
  · rintro ⟨mid, last, before, hearlier, hmid, hresult, hstale⟩
    refine ⟨⟨last.instant, models, last.task⟩, ?_, hstale, rfl⟩
    exact lastAccepted_eq_some.mpr ⟨mid, last, before, hearlier, hmid, hresult, rfl, rfl⟩

/-! ## Concurrent calls -/

/-- No call brings a list behind one that started later and has an outcome. -/
def InOrder (pool : CatalogPool) :
    CatalogStep → Prop
  | .run i _ => ∀ models k, pool.tasks i = some (.ask (.accept (.ok models)) k) →
    ∀ c ∈ pool.shared.calls, c.Settles → c.task ≤ i
  | _ => True

/-- The list that is kept is the one of the call that started last, among those that have an
outcome. -/
def CatalogWorld.Current (w : CatalogWorld) : Prop :=
  ∀ cached, w.cache = some cached → ∀ c ∈ w.calls, c.Settles → c.task ≤ cached.source

theorem CatalogWorld.Current.exec {stale i : Nat} {w w' : CatalogWorld} {e : CatalogEffect}
    {choice : CatalogChoice} {r : e.Answer} (h : w.Current)
    (horder : ∀ models, e = .accept (.ok models) → ∀ c ∈ w.calls, c.Settles → c.task ≤ i)
    (hexec : catalogExec stale w i e choice = some (w', r)) : w'.Current := by
  unfold catalogExec at hexec
  split at hexec
  · cases hexec
    exact h
  · next result instant =>
    obtain ⟨fetched, -, hsome⟩ := Option.map_eq_some_iff.mp hexec
    cases hsome
    intro cached hcached c hc hsettles
    cases result with
    | ok models =>
      cases hcached
      rcases List.mem_cons.mp hc with rfl | hc
      · exact Nat.le_refl _
      · exact horder models rfl c hc hsettles
    | error error =>
      have hcached : (acceptCatalog stale w.cache i instant (.error error)).1 = some cached :=
        hcached
      by_cases hkind : error.kind = .transient
      · have hcache : w.cache = some cached := by
          simp only [acceptCatalog, hkind, ne_eq, not_true_eq_false, if_false] at hcached
          split at hcached
          · split at hcached <;> exact hcached
          · exact hcached
        rcases List.mem_cons.mp hc with rfl | hc
        · exact absurd ⟨error, rfl, hkind⟩ hsettles
        · exact h cached hcache c hc hsettles
      · simp [acceptCatalog, hkind] at hcached
  · cases hexec

theorem current_run (config : OfferingConfig) (steps : List (CatalogStep))
    (h : (catalogSystem config).machine.Meets InOrder { shared := {} } steps) :
    (catalogRun config steps).Current := by
  refine (catalogSystem config).machine.run_invariant
    (P := fun pool => pool.shared.Current) ?_ ?_ h
  · intro pool s hcurrent horder
    show CatalogWorld.Current ((catalogSystem config).step pool s).shared
    cases s with
    | event e => exact e.elim
    | start o => exact hcurrent
    | run i choice =>
      simp only [TaskSystem.step]
      split
      · next e k hi =>
        split
        · next hexec =>
          refine hcurrent.exec ?_ hexec
          rintro models rfl
          exact horder models k hi
        · exact hcurrent
      · exact hcurrent
  · intro cached hcached
    cases hcached

/-! ## What the offerings change -/

/-- A list that the client without the offerings returns is returned with them. -/
def CatalogCall.Adds (offerings : List CatalogModelInfo) (bare full : CatalogCall) : Prop :=
  bare.task = full.task ∧ bare.fetched = full.fetched ∧ ∀ models, bare.answer = .ok models →
    full.answer = .ok (models ++ newOfferings models offerings)

/-- The call has failed, and is answered with the list that is kept. -/
def CatalogCall.Served (c : CatalogCall) (models : List CatalogModelInfo) : Prop :=
  (∃ error, c.fetched = .error error) ∧ c.answer = .ok models

theorem Agrees.adds_iff {offerings : List CatalogModelInfo} {bare full : CatalogCall}
    (h : Agrees offerings bare full) : bare.Adds offerings full ↔
      ∀ models, bare.Served models →
        offerings = [] ∨ offerings = models ++ newOfferings models offerings := by
  constructor
  · rintro ⟨-, -, hadds⟩ models ⟨⟨error, hfetched⟩, hanswer⟩
    have hfull := hadds models hanswer
    rw [h.served error models hfetched hanswer, Except.ok.injEq] at hfull
    split at hfull
    · next hnone => exact .inl hnone
    · exact .inr hfull
  · intro hserved
    refine ⟨h.task, h.fetched, fun models hanswer => ?_⟩
    cases hfetched : bare.fetched with
    | ok listed =>
      obtain ⟨hbare, hfull⟩ := h.listed listed hfetched
      rw [hanswer, Except.ok.injEq] at hbare
      rw [hfull, addOfferings_eq, hbare]
    | error error =>
      rw [h.served error models hfetched hanswer]
      rcases hserved models ⟨⟨error, hfetched⟩, hanswer⟩ with hnone | hsame
      · subst hnone
        simp [newOfferings_nil]
      · split
        · next hnone =>
          subst hnone
          simp [newOfferings_nil]
        · exact congrArg _ hsame

/-- A relation that comes to a condition on the first of two lists. -/
theorem forall₂_iff_of_forall₂ {α β : Type} {R S : α → β → Prop} {P : α → Prop} {as : List α}
    {bs : List β} (h : List.Forall₂ R as bs) (hiff : ∀ a b, R a b → (S a b ↔ P a)) :
    List.Forall₂ S as bs ↔ ∀ a ∈ as, P a := by
  induction h with
  | nil => simp
  | cons hr _ ih => rw [List.forall₂_cons, List.forall_mem_cons, hiff _ _ hr, ih]

/-- **Installed offerings add to the catalog** in exactly the runs in which no call is served from
the list that is kept; an outage is bridged with the list that was accepted last, and the list that
is kept is the newest one where calls bring their lists in order. -/
theorem offerings_only_add (config : OfferingConfig)
    (steps : List (CatalogStep)) :
    (List.Forall₂ (CatalogCall.Adds config.offerings) (catalogRun config.bare steps).calls
        (catalogRun config steps).calls ↔
      ∀ c ∈ (catalogRun config.bare steps).calls, ∀ models, c.Served models →
        config.offerings = [] ∨
          config.offerings = models ++ newOfferings models config.offerings) ∧
    Remembers config.catalogMaxStale (catalogRun config steps).calls ∧
    ((catalogSystem config).machine.Meets InOrder { shared := {} } steps →
      (catalogRun config steps).Current) :=
  ⟨forall₂_iff_of_forall₂ (agrees_run config steps) fun _ _ h => h.adds_iff,
    (accepts_run config steps).remembers, current_run config steps⟩

/-- A client with the direct provider installed. -/
def directConfig : OfferingConfig where
  relayBaseUrl := "https://relay.example"
  direct := some ⟨"manifest", "https://direct.example", false, false, none⟩
  catalogMaxStale := 1800

/-- A list of the relay. -/
def relayedModels : List CatalogModelInfo :=
  Pool.models
    { directConfig with pool := some [⟨"relayed", "Relayed", 4096, 1024, "nvidia", none⟩] }

/-- A catalog, and an outage ten seconds later. -/
def outageSteps : List (CatalogStep) :=
  [.start (), .run 0 (.fetched (.ok relayedModels)), .run 0 (.instant 0),
    .start (), .run 1 (.fetched (.error (.new .transient "catalog unavailable"))),
    .run 1 (.instant 10)]

/-- A call whose list comes after that of a later one. -/
def overtakenSteps : List (CatalogStep) :=
  [.start (), .start (), .run 0 (.fetched (.ok relayedModels)), .run 1 (.fetched (.ok [])),
    .run 1 (.instant 5), .run 0 (.instant 6)]

/-- **An outage behind an installed offering**, for which the last catalog is not returned, and a
catalog that replaces a newer one. -/
theorem offerings_replace_catalog :
    (¬ ∀ (config : OfferingConfig) (steps : List (CatalogStep)),
      List.Forall₂ (CatalogCall.Adds config.offerings) (catalogRun config.bare steps).calls
        (catalogRun config steps).calls) ∧
    ¬ ∀ (config : OfferingConfig) (steps : List (CatalogStep)),
      (catalogRun config steps).Current := by
  refine ⟨fun h => ?_, fun h => ?_⟩
  · have hadds := h directConfig outageSteps
    obtain ⟨⟨-, -, hlisted⟩, -⟩ := List.forall₂_cons.mp hadds
    have hsame := Except.ok.inj (hlisted relayedModels rfl)
    have hlength := congrArg List.length hsame
    exact absurd hlength (by decide +kernel)
  · have hle := h directConfig overtakenSteps
      ⟨6, addOfferings relayedModels directConfig.offerings, 0⟩ rfl
      ⟨1, .ok [], .ok (Direct.models directConfig), 5, .ok (Direct.models directConfig)⟩
      (List.mem_cons_of_mem _ List.mem_cons_self) (fun ⟨_, herror, _⟩ => by cases herror)
    cases hle

end AxiomDesktop
