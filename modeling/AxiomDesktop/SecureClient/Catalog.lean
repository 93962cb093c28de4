import AxiomDesktop.Inference.Request
import AxiomDesktop.Web.Outbound
import Mathlib.Data.List.Basic

/-!
# The model catalog

`validateModels` (`validate_models`): the entries of the relay's catalog are checked one by one, and
one that is not acceptable is left out (`quarantined`). A catalog of a size that is accepted, whose
identifiers are distinct and whose entries are of this client's contract, comes to the models of its
acceptable entries, each as it would come to alone, `catalog_quarantine_is_local`.

The check of the URL of an entry that has passed those before it ends the whole catalog, and the
result leaves these catalogs out, `catalog_quarantine_is_not_local`.
-/

namespace AxiomDesktop

/-! ## Endpoints -/

/-- A URL of a provider, with the text of it. -/
structure ProviderUrl extends Url where
  /-- `to_string`. -/
  full : String

/-- `EndpointPolicy::validate_provider_url`, over `Url::parse` and the parser of addresses. -/
def EndpointPolicy.validateProviderUrl (policy : EndpointPolicy)
    (parseUrl : String → Except String ProviderUrl) (parseIp : String → Option IpAddr)
    (value : String) : Except SecureClientError ProviderUrl :=
  match parseUrl value with
  | .error _ => .error (.new .invalidResponse "provider URL is invalid")
  | .ok url =>
    if policy.requireHttps ∧ url.scheme ≠ "https" then
      .error (.new .invalidResponse "provider URL must use HTTPS")
    else if ¬ url.username.isEmpty ∨ url.password.isSome then
      .error (.new .invalidResponse "provider URL must not include credentials")
    else if policy.rejectLocalAddresses ∧ url.host = some "localhost" then
      .error (.new .invalidResponse "provider URL must not target localhost")
    else if policy.rejectLocalAddresses ∧
        (parseIp (url.host.getD "")).any fun address => !isPublicAddress address then
      .error (.new .invalidResponse "provider URL must use a public address")
    else .ok url

/-! ## Entries -/

structure CatalogE2eeContract where
  e2eeProtocol : String
  e2eeEncryptionVersion : Nat
  attestationProtocol : String
  preferred : Bool := false
  retireAfterUnixSeconds : Option Nat := none

structure CatalogModel where
  relayContractVersion : Nat := 0
  id : String
  label : String
  shortLabel : String
  model : String
  baseUrl : String
  provider : String
  providerLabel : String
  e2eeProtocol : String
  e2eeEncryptionVersion : Nat
  attestationProtocol : String
  contextWindowTokens : Nat
  maxOutputTokens : Nat
  inputPriceMicrousdPerMillionTokens : Option Nat := none
  outputPriceMicrousdPerMillionTokens : Option Nat := none
  supportedReasoningEfforts : List String := []
  supportedThinkingModes : List ThinkingMode := []
  reasoningReplay : Bool := false
  supportsTools : Bool := false
  supportsParallelTools : Bool := false
  supportsImages : Bool := false
  fileMimeTypes : List String := []
  reasoningParameters : List (String × Json) := []
  thinkingParameters : List (String × Json) := []
  e2eeContracts : List CatalogE2eeContract := []

/-- `ModelInfo`, as the catalog fills it. -/
structure CatalogModelInfo extends ModelInfo where
  label : String
  shortLabel : String
  providerId : String
  providerLabel : String
  upstreamModel : String
  providerBaseUrl : String
  e2eeProtocol : String
  e2eeEncryptionVersion : Nat
  attestationProtocol : String
  inputPriceMicrousdPerMillionTokens : Option Nat
  outputPriceMicrousdPerMillionTokens : Option Nat
  supportedReasoningEfforts : List ReasoningEffort
  reasoningReplay : Bool
  supportsParallelTools : Bool
  supportsStreaming : Bool := false
  fileMimeTypes : List String
  reasoningParameters : List (String × Json)
  thinkingParameters : List (String × Json)

structure ProviderContract where
  e2eeProtocol : String
  e2eeEncryptionVersion : Nat
  attestationProtocol : String
  deriving DecidableEq

/-- `SecureProvider`, by what the catalog asks of it. -/
structure CatalogProvider where
  supportsContract : String → Nat → String → Bool
  supports : CatalogModelInfo → Except SecureClientError Unit
  populateCapabilities : CatalogModelInfo → CatalogModelInfo

/-- `ProviderRegistry`. -/
abbrev ProviderRegistry := String → Option CatalogProvider

/-- `ProviderRegistry::contains`. -/
def ProviderRegistry.contains (providers : ProviderRegistry) (id : String) : Bool :=
  (providers id).isSome

/-- `ProviderRegistry::select_contract`. -/
def ProviderRegistry.selectContract (providers : ProviderRegistry) (id : String)
    (contracts : List ProviderContract) : Option ProviderContract := do
  let provider ← providers id
  contracts.find? fun contract =>
    provider.supportsContract contract.e2eeProtocol contract.e2eeEncryptionVersion
      contract.attestationProtocol

/-- `ProviderRegistry::validate_model`. -/
def ProviderRegistry.validateModel (providers : ProviderRegistry) (model : CatalogModelInfo) :
    Except SecureClientError CatalogModelInfo :=
  match providers model.providerId with
  | none => .error (.new .capabilityMismatch "model provider is not supported")
  | some provider => do
    provider.supports model
    return provider.populateCapabilities model

/-- What the catalog is read with. -/
structure CatalogContext where
  /-- `serde_json::from_value` of an entry. -/
  decode : Json → Except String CatalogModel
  parseUrl : String → Except String ProviderUrl
  parseIp : String → Option IpAddr
  endpointPolicy : EndpointPolicy
  providers : ProviderRegistry

/-- An entry, with what the clock says when it is checked, if that is not before the epoch. -/
structure CatalogReading where
  raw : Json
  now : Option Nat

def MAX_MODELS : Nat := 512
def MAX_E2EE_CONTRACTS_PER_MODEL : Nat := 8
def MAX_REASONING_EFFORTS_PER_MODEL : Nat := 16
def MAX_MODEL_TOKENS : Nat := 16 * 1024 * 1024
def MAX_MODEL_PRICE_MICROUSD_PER_MILLION_TOKENS : Nat := 1000000000000

/-! ## Checks -/

/-- `validate_identifier`. -/
def Catalog.validateIdentifier (value : String) (limit : Nat) (detail : String) :
    Except SecureClientError Unit :=
  if value.isEmpty || limit < value.utf8ByteSize ||
      value.toList.any fun c => !(c.isAlphanum || "_.:-".toList.contains c) then
    .error (.new .invalidResponse detail)
  else .ok ()

/-- `validate_text`. -/
def Catalog.validateText (value : String) (limit : Nat) (detail : String) :
    Except SecureClientError Unit :=
  if Text.isBlank value || limit < value.utf8ByteSize || value.toList.any Text.isControl then
    .error (.new .invalidResponse detail)
  else .ok ()

/-- The contract that an entry names itself. -/
def CatalogModel.topLevel (item : CatalogModel) : ProviderContract :=
  ⟨item.e2eeProtocol, item.e2eeEncryptionVersion, item.attestationProtocol⟩

/-- The contract that an advertisement names. -/
def CatalogE2eeContract.contract (contract : CatalogE2eeContract) : ProviderContract :=
  ⟨contract.e2eeProtocol, contract.e2eeEncryptionVersion, contract.attestationProtocol⟩

/-- The variables of the loop of `contract_candidates`. -/
structure ContractCandidates where
  seen : List ProviderContract := []
  topLevelAdvertised : Bool := false
  preferredContracts : Nat := 0
  candidates : List ProviderContract := []

/-- A round of the loop of `contract_candidates`. -/
def ContractCandidates.add (item : CatalogModel) (now : Nat) (s : ContractCandidates)
    (contract : CatalogE2eeContract) : Option ContractCandidates :=
  if (Catalog.validateIdentifier contract.e2eeProtocol 64
        "advertised E2EE protocol ID is invalid").isOk = false
      ∨ (Catalog.validateIdentifier contract.attestationProtocol 64
          "advertised attestation protocol ID is invalid").isOk = false
      ∨ contract.e2eeEncryptionVersion = 0 ∨ contract.retireAfterUnixSeconds = some 0
      ∨ contract.contract ∈ s.seen then
    none
  else
    let isTopLevel := contract.contract = item.topLevel
    let preferredContracts := s.preferredContracts + if contract.preferred then 1 else 0
    if contract.preferred ∧ (¬ isTopLevel ∨ 1 < preferredContracts) then none
    else
      some
        { seen := contract.contract :: s.seen
          topLevelAdvertised := s.topLevelAdvertised || isTopLevel
          preferredContracts
          candidates :=
            if contract.retireAfterUnixSeconds.all (now < ·) then
              if isTopLevel then contract.contract :: s.candidates
              else s.candidates ++ [contract.contract]
            else s.candidates }

/-- `contract_candidates`. -/
def contractCandidates (item : CatalogModel) (now : Option Nat) : Option (List ProviderContract) :=
  if item.e2eeContracts.isEmpty then some [item.topLevel]
  else if MAX_E2EE_CONTRACTS_PER_MODEL < item.e2eeContracts.length then none
  else do
    let now ← now
    let s ← item.e2eeContracts.foldlM (ContractCandidates.add item now) {}
    if s.topLevelAdvertised then some s.candidates else none

/-- `parse_reasoning_effort`. -/
def parseReasoningEffort : String → Option ReasoningEffort
  | "minimal" => some .minimal
  | "low" => some .low
  | "medium" => some .medium
  | "high" => some .high
  | "xhigh" => some .extraHigh
  | _ => none

/-- The loop over the reasoning efforts, from those it has taken; `none` where it refuses one. -/
def reasoningEfforts : List ReasoningEffort → List String → Option (List ReasoningEffort)
  | taken, [] => some taken
  | taken, effort :: rest =>
    if 32 < effort.utf8ByteSize || effort.toList.any Text.isControl then none
    else
      match parseReasoningEffort effort with
      | none => reasoningEfforts taken rest
      | some parsed =>
        if parsed ∈ taken then none else reasoningEfforts (taken ++ [parsed]) rest

/-- `metadata_valid`. -/
def metadataValid (item : CatalogModel) : Bool :=
  (Catalog.validateText item.label 200 "model label is invalid").isOk &&
    (Catalog.validateText item.shortLabel 100 "model short label is invalid").isOk &&
    (Catalog.validateText item.model 256 "upstream model name is invalid").isOk &&
    (Catalog.validateText item.providerLabel 100 "provider label is invalid").isOk &&
    (Catalog.validateIdentifier item.e2eeProtocol 64 "E2EE protocol ID is invalid").isOk &&
    (Catalog.validateIdentifier item.attestationProtocol 64
      "attestation protocol ID is invalid").isOk

/-- The token limits are possible. -/
def limitsValid (item : CatalogModel) : Bool :=
  item.contextWindowTokens ≠ 0 && item.maxOutputTokens ≠ 0 &&
    item.contextWindowTokens ≤ MAX_MODEL_TOKENS && item.maxOutputTokens ≤ item.contextWindowTokens

/-- The prices are possible. -/
def pricesValid (item : CatalogModel) : Bool :=
  match item.inputPriceMicrousdPerMillionTokens, item.outputPriceMicrousdPerMillionTokens with
  | none, none => true
  | some input, some output =>
    0 < input && 0 < output && input ≤ MAX_MODEL_PRICE_MICROUSD_PER_MILLION_TOKENS &&
      output ≤ MAX_MODEL_PRICE_MICROUSD_PER_MILLION_TOKENS
  | _, _ => false

/-- The model of an entry that has passed its checks. -/
def CatalogModel.info (item : CatalogModel) (contract : ProviderContract)
    (efforts : List ReasoningEffort) (url : ProviderUrl) : CatalogModelInfo where
  id := item.id
  label := item.label
  shortLabel := item.shortLabel
  providerId := item.provider
  providerLabel := item.providerLabel
  upstreamModel := item.model
  providerBaseUrl := url.full
  e2eeProtocol := contract.e2eeProtocol
  e2eeEncryptionVersion := contract.e2eeEncryptionVersion
  attestationProtocol := contract.attestationProtocol
  contextWindowTokens := item.contextWindowTokens
  maxOutputTokens := item.maxOutputTokens
  inputPriceMicrousdPerMillionTokens := item.inputPriceMicrousdPerMillionTokens
  outputPriceMicrousdPerMillionTokens := item.outputPriceMicrousdPerMillionTokens
  supportedReasoningEfforts := efforts
  supportedThinkingModes := item.supportedThinkingModes
  reasoningReplay := item.reasoningReplay
  supportsTools := item.supportsTools
  supportsParallelTools := item.supportsParallelTools
  supportsImages := item.supportsImages
  fileMimeTypes := item.fileMimeTypes
  reasoningParameters := item.reasoningParameters
  thinkingParameters := item.thinkingParameters

namespace CatalogContext

variable (context : CatalogContext)

/-- The checks of an entry behind the one for duplicates, up to that of its contract version: the
contract that the client takes. -/
def checkEntry (item : CatalogModel) (now : Option Nat) : Option ProviderContract := do
  if (Catalog.validateIdentifier item.provider 64 "provider ID is invalid").isOk = false then none
  if context.providers.contains item.provider = false then none
  if metadataValid item = false then none
  let candidates ← contractCandidates item now
  let selected ← context.providers.selectContract item.provider candidates
  if limitsValid item = false then none
  if pricesValid item = false then none
  return selected

/-- The rest of the checks of an entry: its model, if it is not left out. -/
def acceptEntry (item : CatalogModel) (now : Option Nat) :
    Except SecureClientError (Option CatalogModelInfo) :=
  match context.checkEntry item now with
  | none => .ok none
  | some selected =>
    if item.relayContractVersion ≠ 2 then
      .error (.new .capabilityMismatch
        ("The backend does not support this client's inference contract. " ++
          "Update the backend before sending messages."))
    else if MAX_REASONING_EFFORTS_PER_MODEL < item.supportedReasoningEfforts.length then .ok none
    else
      match reasoningEfforts [] item.supportedReasoningEfforts with
      | none => .ok none
      | some efforts =>
        match context.endpointPolicy.validateProviderUrl context.parseUrl context.parseIp
            item.baseUrl with
        | .error error => .error error
        | .ok url =>
          match context.providers.validateModel (item.info selected efforts url) with
          | .error _ => .ok none
          | .ok model => .ok (some model)

/-- The loop over the entries, from the identifiers and the models that it has taken. -/
def validateEntries : List String → List CatalogModelInfo → List CatalogReading →
    Except SecureClientError (List CatalogModelInfo)
  | _, output, [] => .ok output
  | ids, output, entry :: rest =>
    match context.decode entry.raw with
    | .error _ => validateEntries ids output rest
    | .ok item =>
      if (Catalog.validateIdentifier item.id 80 "model ID is invalid").isOk = false then
        validateEntries ids output rest
      else if item.id ∈ ids then
        .error (.new .invalidResponse "model catalog contains a duplicate model ID")
      else
        match context.acceptEntry item entry.now with
        | .error error => .error error
        | .ok none => validateEntries (item.id :: ids) output rest
        | .ok (some model) => validateEntries (item.id :: ids) (output ++ [model]) rest

/-- `validate_models`. -/
def validateModels (wire : List CatalogReading) : Except SecureClientError (List CatalogModelInfo) :=
  if wire.isEmpty || MAX_MODELS < wire.length then
    .error (.new .invalidResponse "model catalog has an invalid number of entries")
  else
    match context.validateEntries [] [] wire with
    | .error error => .error error
    | .ok output =>
      if output.isEmpty then
        .error (.new .capabilityMismatch
          "model catalog contains no providers supported by this client")
      else .ok output

end CatalogContext

/-! ## Quarantine -/

section Quarantine

variable {context : CatalogContext} {entry : CatalogReading} {wire : List CatalogReading}

/-- The identifiers of the entries that are well formed. -/
def CatalogContext.wireIds (context : CatalogContext) (wire : List CatalogReading) : List String :=
  wire.filterMap fun entry => (context.decode entry.raw).toOption.map (·.id)

/-- The well-formed entries are of the contract version of this client. -/
def CatalogContext.OfVersion (context : CatalogContext) (wire : List CatalogReading) : Prop :=
  ∀ entry ∈ wire, ∀ item, context.decode entry.raw = .ok item → item.relayContractVersion = 2

/-- The models that a catalog of one entry comes to. -/
def CatalogContext.alone (context : CatalogContext) (entry : CatalogReading) :
    List CatalogModelInfo :=
  (context.validateModels [entry]).toOption.getD []

/-- An entry that is accepted in a catalog of its own. -/
def CatalogContext.Acceptable (context : CatalogContext) (entry : CatalogReading) : Prop :=
  ∃ model, context.validateModels [entry] = .ok [model]

/-- An entry that passes all checks before the one of its URL, and not that one. -/
def CatalogContext.UrlRefused (context : CatalogContext) (entry : CatalogReading) : Prop :=
  ∃ item selected efforts error, context.decode entry.raw = .ok item ∧
    (Catalog.validateIdentifier item.id 80 "model ID is invalid").isOk = true ∧
    context.checkEntry item entry.now = some selected ∧
    item.supportedReasoningEfforts.length ≤ MAX_REASONING_EFFORTS_PER_MODEL ∧
    reasoningEfforts [] item.supportedReasoningEfforts = some efforts ∧
    context.endpointPolicy.validateProviderUrl context.parseUrl context.parseIp item.baseUrl =
      .error error

/-- The model of an entry, if it is not left out. -/
def CatalogContext.entryModel (context : CatalogContext) (entry : CatalogReading) :
    Option CatalogModelInfo :=
  match context.decode entry.raw with
  | .error _ => none
  | .ok item =>
    if (Catalog.validateIdentifier item.id 80 "model ID is invalid").isOk = false then none
    else
      match context.acceptEntry item entry.now with
      | .error _ => none
      | .ok model => model

/-- No entry ends the catalog. -/
def CatalogContext.Checked (context : CatalogContext) (wire : List CatalogReading) : Prop :=
  ∀ entry ∈ wire, ∀ item, context.decode entry.raw = .ok item →
    (Catalog.validateIdentifier item.id 80 "model ID is invalid").isOk = true →
      ∃ model, context.acceptEntry item entry.now = .ok model

/-- An entry of the supported version ends the catalog by its URL alone. -/
theorem checked_of_version (hversion : context.OfVersion wire)
    (hurl : ∀ entry ∈ wire, ¬ context.UrlRefused entry) : context.Checked wire := by
  intro entry hentry item hdecode hid
  unfold CatalogContext.acceptEntry
  cases hcheck : context.checkEntry item entry.now with
  | none => exact ⟨_, rfl⟩
  | some selected =>
    dsimp only
    rw [if_neg (not_not.mpr (hversion entry hentry item hdecode))]
    by_cases hcount : MAX_REASONING_EFFORTS_PER_MODEL < item.supportedReasoningEfforts.length
    · exact ⟨none, if_pos hcount⟩
    · rw [if_neg hcount]
      cases hefforts : reasoningEfforts [] item.supportedReasoningEfforts with
      | none => exact ⟨_, rfl⟩
      | some efforts =>
        cases hvalidate : context.endpointPolicy.validateProviderUrl context.parseUrl
            context.parseIp item.baseUrl with
        | error error =>
          exact absurd ⟨item, selected, efforts, error, hdecode, hid, hcheck, Nat.not_lt.mp hcount,
            hefforts, hvalidate⟩ (hurl entry hentry)
        | ok url =>
          dsimp only
          cases context.providers.validateModel (item.info selected efforts url) with
          | error error => exact ⟨_, rfl⟩
          | ok model => exact ⟨_, rfl⟩

/-- **The loop over the entries** adds the models of the entries, in their order: by induction on
the entries, whose identifiers are none of those that were taken. -/
theorem validateEntries_eq {ids : List String} {output : List CatalogModelInfo}
    (hids : (context.wireIds wire).Nodup) (hfresh : ∀ id ∈ context.wireIds wire, id ∉ ids)
    (hchecked : context.Checked wire) :
    context.validateEntries ids output wire = .ok (output ++ wire.filterMap context.entryModel) := by
  induction wire generalizing ids output with
  | nil => simp [CatalogContext.validateEntries]
  | cons entry rest ih =>
    have hrest : context.Checked rest := fun e he => hchecked e (List.mem_cons_of_mem _ he)
    unfold CatalogContext.validateEntries
    cases hdecode : context.decode entry.raw with
    | error error =>
      have hwire : context.wireIds (entry :: rest) = context.wireIds rest := by
        simp [CatalogContext.wireIds, hdecode, Except.toOption]
      rw [hwire] at hids hfresh
      simp [ih hids hfresh hrest, CatalogContext.entryModel, hdecode]
    | ok item =>
      have hwire : context.wireIds (entry :: rest) = item.id :: context.wireIds rest := by
        simp [CatalogContext.wireIds, hdecode, Except.toOption]
      rw [hwire, List.nodup_cons] at hids
      rw [hwire, List.forall_mem_cons] at hfresh
      dsimp only
      by_cases hid :
          (Catalog.validateIdentifier item.id 80 "model ID is invalid").isOk = false
      · rw [if_pos hid, ih hids.2 hfresh.2 hrest]
        simp [CatalogContext.entryModel, hdecode, hid]
      · obtain ⟨model, hmodel⟩ := hchecked entry List.mem_cons_self item hdecode (by simpa using hid)
        have hfresh' : ∀ id ∈ context.wireIds rest, id ∉ item.id :: ids := by
          intro id hmem
          rw [List.mem_cons, not_or]
          exact ⟨fun heq => hids.1 (heq ▸ hmem), hfresh.2 id hmem⟩
        rw [if_neg hid, if_neg hfresh.1, hmodel]
        cases model with
        | none =>
          dsimp only
          rw [ih hids.2 hfresh' hrest]
          simp [CatalogContext.entryModel, hdecode, hid, hmodel]
        | some model =>
          dsimp only
          rw [ih hids.2 hfresh' hrest]
          simp [CatalogContext.entryModel, hdecode, hid, hmodel]

/-- A catalog of one entry comes to its model, or fails. -/
theorem validateModels_singleton (context : CatalogContext) (entry : CatalogReading) :
    (∃ model, context.entryModel entry = some model ∧ context.validateModels [entry] = .ok [model]) ∨
      context.entryModel entry = none ∧ ∃ error, context.validateModels [entry] = .error error := by
  have hsize : ([entry].isEmpty || decide (MAX_MODELS < [entry].length)) = false := rfl
  rw [CatalogContext.validateModels, hsize, if_neg Bool.false_ne_true]
  unfold CatalogContext.entryModel CatalogContext.validateEntries
  cases hdecode : context.decode entry.raw with
  | error error => exact .inr ⟨rfl, _, rfl⟩
  | ok item =>
    dsimp only
    by_cases hid : (Catalog.validateIdentifier item.id 80 "model ID is invalid").isOk = false
    · rw [if_pos hid, if_pos hid]
      exact .inr ⟨rfl, _, rfl⟩
    · rw [if_neg hid, if_neg hid, if_neg List.not_mem_nil]
      cases context.acceptEntry item entry.now with
      | error error => exact .inr ⟨rfl, _, rfl⟩
      | ok model =>
        cases model with
        | none => exact .inr ⟨rfl, _, rfl⟩
        | some model => exact .inl ⟨model, rfl, rfl⟩

theorem alone_eq : context.alone entry = (context.entryModel entry).toList := by
  unfold CatalogContext.alone
  rcases validateModels_singleton context entry with
    ⟨model, hmodel, hok⟩ | ⟨hnone, error, herror⟩
  · rw [hmodel, hok]
    rfl
  · rw [hnone, herror]
    rfl

theorem acceptable_iff : context.Acceptable entry ↔ (context.entryModel entry).isSome := by
  unfold CatalogContext.Acceptable
  rcases validateModels_singleton context entry with ⟨model, hmodel, hok⟩ | ⟨hnone, error, herror⟩
  · simp [hmodel, hok]
  · simp [hnone, herror]

theorem flatMap_alone (context : CatalogContext) (wire : List CatalogReading) :
    wire.flatMap context.alone = wire.filterMap context.entryModel := by
  rw [List.filterMap_eq_flatMap_toList]
  exact List.flatMap_congr fun entry _ => alone_eq

/-- A catalog in which no entry ends it and one is acceptable. -/
theorem validateModels_eq (hsize : wire.length ≤ MAX_MODELS) (hids : (context.wireIds wire).Nodup)
    (hchecked : context.Checked wire) (hsome : ∃ entry ∈ wire, context.Acceptable entry) :
    context.validateModels wire = .ok (wire.flatMap context.alone) := by
  obtain ⟨entry, hentry, haccept⟩ := hsome
  obtain ⟨model, hmodel⟩ := Option.isSome_iff_exists.mp (acceptable_iff.mp haccept)
  have hmem : model ∈ wire.filterMap context.entryModel :=
    List.mem_filterMap.mpr ⟨entry, hentry, hmodel⟩
  have hwire : (wire.isEmpty || decide (MAX_MODELS < wire.length)) = false := by
    simp [List.ne_nil_of_mem hentry, hsize]
  have houtput : (wire.filterMap context.entryModel).isEmpty = false := by
    simpa using List.ne_nil_of_mem hmem
  rw [CatalogContext.validateModels, hwire, if_neg Bool.false_ne_true,
    validateEntries_eq hids (fun _ _ => List.not_mem_nil) hchecked, List.nil_append]
  dsimp only
  rw [houtput, if_neg Bool.false_ne_true, flatMap_alone]

/-- **Quarantine is local**: an entry that is not acceptable changes nothing for the others, which
come to what each of them comes to alone. -/
theorem catalog_quarantine_is_local (context : CatalogContext) (wire : List CatalogReading)
    (hsize : wire.length ≤ MAX_MODELS) (hids : (context.wireIds wire).Nodup)
    (hversion : context.OfVersion wire) (hurl : ∀ entry ∈ wire, ¬ context.UrlRefused entry)
    (hsome : ∃ entry ∈ wire, context.Acceptable entry) :
    context.validateModels wire = .ok (wire.flatMap context.alone) ∧
      ∀ pre entry post, wire = pre ++ entry :: post → ¬ context.Acceptable entry →
        context.validateModels (pre ++ post) = context.validateModels wire := by
  have hmodels := validateModels_eq hsize hids (checked_of_version hversion hurl) hsome
  refine ⟨hmodels, ?_⟩
  rintro pre entry post rfl hrefused
  have hsub : (pre ++ post).Sublist (pre ++ entry :: post) :=
    (List.sublist_cons_self entry post).append_left pre
  have hnone : context.alone entry = [] := by
    rw [acceptable_iff, Bool.not_eq_true, Option.isSome_eq_false_iff, Option.isNone_iff_eq_none]
      at hrefused
    rw [alone_eq, hrefused]
    rfl
  have hsome' : ∃ entry ∈ pre ++ post, context.Acceptable entry := by
    obtain ⟨other, hother, haccept⟩ := hsome
    refine ⟨other, ?_, haccept⟩
    rw [List.mem_append, List.mem_cons] at hother
    rcases hother with hother | rfl | hother
    · exact List.mem_append_left _ hother
    · exact absurd haccept hrefused
    · exact List.mem_append_right _ hother
  rw [hmodels, validateModels_eq (hsub.length_le.trans hsize)
    (hids.sublist (hsub.filterMap _)) ?_ hsome']
  · simp [List.flatMap_append, List.flatMap_cons, hnone]
  · exact checked_of_version (fun e he => hversion e (hsub.subset he))
      fun e he => hurl e (hsub.subset he)

end Quarantine

/-! ## Catalogs of a few entries -/

/-- An entry that every provider could take. -/
def plainEntry (id baseUrl : String) : CatalogModel where
  relayContractVersion := 2
  id := id
  label := "Model"
  shortLabel := "Model"
  model := "model/upstream"
  baseUrl := baseUrl
  provider := "near"
  providerLabel := "NEAR"
  e2eeProtocol := "near-v3"
  e2eeEncryptionVersion := 2
  attestationProtocol := "near-tdx-nvidia-v2"
  contextWindowTokens := 1000000
  maxOutputTokens := 8192

/-- A client with one provider, and a relay that knows two entries. -/
def plainContext : CatalogContext where
  decode
    | .str "good" => .ok (plainEntry "good" "https://model.example/")
    | .str "url" => .ok (plainEntry "url" "http://model.example/")
    | _ => .error "missing field"
  parseUrl text :=
    if text = "https://model.example/" then
      .ok ⟨⟨"https", "", none, some "model.example", none, text⟩, text⟩
    else .ok ⟨⟨"http", "", none, some "model.example", none, text⟩, text⟩
  parseIp _ := none
  endpointPolicy := {}
  providers id :=
    if id = "near" then
      some
        { supportsContract := fun _ _ _ => true, supports := fun _ => .ok ()
          populateCapabilities := fun model => model }
    else none

def goodReading : CatalogReading := ⟨.str "good", some 0⟩

def malformedReading : CatalogReading := ⟨.null, some 0⟩

/-- Its URL is no HTTPS one. -/
def urlReading : CatalogReading := ⟨.str "url", some 0⟩

theorem goodReading_acceptable : plainContext.Acceptable goodReading := by
  rw [acceptable_iff]
  decide +kernel

/-- The entries of the relay are of the supported version. -/
theorem plainContext_ofVersion (wire : List CatalogReading) : plainContext.OfVersion wire := by
  intro entry _ item hdecode
  simp only [plainContext] at hdecode
  split at hdecode <;> cases hdecode <;> rfl

/-- An entry that is accepted is not refused for its URL, and neither is one that is malformed. -/
theorem not_urlRefused_of_ne {entry : CatalogReading} (h : entry.raw ≠ .str "url") :
    ¬ plainContext.UrlRefused entry := by
  rintro ⟨item, selected, efforts, error, hdecode, -, -, -, -, hrefused⟩
  simp only [plainContext] at hdecode
  split at hdecode
  · cases hdecode
    cases hrefused
  · next hraw => exact h hraw
  · cases hdecode

/-- **A malformed entry and a good one.** -/
theorem catalog_quarantine_is_local_malformed :
    plainContext.validateModels [malformedReading, goodReading] =
        .ok ([malformedReading, goodReading].flatMap plainContext.alone) ∧
      ∀ pre entry post, [malformedReading, goodReading] = pre ++ entry :: post →
        ¬ plainContext.Acceptable entry →
        plainContext.validateModels (pre ++ post) =
          plainContext.validateModels [malformedReading, goodReading] := by
  refine catalog_quarantine_is_local plainContext _ (by decide) (by decide)
    (plainContext_ofVersion _) ?_ ⟨goodReading, by simp, goodReading_acceptable⟩
  intro entry hentry
  simp only [List.mem_cons, List.not_mem_nil, or_false] at hentry
  rcases hentry with rfl | rfl <;> exact not_urlRefused_of_ne (by decide)

/-- **A catalog that ends at a URL**, and one that is too long: both have a good entry, and no model
is returned. -/
theorem catalog_quarantine_is_not_local :
    (¬ ∀ (context : CatalogContext) (wire : List CatalogReading), wire.length ≤ MAX_MODELS →
      (context.wireIds wire).Nodup → context.OfVersion wire →
        (∃ entry ∈ wire, context.Acceptable entry) →
          context.validateModels wire = .ok (wire.flatMap context.alone)) ∧
    ¬ ∀ (context : CatalogContext) (wire : List CatalogReading),
      (∀ entry ∈ wire, ¬ context.UrlRefused entry) →
        (context.wireIds wire).Nodup → context.OfVersion wire →
          (∃ entry ∈ wire, context.Acceptable entry) →
            context.validateModels wire = .ok (wire.flatMap context.alone) := by
  refine ⟨fun h => ?_, fun h => ?_⟩
  · have hok := h plainContext [goodReading, urlReading] (by decide) (by decide)
      (plainContext_ofVersion _) ⟨goodReading, by simp, goodReading_acceptable⟩
    have herror : (plainContext.validateModels [goodReading, urlReading]).isOk = false := by
      decide +kernel
    rw [hok] at herror
    cases herror
  · have hids : plainContext.wireIds (goodReading :: List.replicate MAX_MODELS malformedReading) =
        ["good"] := by
      have hmalformed : (List.replicate MAX_MODELS malformedReading).filterMap
          (fun entry => (plainContext.decode entry.raw).toOption.map (·.id)) = [] := by
        rw [List.filterMap_eq_nil_iff]
        intro entry hentry
        rw [List.eq_of_mem_replicate hentry]
        rfl
      rw [CatalogContext.wireIds, List.filterMap_cons, hmalformed]
      rfl
    have hok := h plainContext (goodReading :: List.replicate MAX_MODELS malformedReading) ?_
      (by rw [hids]; decide) (plainContext_ofVersion _)
      ⟨goodReading, List.mem_cons_self, goodReading_acceptable⟩
    · have hlong : MAX_MODELS < (goodReading :: List.replicate MAX_MODELS malformedReading).length := by
        rw [List.length_cons, List.length_replicate]
        exact Nat.lt_succ_self _
      rw [CatalogContext.validateModels, decide_eq_true hlong, Bool.or_true, if_pos rfl] at hok
      cases hok
    · intro entry hentry
      rcases List.mem_cons.mp hentry with rfl | hentry
      · exact not_urlRefused_of_ne (by decide)
      · rw [List.eq_of_mem_replicate hentry]
        exact not_urlRefused_of_ne (by decide)

end AxiomDesktop
