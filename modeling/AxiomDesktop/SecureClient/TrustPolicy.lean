import AxiomDesktop.SecureClient.Relay
import AxiomDesktop.Lib.Tasks

/-!
# The signed trust policy

The checks of a signed policy (`TrustPolicy.fromSignedJson`) and the programs that keep the newest
one: `loadInitialPolicy` of a new client and `trustPolicy` of its calls. A client holds a policy in
memory; clients that are given one path share a journal of the highest sequence there
(`persist`, under an exclusive lock on a file beside it).

Every `PolicyEffect` is one atomic step, and other calls and clients take steps between any two of
them. Reading JSON and verifying a signature is taken from the environment.
-/

namespace AxiomDesktop

/-- `SecureClientError::configuration`. -/
def SecureClientError.configuration (detail : String) : SecureClientError := .new .configuration detail

structure TrustPolicy where
  sequence : Nat
  version : String
  expiresAtUnixSeconds : Nat
  acceptedIntelStatuses : List String
  requireNvidiaVerified : Bool
  requireModelBinding : Bool
  requireLiveTlsBinding : Bool
  nvidiaAnchorSha256 : List String
  deriving DecidableEq, Repr

structure SignedPolicyDocument where
  schemaVersion : Nat
  sequence : Nat
  version : String
  issuedAtUnixSeconds : Nat
  notBeforeUnixSeconds : Nat
  expiresAtUnixSeconds : Nat
  acceptedIntelStatuses : List String
  requireNvidiaVerified : Bool
  requireModelBinding : Bool
  requireLiveTlsBinding : Bool
  nvidiaAnchorSha256 : List String
  deriving DecidableEq, Repr

structure PersistedTrustPolicy where
  highestSequence : Nat
  signedPolicy : String
  deriving DecidableEq, Repr

/-- What the policies take from their environment. -/
structure PolicyEnvironment where
  /-- The document of an envelope whose signature verifies strictly under the installed key, or the
  detail of the error. -/
  decode : String → Except String SignedPolicyDocument
  /-- `BUNDLED_POLICY`. -/
  bundled : String
  /-- The length of the encoded journal. -/
  encodedLength : PersistedTrustPolicy → Nat

namespace TrustPolicy

/-- A lower-case hexadecimal SHA-256. -/
def isFingerprint (fingerprint : String) : Bool :=
  fingerprint.utf8ByteSize = 64 &&
    fingerprint.toList.all fun c => c.isDigit || ('a' ≤ c && c ≤ 'f')

/-- What `from_signed_json_inner` refuses of a signed document. -/
def refused (document : SignedPolicyDocument) (minimumSequence now : Nat)
    (permitExpiredForRollback : Bool) : Bool :=
  document.schemaVersion ≠ 2 ||
    document.sequence < minimumSequence ||
    document.issuedAtUnixSeconds > now ||
    document.notBeforeUnixSeconds > now ||
    (!permitExpiredForRollback && document.expiresAtUnixSeconds ≤ now) ||
    document.notBeforeUnixSeconds > document.expiresAtUnixSeconds ||
    document.acceptedIntelStatuses ≠ ["UpToDate"] ||
    !document.requireNvidiaVerified ||
    !document.requireModelBinding ||
    !document.requireLiveTlsBinding ||
    document.nvidiaAnchorSha256.isEmpty ||
    document.nvidiaAnchorSha256.any (!isFingerprint ·) ||
    Text.isBlank document.version

/-- `from_signed_json_inner`. -/
def fromSignedJsonInner (env : PolicyEnvironment) (input : String) (minimumSequence now : Nat)
    (permitExpiredForRollback : Bool) : Except SecureClientError TrustPolicy :=
  match env.decode input with
  | .error detail => .error (.configuration detail)
  | .ok document =>
    if refused document minimumSequence now permitExpiredForRollback then
      .error (.configuration "trust policy is expired, rolled back, or weakens mandatory checks")
    else
      .ok
        { sequence := document.sequence
          version := document.version
          expiresAtUnixSeconds := document.expiresAtUnixSeconds
          acceptedIntelStatuses := document.acceptedIntelStatuses
          requireNvidiaVerified := document.requireNvidiaVerified
          requireModelBinding := document.requireModelBinding
          requireLiveTlsBinding := document.requireLiveTlsBinding
          nvidiaAnchorSha256 := document.nvidiaAnchorSha256 }

/-- `from_signed_json`. -/
def fromSignedJson (env : PolicyEnvironment) (input : String) (minimumSequence now : Nat) :
    Except SecureClientError TrustPolicy :=
  fromSignedJsonInner env input minimumSequence now false

/-- `from_signed_json_for_rollback`. -/
def fromSignedJsonForRollback (env : PolicyEnvironment) (input : String) (minimumSequence now : Nat) :
    Except SecureClientError TrustPolicy :=
  fromSignedJsonInner env input minimumSequence now true

/-- `is_valid_at`. -/
def isValidAt (policy : TrustPolicy) (now : Nat) : Bool := policy.expiresAtUnixSeconds > now

/-- **A policy that is read** has at least the sequence that was asked for, and has not expired. -/
theorem fromSignedJson_ok {env : PolicyEnvironment} {input : String} {minimumSequence now : Nat}
    {policy : TrustPolicy} (h : fromSignedJson env input minimumSequence now = .ok policy) :
    minimumSequence ≤ policy.sequence ∧ policy.isValidAt now = true := by
  unfold fromSignedJson fromSignedJsonInner at h
  split at h
  · cases h
  · split at h
    · cases h
    · next hkept =>
      cases h
      simp only [refused, Bool.or_eq_true, decide_eq_true_eq, not_or, Bool.and_eq_true,
        Bool.not_eq_true', not_and, Nat.not_lt, Nat.not_le, true_implies] at hkept
      obtain ⟨⟨⟨⟨⟨⟨⟨⟨⟨⟨⟨⟨-, hsequence⟩, -⟩, -⟩, hexpires⟩, -⟩, -⟩, -⟩, -⟩, -⟩, -⟩, -⟩, -⟩ := hkept
      exact ⟨hsequence, decide_eq_true hexpires⟩

end TrustPolicy

/-! ## Programs -/

/-- What `SecureClientConfig` says of the policy. -/
structure PolicyConfig where
  cachePath : Option String := none
  refreshInterval : Nat := 300
  policyBytes : Nat := 128 * 1024
  deriving DecidableEq, Repr

structure CachedTrustPolicy where
  policy : TrustPolicy
  refreshedAt : Option Nat
  deriving DecidableEq, Repr

inductive PolicyEffect where
  /-- `now_unix`. -/
  | now
  /-- The first section of `trust_policy`, with the instant it is entered at. -/
  | cached
  /-- `GET /api/v1/relay/trust-policy`. -/
  | fetch
  /-- The policy a candidate is compared with. -/
  | current
  /-- `persist_policy`, under the lock of the journal. -/
  | persist (path : String) (limit : Nat) (signedPolicy : String) (policy : TrustPolicy)
  /-- The section that installs a candidate. -/
  | install (candidate : TrustPolicy)
  /-- `is_cancelled`, of a refresh that has failed. -/
  | cancelled
  /-- The section behind a failed refresh. -/
  | lastKnownGood (now : Nat)
  /-- `read_persisted`. -/
  | readPersisted (path : String) (limit : Nat)
  /-- `new` returns its client. -/
  | build (policy : TrustPolicy)
  | report (result : Except SecureClientError TrustPolicy)

/-- The answers to an effect; a body that is no text is none. -/
@[reducible] def PolicyEffect.Answer : PolicyEffect → Type
  | now => Nat
  | cached => CachedTrustPolicy × Nat
  | fetch => Except SecureClientError (Option String)
  | current => TrustPolicy
  | persist _ _ _ _ => Except SecureClientError Unit
  | cancelled => Bool
  | lastKnownGood _ => Option TrustPolicy
  | readPersisted _ _ => Except SecureClientError (Option PersistedTrustPolicy)
  | install _ | build _ | report _ => Unit

/-- A program over the policies of a client. -/
abbrev PolicyProg (α : Type) : Type := Prog PolicyEffect PolicyEffect.Answer α

namespace SecureClient

def ask (e : PolicyEffect) : PolicyProg e.Answer := Prog.effect e

variable (env : PolicyEnvironment) (config : PolicyConfig)

/-- The candidate is persisted where it is newer and there is a journal. -/
def persistNewer (signedPolicy : String) (current candidate : TrustPolicy) :
    PolicyProg (Except SecureClientError Unit) :=
  match config.cachePath with
  | some path =>
    if candidate.sequence > current.sequence then
      ask (.persist path config.policyBytes signedPolicy candidate)
    else return .ok ()
  | none => return .ok ()

/-- The refresh of `trust_policy`. -/
def refresh (now : Nat) (wire : Except SecureClientError (Option String)) :
    PolicyProg (Except SecureClientError TrustPolicy) := do
  match wire with
  | .error error => return .error error
  | .ok none => return .error (.configuration "trust policy encoding is invalid")
  | .ok (some signedPolicy) =>
    let current ← ask .current
    match TrustPolicy.fromSignedJson env signedPolicy current.sequence now with
    | .error error => return .error error
    | .ok candidate =>
      if candidate.sequence = current.sequence ∧ candidate ≠ current then
        return .error (.configuration "trust policy sequence equivocation was rejected")
      else
        match ← persistNewer config signedPolicy current candidate with
        | .error error => return .error error
        | .ok () =>
          ask (.install candidate)
          return .ok candidate

/-- `trust_policy`. -/
def trustPolicy : PolicyProg (Except SecureClientError TrustPolicy) := do
  let now ← ask .now
  let (cached, instant) ← ask .cached
  if cached.policy.isValidAt now = true ∧
      cached.refreshedAt.any (fun refreshed => instant - refreshed < config.refreshInterval) then
    return .ok cached.policy
  else
    let wire ← ask .fetch
    match ← refresh env config now wire with
    | .ok policy => return .ok policy
    | .error error =>
      if ← ask .cancelled then return .error .stopped
      else
        match ← ask (.lastKnownGood now) with
        | some policy => return .ok policy
        | none => return .error error

/-- `load_initial_policy`. -/
def loadInitialPolicy : PolicyProg (Except SecureClientError TrustPolicy) := do
  let now ← ask .now
  match TrustPolicy.fromSignedJson env env.bundled 0 now with
  | .error error => return .error error
  | .ok bundled =>
    match config.cachePath with
    | none => return .ok bundled
    | some path =>
      match ← ask (.readPersisted path config.policyBytes) with
      | .error error => return .error error
      | .ok none => return .ok bundled
      | .ok (some persisted) =>
        if persisted.highestSequence < bundled.sequence then return .ok bundled
        else
          let now ← ask .now
          match TrustPolicy.fromSignedJsonForRollback env persisted.signedPolicy
              (max persisted.highestSequence bundled.sequence) now with
          | .error error => return .error error
          | .ok cached =>
            if cached.sequence ≠ persisted.highestSequence then
              return .error (.configuration "trust policy rollback journal is inconsistent")
            else if cached.sequence = bundled.sequence ∧ cached ≠ bundled then
              return .error (.configuration "trust policy sequence equivocation was rejected")
            else return .ok cached

/-- `new`. -/
def new : PolicyProg Unit := do
  match ← loadInitialPolicy env config with
  | .error error => ask (.report (.error error))
  | .ok policy => ask (.build policy)

/-- A call of `trust_policy`. -/
def call : PolicyProg Unit := do
  let result ← trustPolicy env config
  ask (.report result)

end SecureClient

/-! ## Clients over their journals -/

structure PolicyClient where
  config : PolicyConfig
  /-- The policy it holds, once `new` has returned. -/
  held : Option CachedTrustPolicy := none
  /-- The policies it has held. -/
  history : List TrustPolicy := []

/-- A policy that a call has returned, with the time the call has read. -/
structure ReturnedPolicy where
  client : Nat
  now : Nat
  policy : TrustPolicy
  deriving DecidableEq, Repr

structure PolicyWorld where
  /-- The journals. -/
  journals : String → Option PersistedTrustPolicy := fun _ => none
  clients : Nat → Option PolicyClient := fun _ => none
  nextClient : Nat := 0
  /-- The client of a task. -/
  owner : Nat → Nat := fun _ => 0
  /-- The time a task has read last. -/
  clocks : Nat → Option Nat := fun _ => none
  /-- The policy a task compares its candidate with. -/
  marks : Nat → Option TrustPolicy := fun _ => none
  returned : List ReturnedPolicy := []
  /-- The tasks that have changed a held policy or a journal. -/
  changed : List Nat := []
  /-- The tasks whose refresh has failed. -/
  failed : List Nat := []

/-- What the environment chooses in an effect. -/
inductive PolicyChoice where
  | go
  | time (now : Nat)
  /-- A monotonic instant. -/
  | instant (instant : Nat)
  | reply (wire : Except SecureClientError (Option String))
  | cancelled (cancelled : Bool)
  /-- An operation on a file fails. -/
  | fail (detail : String)
  /-- The journal is renamed into place, and syncing its directory fails. -/
  | unsynced

namespace PolicyWorld

variable (w : PolicyWorld) (i : Nat)

/-- The client of a task holds a policy. -/
def hold (c : Nat) (client : PolicyClient) (held : CachedTrustPolicy) : PolicyWorld :=
  { w with
    clients := Function.update w.clients c
      (some { client with held := some held, history := held.policy :: client.history }) }

/-- The journal at a path is written. -/
def write (path : String) (persisted : PersistedTrustPolicy) : PolicyWorld :=
  { w with
    journals := Function.update w.journals path (some persisted)
    changed := i :: w.changed }

/-- What `persist_policy` refuses before it writes. -/
def refusal (env : PolicyEnvironment) (path : String) (limit : Nat)
    (persisted : PersistedTrustPolicy) : Option SecureClientError :=
  if (w.journals path).any (·.highestSequence > persisted.highestSequence) then
    some (.configuration "trust policy rollback was rejected")
  else if env.encodedLength persisted > limit then
    some (.configuration "trust policy cache exceeds its configured bound")
  else none

end PolicyWorld

/-- An effect of a task of a client. -/
def policyExecIn (env : PolicyEnvironment) (w : PolicyWorld) (i c : Nat) (client : PolicyClient) :
    (e : PolicyEffect) → PolicyChoice → Option (PolicyWorld × e.Answer)
  | .now, .time now => some ({ w with clocks := Function.update w.clocks i (some now) }, now)
  | .cached, .instant instant => client.held.map fun held => (w, held, instant)
  | .fetch, .reply wire => some (w, wire)
  | .current, .go =>
    client.held.map fun held =>
      ({ w with marks := Function.update w.marks i (some held.policy) }, held.policy)
  | .persist path limit signedPolicy policy, .go =>
    let persisted : PersistedTrustPolicy := ⟨policy.sequence, signedPolicy⟩
    match w.refusal env path limit persisted with
    | some error => some (w, .error error)
    | none => some (w.write i path persisted, .ok ())
  | .persist path limit signedPolicy policy, .unsynced =>
    let persisted : PersistedTrustPolicy := ⟨policy.sequence, signedPolicy⟩
    match w.refusal env path limit persisted with
    | some error => some (w, .error error)
    | none =>
      some (w.write i path persisted,
        .error (.configuration "trust policy rollback journal could not be committed"))
  | .persist _ _ _ _, .fail detail => some (w, .error (.configuration detail))
  | .install candidate, .instant instant =>
    some ({ w.hold c client ⟨candidate, some instant⟩ with changed := i :: w.changed }, ())
  | .cancelled, .cancelled cancelled => some ({ w with failed := i :: w.failed }, cancelled)
  | .lastKnownGood now, .instant instant =>
    client.held.map fun held =>
      if held.policy.isValidAt now then
        ({ w with
            clients := Function.update w.clients c
              (some { client with held := some ⟨held.policy, some instant⟩ }) }, some held.policy)
      else (w, none)
  | .readPersisted path _, .go => some (w, .ok (w.journals path))
  | .readPersisted _ _, .fail detail => some (w, .error (.configuration detail))
  | .build policy, .go =>
    match client.held with
    | none => some (w.hold c client ⟨policy, none⟩, ())
    | some _ => none
  | .report (.ok policy), .go =>
    some ({ w with returned :=
      ((w.clocks i).map fun now => ⟨c, now, policy⟩).toList ++ w.returned }, ())
  | .report (.error _), .go => some (w, ())
  | _, _ => none

def policyExec (env : PolicyEnvironment) (w : PolicyWorld) (i : Nat) (e : PolicyEffect)
    (choice : PolicyChoice) : Option (PolicyWorld × e.Answer) :=
  match w.clients (w.owner i) with
  | some client => policyExecIn env w i (w.owner i) client e choice
  | none => none

inductive PolicyOperation where
  /-- `SecureClient::new`. -/
  | build (config : PolicyConfig)
  /-- `trust_policy` of a client. -/
  | call (client : Nat)
  deriving DecidableEq, Repr

/-- An operation begins. -/
def policyStart (env : PolicyEnvironment) (w : PolicyWorld) (task : Nat) :
    PolicyOperation → Option (PolicyWorld × PolicyProg Unit)
  | .build config =>
    some ({ w with
        clients := Function.update w.clients w.nextClient (some { config })
        nextClient := w.nextClient + 1
        owner := Function.update w.owner task w.nextClient },
      SecureClient.new env config)
  | .call c =>
    match w.clients c with
    | some client =>
      if client.held.isSome then
        some ({ w with owner := Function.update w.owner task c }, SecureClient.call env client.config)
      else none
    | none => none

/-- Clients over their journals. A client that ends takes no more steps; another one is built with
its path. -/
def policySystem (env : PolicyEnvironment) :
    TaskSystem PolicyWorld PolicyEffect PolicyEffect.Answer PolicyChoice Empty PolicyOperation where
  exec := policyExec env
  event _ e := nomatch e
  start := policyStart env

end AxiomDesktop
