import AxiomDesktop.Auth.Records
import AxiomDesktop.Lib.Tasks

/-!
# The manager of the native session

`AuthManager` as programs: what each operation asks of the shared state, of the system credential
store and its lock, and of the server, in the order of the source. Every `Effect` is one atomic
step; other tasks of the same manager, and other managers, take steps between any two of them.

A write to the credential store names what the caller has compared the stored value with
(`compared`); the store does not read it.
-/

namespace AxiomDesktop.Auth

/-- The end of a write to the credential store, as its caller sees it. -/
inductive Written where
  | ok
  | error (detail : String)
  /-- The caller goes on, and the write with it. -/
  | timedOut
  deriving DecidableEq, Repr

/-- What an operation reports. -/
inductive Report where
  | accessToken (result : Except AxiomError AccessTokenLease)
  | accountOperation (result : Except AxiomError AccountAccessTokenLease)
  | validation (status : VersionedValidationStatus)
  | login (result : Except AxiomError (Option AccountStatus))
  | loginStarted (result : Except AxiomError Nat)
  | logout (result : Except AxiomError Nat)
  | failed (error : AxiomError)

inductive Effect where
  /-- `Utc::now`. -/
  | now
  | state (op : StateOp)
  /-- `operations.lock_owned()`, which a cancellation may end. -/
  | lockOperations (cancellable : Bool)
  | unlockOperations
  /-- `acquire_refresh_file_lock`. -/
  | lock
  /-- The handle of the lock is dropped. -/
  | unlock
  /-- `CredentialStore::load`. -/
  | load
  | save (credential : String) (compared : Option String)
  | delete (compared : Option String)
  /-- `CredentialStore::delete`, waited for. -/
  | deleteNow (compared : Option String)
  /-- `POST /api/v1/auth/token/refresh`. -/
  | refresh (token : String)
  /-- `POST /api/v1/auth/native/exchange`. -/
  | exchange
  /-- `POST /api/v1/auth/native/authorizations` and what surrounds it. -/
  | createAuthorization
  /-- `GET /api/v1/auth/session`. -/
  | session (token : String)
  /-- `DELETE /api/v1/auth/session`. -/
  | revoke (token : String)
  /-- `new_with_paths` returns its manager. -/
  | build (state : AuthState) (available : Bool)
  | report (report : Report)

/-- The answers to an effect. -/
@[reducible] def Effect.Answer : Effect → Type
  | now => Nat
  | state _ => AuthState
  | lockOperations _ => Bool
  | lock => Except String Unit
  | load => Except String (Option String)
  | save _ _ | delete _ => Written
  | deleteNow _ => Except String Unit
  | refresh _ => RefreshReply
  | exchange => Except AxiomError ExchangeResponse
  | createAuthorization => Except AxiomError Unit
  | session _ => SessionReply
  | unlockOperations | unlock | revoke _ | build _ _ | report _ => Unit

/-- An operation of a manager. -/
abbrev Operation (α : Type) : Type := Prog Effect Effect.Answer α

namespace AuthManager

def ask (e : Effect) : Operation e.Answer := Prog.effect e

/-- A critical section that reads. -/
def read (what : StateRead) : Operation AuthState := ask (.state (.read what))

/-- A critical section that writes; the state it found. -/
def write (op : StateOp) : Operation AuthState := ask (.state op)

variable (env : AuthEnvironment)

def CREDENTIAL_TIMEOUT_MARKER : String :=
  "timed out; the system credential store remains unavailable"

/-- `credential_timeout_error`. -/
def credentialTimeoutError (label : String) : AxiomError :=
  .storage (label ++ " " ++ CREDENTIAL_TIMEOUT_MARKER)

/-- `detail.contains(CREDENTIAL_TIMEOUT_MARKER)`. -/
def containsMarker (detail : String) : Bool :=
  detail.toList.tails.any fun rest => CREDENTIAL_TIMEOUT_MARKER.toList.isPrefixOf rest

/-- `credential_operation_timed_out`. -/
def credentialOperationTimedOut : AxiomError → Bool
  | .storage detail => containsMarker detail
  | _ => false

def accountChanged : AxiomError :=
  .secureProvider "ACCOUNT_CHANGED"
    "the native account changed in another Axiom process; refresh account status"

def authenticationRequired : AxiomError :=
  .secureProvider "AUTHENTICATION_REQUIRED"
    "authentication required; sign in to your Axiom account"

/-! ## The credential store -/

/-- `clear_local_authorization`; the new revision. -/
def clearLocalAuthorization (unavailableDetail : Option String) : Operation Nat := do
  let state ← write (.clearLocalAuthorization unavailableDetail)
  return state.revision + 1

/-- `acquire_credential_lock`. -/
def acquireCredentialLock : Operation (Except AxiomError Unit) := do
  match ← ask .lock with
  | .ok () => return .ok ()
  | .error detail =>
    let error := AxiomError.storage detail
    let _ ← clearLocalAuthorization (some error.text)
    return .error error

/-- `load_persisted_credential`. -/
def loadPersistedCredential : Operation (Except AxiomError (Option String)) := do
  match ← ask .load with
  | .error detail => return .error (.storage detail)
  | .ok none => return .ok none
  | .ok (some value) =>
    match validateTokenShape value "stored refresh token" with
    | .error error => return .error error
    | .ok () => return .ok (some value)

/-- `save_persisted_credential`. -/
def savePersistedCredential (credential : String) (compared : Option String) :
    Operation (Except AxiomError Unit) := do
  match ← ask (.save credential compared) with
  | .ok => return .ok ()
  | .error detail => return .error (.storage detail)
  | .timedOut => return .error (credentialTimeoutError "credential persistence")

/-- `delete_persisted_credential`. -/
def deletePersistedCredential (compared : Option String) : Operation (Except String Unit) := do
  match ← ask (.delete compared) with
  | .ok => return .ok ()
  | .error detail => return .error detail
  | .timedOut => return .error (credentialTimeoutError "credential deletion").text

/-- The deletion of `delete_if_matches_and_clear_under_credential_lock`. -/
def deleteIfMatches (expectedRefresh : Option String) : Operation (Except String Unit) := do
  match ← loadPersistedCredential with
  | .error error => return .error error.text
  | .ok persisted =>
    if expectedRefresh.isSome ∧ persisted = expectedRefresh then
      deletePersistedCredential expectedRefresh
    else return .ok ()

/-- `delete_if_matches_and_clear_under_credential_lock`. -/
def deleteIfMatchesAndClear (expectedRefresh : Option String) : Operation (Except AxiomError Nat) := do
  match ← deleteIfMatches expectedRefresh with
  | .error detail =>
    let _ ← clearLocalAuthorization (some detail)
    return .error (.storage detail)
  | .ok () =>
    let revision ← clearLocalAuthorization none
    return .ok revision

/-- `delete_persisted_and_clear`. -/
def deletePersistedAndClear : Operation (Except AxiomError Nat) := do
  if (← read .source).source = .environment then
    return .error (.invalidTransition
      "AXIOM_API_KEY is controlled by the process environment; unset it to sign out")
  else
    let expectedRefresh := (← read .expectedRefresh).refreshToken
    match ← acquireCredentialLock with
    | .error error => return .error error
    | .ok () =>
      let result ← deleteIfMatchesAndClear expectedRefresh
      ask .unlock
      return result

/-- `clear_if_generation`. -/
def clearIfGeneration (generation : Nat) : Operation (Except AxiomError Nat) := do
  let _ ← ask (.lockOperations false)
  if (← read .clearedGeneration).generation ≠ generation then
    let revision := (← read .revision).revision
    ask .unlockOperations
    return .ok revision
  else
    let result ← deletePersistedAndClear
    ask .unlockOperations
    return result

/-! ## Committing a bundle -/

/-- A bundle that is not taken: its session is revoked. -/
def refuse (bundle : SessionBundle) (expectedRefresh : Option String) (error : AxiomError) :
    Operation (Except AxiomError AccountStatus) := do
  ask (.revoke bundle.accessToken)
  let _ ← deleteIfMatchesAndClear expectedRefresh
  return .error error

/-- `commit_bundle_under_credential_lock` behind its save. -/
def persistenceFailed (bundle : SessionBundle) (expectedRefresh : Option String)
    (error : AxiomError) : Operation (Except AxiomError AccountStatus) := do
  ask (.revoke bundle.accessToken)
  let detail :=
    "could not persist the rotated native session in the system credential store: " ++ error.text
  if credentialOperationTimedOut error then
    let _ ← clearLocalAuthorization (some detail)
    return .error (.storage detail)
  else
    let _ ← deleteIfMatchesAndClear expectedRefresh
    return .error (.storage detail)

/-- `commit_bundle_under_credential_lock` behind its checks. -/
def persistBundle (bundle : SessionBundle) (forceIdentityGeneration : Bool)
    (previousAccount expectedRefresh : Option String) :
    Operation (Except AxiomError AccountStatus) := do
  match ← loadPersistedCredential with
  | .error error =>
    ask (.revoke bundle.accessToken)
    let _ ← clearLocalAuthorization (some error.text)
    return .error error
  | .ok persisted =>
    if persisted ≠ expectedRefresh then
      ask (.revoke bundle.accessToken)
      let _ ← write (.adoptExternalCredential persisted)
      return .error accountChanged
    else
      match ← savePersistedCredential bundle.refreshToken expectedRefresh with
      | .error error => persistenceFailed bundle expectedRefresh error
      | .ok () =>
        let op := StateOp.commitBundle bundle forceIdentityGeneration previousAccount
        let state := (← write op).apply op
        return .ok
          { account := bundle.account, session := bundle.session, source := state.source,
            generation := state.generation, revision := state.revision }

/-- `commit_bundle_under_credential_lock`. -/
def commitBundleUnderCredentialLock (bundle : SessionBundle) (forceIdentityGeneration : Bool)
    (expectedRefresh : Option String) : Operation (Except AxiomError AccountStatus) := do
  let now ← ask .now
  match validateBundle env now bundle with
  | .error error => refuse bundle expectedRefresh error
  | .ok () =>
    let previousAccount := (← read .account).activeAccountId
    if forceIdentityGeneration = false ∧ previousAccount.any (· ≠ bundle.account.id) then
      refuse bundle expectedRefresh
        (.protocol "Axiom changed accounts during native-session rotation")
    else persistBundle bundle forceIdentityGeneration previousAccount expectedRefresh

/-- `commit_bundle`. -/
def commitBundle (bundle : SessionBundle) (forceIdentityGeneration : Bool) :
    Operation (Except AxiomError AccountStatus) := do
  let expectedRefresh := (← read .refreshToken).refreshToken
  match ← acquireCredentialLock with
  | .error error =>
    ask (.revoke bundle.accessToken)
    return .error error
  | .ok () =>
    let result ← commitBundleUnderCredentialLock env bundle forceIdentityGeneration expectedRefresh
    ask .unlock
    return result

/-! ## Refreshing -/

/-- A rotation that failed: the token is deleted and the local copy cleared. -/
def burn (refresh : String) (error : Option AxiomError → AxiomError) :
    Operation (Except AxiomError AccessTokenLease) := do
  match ← deleteIfMatchesAndClear (some refresh) with
  | .error failure => return .error (error (some failure))
  | .ok _ => return .error (error none)

/-- What is said of a credential that could not be cleared. -/
def clearSuffix : Option AxiomError → String
  | none => ""
  | some failure => "; the local credential could not be cleared cleanly: " ++ failure.text

/-- `refresh_under_lock` with a bundle. -/
def takeBundle (allowExternalChange changedExternally : Bool) (previousAccount : Option String)
    (refresh : String) (bundle : SessionBundle) : Operation (Except AxiomError AccessTokenLease) := do
  let switchedAccount := changedExternally && previousAccount.any (· ≠ bundle.account.id)
  if switchedAccount then
    let _ ← write (.adoptExternalCredential (some refresh))
  match ← commitBundleUnderCredentialLock env bundle false (some refresh) with
  | .error error => return .error error
  | .ok _ =>
    if switchedAccount ∧ allowExternalChange = false then return .error accountChanged
    else
      match (← read .token).accessToken with
      | some token => return .ok ⟨token.token, some token.expiresAt⟩
      | none => return .error (.storage "session refresh task failed")

/-- `refresh_under_lock` with its request. -/
def rotate (allowExternalChange changedExternally : Bool) (previousAccount : Option String)
    (refresh : String) : Operation (Except AxiomError AccessTokenLease) := do
  match ← ask (.refresh refresh) with
  | .lost error =>
    burn refresh fun failure =>
      .provider ("session refresh response was lost; sign in again" ++ clearSuffix failure ++ ": " ++
        error)
  | .unauthorized => burn refresh fun _ => authenticationRequired
  | .status code =>
    burn refresh fun failure =>
      .provider ("Axiom session refresh returned HTTP " ++ toString code ++
        "; sign in again because rotation may have consumed the prior token" ++ clearSuffix failure)
  | .malformed => burn refresh fun _ => .protocol "invalid session refresh response"
  | .response response =>
    match sessionBundle env response with
    | none => burn refresh fun _ => .protocol "session refresh omitted rotated tokens"
    | some bundle => takeBundle env allowExternalChange changedExternally previousAccount refresh bundle

/-- `refresh_under_lock`, with the lock held. -/
def refreshHolding (allowExternalChange : Bool) : Operation (Except AxiomError AccessTokenLease) := do
  match ← loadPersistedCredential with
  | .error error =>
    let _ ← clearLocalAuthorization (some error.text)
    return .error error
  | .ok persisted =>
    let localRefresh := (← read .refreshToken).refreshToken
    let changedExternally := decide (persisted ≠ localRefresh)
    let previousAccount := (← read .account).activeAccountId
    if changedExternally ∧ (previousAccount = none ∨ persisted = none) then
      let _ ← write (.adoptExternalCredential persisted)
      match persisted with
      | some refresh =>
        if allowExternalChange = false then return .error accountChanged
        else rotate env allowExternalChange changedExternally previousAccount refresh
      | none =>
        if allowExternalChange = false then return .error accountChanged
        else return .error authenticationRequired
    else
      match persisted with
      | some refresh => rotate env allowExternalChange changedExternally previousAccount refresh
      | none => return .error authenticationRequired

/-- `refresh_under_lock`. -/
def refreshUnderLock (allowExternalChange : Bool) : Operation (Except AxiomError AccessTokenLease) := do
  match ← acquireCredentialLock with
  | .error error => return .error error
  | .ok () =>
    let result ← refreshHolding env allowExternalChange
    ask .unlock
    return result

/-! ## Access tokens -/

/-- What the sections of `access_token_internal` find: a refusal, or the cached token. -/
def cachedLease (state : AuthState) (now minimumRemaining : Nat) (allowExternalChange : Bool) :
    Option (Except AxiomError AccessTokenLease) :=
  if state.externalChangePending ∧ allowExternalChange = false then some (.error accountChanged)
  else
    match state.accessToken with
    | some token =>
      if now + minimumRemaining < token.expiresAt then
        some (.ok ⟨token.token, some token.expiresAt⟩)
      else none
    | none => none

/-- `access_token_internal` behind the operations lock. -/
def accessTokenExclusive (minimumRemaining : Nat) (allowExternalChange : Bool) :
    Operation (Except AxiomError AccessTokenLease) := do
  let now ← ask .now
  match cachedLease (← read .token) now minimumRemaining allowExternalChange with
  | some result => return result
  | none => refreshUnderLock env allowExternalChange

/-- `access_token_internal`. -/
def accessTokenInternal (minimumRemaining : Nat) (cancellable allowExternalChange : Bool) :
    Operation (Except AxiomError AccessTokenLease) := do
  let now ← ask .now
  let state ← read .token
  match state.automationKey with
  | some key => return .ok ⟨key, none⟩
  | none =>
    match cachedLease state now minimumRemaining allowExternalChange with
    | some result => return result
    | none =>
      if ← ask (.lockOperations cancellable) then
        let result ← accessTokenExclusive env minimumRemaining allowExternalChange
        ask .unlockOperations
        return result
      else return .error .cancelled

/-- `access_token`. -/
def accessToken (minimumRemaining : Nat) : Operation (Except AxiomError AccessTokenLease) :=
  accessTokenInternal env minimumRemaining true false

/-- `access_token_for_account_operation`. -/
def accessTokenForAccountOperation : Operation (Except AxiomError AccountAccessTokenLease) := do
  if (← read .source).source = .environment then
    return .error (.invalidTransition
      "this operation requires a native Axiom account session; AXIOM_API_KEY is automation-only")
  else
    match ← accessToken env 30 with
    | .error error => return .error error
    | .ok access =>
      let state ← read .accountLease
      match state.activeAccountId with
      | none =>
        return .error (.invalidTransition
          "refresh account status before using account services")
      | some accountId => return .ok { access, accountId, generation := state.generation }

/-! ## Validation -/

/-- The end of a validation that clears the session. -/
def expire (generation revision : Nat) : Operation VersionedValidationStatus := do
  match ← clearIfGeneration generation with
  | .ok clearRevision => return ⟨.expired, clearRevision⟩
  | .error _ => return ⟨.expired, revision⟩

/-- `validate_with_revision` with an account and a session that pass their checks. -/
def publish (generation revision : Nat) (account : AccountProfile)
    (session : NativeSessionStatus) : Operation VersionedValidationStatus := do
  let state ← write (.publishAccount generation account session)
  if state.generation ≠ generation then
    return ⟨.unavailable
      "Axiom account changed while validation was in progress; retry validation", revision⟩
  else if state.mayPublish generation account then
    return ⟨.valid { account, session, source := state.source, generation, revision }, revision⟩
  else expire generation revision

/-- `validate_with_revision` with the reply of the server. -/
def validated (lease : AccessTokenLease) (generation revision : Nat) (reply : SessionReply) :
    Operation VersionedValidationStatus := do
  let unavailable (detail : String) : VersionedValidationStatus := ⟨.unavailable detail, revision⟩
  match reply with
  | .unreachable error =>
    return unavailable ("could not reach Axiom to validate this session: " ++ error)
  | .unauthorized => expire generation revision
  | .status code => return unavailable ("Axiom session validation returned HTTP " ++ toString code)
  | .malformed => return unavailable "Axiom returned an invalid session-validation response"
  | .response none _ =>
    return unavailable "Axiom omitted the account from an authenticated session"
  | .response (some account) session =>
    match validateAccount env account with
    | .error error => return unavailable error.text
    | .ok () =>
      let now ← ask .now
      let session : NativeSessionStatus :=
        session.getD { expiresAt := env.formatTime (lease.expiresAt.getD now) }
      match validateNativeSession env now session with
      | .error error => return unavailable error.text
      | .ok () => publish generation revision account session

/-- `validate_with_revision`. -/
def validateWithRevision : Operation VersionedValidationStatus := do
  let revision := (← write .nextRevision).revision + 1
  match (← read .unavailableDetail).unavailableDetail with
  | some detail => return ⟨.unavailable detail, revision⟩
  | none =>
    if (← read .credential).hasCredential = false then return ⟨.missing, revision⟩
    else
      match ← accessTokenInternal env 30 false true with
      | .error error =>
        if (← read .credential).hasCredential = false then
          return ⟨.expired, (← read .revision).revision⟩
        else return ⟨.unavailable error.text, revision⟩
      | .ok lease =>
        let generation := (← read .validatedGeneration).generation
        let reply ← ask (.session lease.token)
        validated env lease generation revision reply

/-! ## Login and logout -/

/-- `start_native_login`; the generation that the login holds. -/
def startNativeLogin : Operation (Except AxiomError Nat) := do
  if (← read .source).source = .environment then
    return .error (.invalidTransition
      "AXIOM_API_KEY is active; unset it before starting an account session")
  else
    match (← read .unavailableDetail).unavailableDetail with
    | some detail => return .error (.storage detail)
    | none =>
      match ← acquireCredentialLock with
      | .error error => return .error error
      | .ok () =>
        match ← loadPersistedCredential with
        | .error error =>
          let _ ← clearLocalAuthorization (some error.text)
          ask .unlock
          return .error error
        | .ok persisted =>
          if persisted ≠ (← read .refreshToken).refreshToken then
            let _ ← write (.adoptExternalCredential persisted)
          ask .unlock
          if (← read .credential).hasCredential then
            return .error (.invalidTransition
              "sign out of the current Axiom account before starting another native login")
          else
            let generation := (← read .generation).generation
            match ← ask .createAuthorization with
            | .error error => return .error error
            | .ok () => return .ok generation

/-- `finish_exchange`. -/
def finishExchange (response : ExchangeResponse) (expectedGeneration : Nat) :
    Operation (Except AxiomError AccountStatus) := do
  if response.status ≠ "complete" then
    return .error (.invalidTransition "authorization has not been approved yet")
  else
    match response.tokens.bind (sessionBundle env) with
    | none => return .error (.protocol "completed login omitted session tokens")
    | some bundle =>
      let _ ← ask (.lockOperations false)
      if (← read .generation).generation ≠ expectedGeneration then
        ask (.revoke bundle.accessToken)
        ask .unlockOperations
        return .error (.invalidTransition
          "Axiom authorization changed while browser sign-in was pending; start sign-in again")
      else
        let result ← commitBundle env bundle true
        ask .unlockOperations
        return result

/-- `poll_exchange` of a login that holds a generation. -/
def pollExchange (authGeneration : Nat) : Operation (Except AxiomError (Option AccountStatus)) := do
  match ← ask .exchange with
  | .error error => return .error error
  | .ok response =>
    if response.status = "pending" then return .ok none
    else
      match ← finishExchange env response authGeneration with
      | .error error => return .error error
      | .ok status => return .ok (some status)

/-- `logout_with_cancellation` behind its access token. -/
def logoutWith (bearer : Option AccessTokenLease) : Operation (Except AxiomError Nat) := do
  if ← ask (.lockOperations true) then
    match bearer with
    | some bearer => ask (.revoke bearer.token)
    | none => pure ()
    let result ← deletePersistedAndClear
    ask .unlockOperations
    return result
  else return .error .cancelled

/-- `logout_with_cancellation`. -/
def logoutWithCancellation : Operation (Except AxiomError Nat) := do
  if (← read .source).source = .environment then
    return .error (.invalidTransition
      "AXIOM_API_KEY is controlled by the process environment; unset it to sign out")
  else
    match ← accessToken env 0 with
    | .ok lease => logoutWith (some lease)
    | .error .cancelled => return .error .cancelled
    | .error _ => logoutWith none

/-! ## A new manager -/

/-- `new_with_paths`, where no automation key is set. -/
def newWithPaths : Operation Unit := do
  match ← ask .lock with
  | .error detail => ask (.report (.failed (.storage detail)))
  | .ok () =>
    match ← ask .load with
    | .error error =>
      let detail := "the system credential store is unavailable: " ++ error ++
        "; sign-in remains disabled until it is restored"
      ask (.build { unavailableDetail := some detail } false)
      ask .unlock
    | .ok none =>
      ask (.build {} true)
      ask .unlock
    | .ok (some value) =>
      if isTokenShape value then
        ask (.build { refreshToken := some value } true)
        ask .unlock
      else
        match ← ask (.deleteNow (some value)) with
        | .ok () =>
          ask (.build {} true)
          ask .unlock
        | .error error =>
          let detail :=
            "the system credential store contains an invalid native session and could not be " ++
              "cleared: " ++ error
          ask (.build { unavailableDetail := some detail } false)
          ask .unlock

end AuthManager

end AxiomDesktop.Auth
