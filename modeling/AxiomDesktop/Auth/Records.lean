import AxiomDesktop.Data.Text
import Mathlib.Tactic.Common

/-!
# The records of the native session

The data of `AuthManager`: accounts, sessions, bundles of tokens as the server sends them, and
`AuthState`, which each critical section reads or writes whole. A critical section is a `StateOp`,
named after the function that enters it.

Times are counted from an epoch. Parsing them and the URL of an avatar is taken from the
environment.
-/

namespace AxiomDesktop.Auth

inductive AxiomError where
  | config (detail : String)
  | invalidTransition (detail : String)
  | provider (detail : String)
  | storage (detail : String)
  | protocol (detail : String)
  | secureProvider (code message : String)
  | cancelled
  deriving DecidableEq, Repr

/-- `to_string` of an error. -/
def AxiomError.text : AxiomError → String
  | config detail => "invalid configuration: " ++ detail
  | invalidTransition detail => "invalid state transition: " ++ detail
  | provider detail => "provider error: " ++ detail
  | storage detail => "storage error: " ++ detail
  | protocol detail => "protocol error: " ++ detail
  | secureProvider _ message => message
  | cancelled => "operation cancelled"

inductive CredentialSource where
  | environment
  | systemKeyring
  deriving DecidableEq, Repr

inductive LoginMethod where
  | passkey
  | google
  | password
  | ethereumWallet
  deriving DecidableEq, Repr

structure AccountProfile where
  id : String
  displayName : Option String := none
  avatarUrl : Option String := none
  verifiedEmail : Option String := none
  linkedMethods : List LoginMethod := []
  deriving DecidableEq, Repr

/-- `NativeSessionStatus`, and `WireSession`, which has the same fields. -/
structure NativeSessionStatus where
  id : Option String := none
  expiresAt : String
  deriving DecidableEq, Repr

structure AccountStatus where
  account : AccountProfile
  session : NativeSessionStatus
  source : CredentialSource
  generation : Nat
  revision : Nat
  deriving DecidableEq, Repr

inductive ValidationStatus where
  | missing
  | valid (status : AccountStatus)
  | expired
  | unavailable (detail : String)
  deriving DecidableEq, Repr

structure VersionedValidationStatus where
  status : ValidationStatus
  revision : Nat
  deriving DecidableEq, Repr

structure AccessTokenLease where
  token : String
  expiresAt : Option Nat
  deriving DecidableEq, Repr

structure AccountAccessTokenLease where
  access : AccessTokenLease
  accountId : String
  generation : Nat
  deriving DecidableEq, Repr

structure CachedAccessToken where
  token : String
  expiresAt : Nat
  deriving DecidableEq, Repr

structure SessionBundle where
  accessToken : String
  accessExpiresAt : Nat
  refreshToken : String
  account : AccountProfile
  session : NativeSessionStatus
  deriving DecidableEq, Repr

/-! ## Checks -/

/-- What the checks take from their environment. -/
structure AuthEnvironment where
  /-- `DateTime::parse_from_rfc3339`. -/
  parseTime : String → Option Nat
  /-- `Utc::now().to_rfc3339()`, and that of a time. -/
  formatTime : Nat → String
  /-- `Url::parse` of an avatar: whether it has a host and no credentials, and is over https or to
  this machine. -/
  avatarUrl : String → Option Bool

def MAX_TOKEN_BYTES : Nat := 8 * 1024

/-- `is_ascii_graphic` of every byte: 0x21 to 0x7e. -/
def asciiGraphic (value : String) : Bool :=
  value.toList.all fun c => 0x21 ≤ c.toNat && c.toNat ≤ 0x7e

def isTokenShape (value : String) : Bool :=
  32 ≤ value.utf8ByteSize && value.utf8ByteSize ≤ MAX_TOKEN_BYTES && asciiGraphic value

/-- `validate_token_shape`. -/
def validateTokenShape (value label : String) : Except AxiomError Unit :=
  if isTokenShape value then .ok ()
  else .error (.protocol ("Axiom returned an invalid " ++ label))

/-- An identifier of an account or a session. -/
def isIdentifier (id : String) : Bool :=
  id ≠ "" && id.utf8ByteSize ≤ 128 && id.toList.all fun c => c.isAlphanum || c = '_' || c = '-'

/-- `validate_account`. -/
def validateAccount (env : AuthEnvironment) (account : AccountProfile) : Except AxiomError Unit :=
  if isIdentifier account.id = false ∨ 16 < account.linkedMethods.length then
    .error (.protocol "Axiom returned an invalid account profile")
  else if [account.displayName, account.verifiedEmail].reduceOption.any fun value =>
      320 < value.utf8ByteSize || value.toList.any Text.isControl then
    .error (.protocol "Axiom returned invalid account metadata")
  else
    match account.avatarUrl with
    | none => .ok ()
    | some url =>
      match env.avatarUrl url with
      | none => .error (.protocol "Axiom returned an invalid avatar URL")
      | some trusted =>
        if 2048 < url.utf8ByteSize ∨ trusted = false then
          .error (.protocol "Axiom returned an untrusted avatar URL")
        else .ok ()

/-- `validate_native_session`. -/
def validateNativeSession (env : AuthEnvironment) (now : Nat) (session : NativeSessionStatus) :
    Except AxiomError Unit :=
  if session.id.any (!isIdentifier ·) then
    .error (.protocol "Axiom returned an invalid session identifier")
  else
    match env.parseTime session.expiresAt with
    | none => .error (.protocol "Axiom returned invalid session expiry metadata")
    | some expiresAt =>
      if expiresAt ≤ now then .error (.protocol "Axiom returned an expired native session")
      else .ok ()

/-- `validate_bundle`. -/
def validateBundle (env : AuthEnvironment) (now : Nat) (bundle : SessionBundle) :
    Except AxiomError Unit := do
  validateTokenShape bundle.accessToken "access token"
  validateTokenShape bundle.refreshToken "refresh token"
  validateAccount env bundle.account
  validateNativeSession env now bundle.session
  if bundle.accessExpiresAt ≤ now then
    .error (.protocol "Axiom returned invalid session expiry metadata")
  else .ok ()

/-! ## Replies of the server -/

/-- The tokens of `RefreshResponse` and of a completed `ExchangeResponse`. -/
structure TokenResponse where
  tokenType : String
  accessToken : String
  accessExpiresAt : String
  refreshToken : String
  refreshExpiresAt : String
  account : AccountProfile
  session : NativeSessionStatus
  deriving DecidableEq, Repr

/-- `session_bundle`. -/
def sessionBundle (env : AuthEnvironment) (response : TokenResponse) : Option SessionBundle :=
  match env.parseTime response.refreshExpiresAt, env.parseTime response.session.expiresAt,
    env.parseTime response.accessExpiresAt with
  | some refreshExpiresAt, some sessionExpiresAt, some accessExpiresAt =>
    if response.tokenType.toLower ≠ "bearer" ∨ refreshExpiresAt ≠ sessionExpiresAt then none
    else
      some
        { accessToken := response.accessToken
          accessExpiresAt
          refreshToken := response.refreshToken
          account := response.account
          session := response.session }
  | _, _, _ => none

/-- The reply to a refresh. -/
inductive RefreshReply where
  | lost (error : String)
  | unauthorized
  | status (code : Nat)
  /-- A body that is no `RefreshResponse`. -/
  | malformed
  | response (response : TokenResponse)
  deriving DecidableEq, Repr

/-- `ExchangeResponse`; the tokens are there together, or none is taken. -/
structure ExchangeResponse where
  status : String
  tokens : Option TokenResponse := none
  deriving DecidableEq, Repr

/-- The reply to the validation of a session. -/
inductive SessionReply where
  | unreachable (error : String)
  | unauthorized
  | status (code : Nat)
  /-- A body that is no `SessionResponse`, or not an authenticated one. -/
  | malformed
  | response (account : Option AccountProfile) (session : Option NativeSessionStatus)
  deriving DecidableEq, Repr

/-! ## The state -/

structure AuthState where
  automationKey : Option String := none
  refreshToken : Option String := none
  accessToken : Option CachedAccessToken := none
  account : Option AccountProfile := none
  session : Option NativeSessionStatus := none
  source : CredentialSource := .systemKeyring
  generation : Nat := 0
  revision : Nat := 0
  unavailableDetail : Option String := none
  externalChangePending : Bool := false
  deriving DecidableEq, Repr

/-- What a critical section that only reads is for. -/
inductive StateRead where
  | source
  | revision
  | unavailableDetail
  | credential
  | refreshToken
  | account
  /-- `generation`, of a login. -/
  | generation
  /-- The cached access token, for a lease. -/
  | token
  /-- `generation` of `validate_with_revision`, behind its token. -/
  | validatedGeneration
  /-- The last section of `access_token_for_account_operation`. -/
  | accountLease
  /-- `generation` of `clear_if_generation`. -/
  | clearedGeneration
  /-- The refresh token `delete_persisted_and_clear` expects. -/
  | expectedRefresh
  deriving DecidableEq, Repr

/-- A critical section. -/
inductive StateOp where
  | read (what : StateRead)
  | nextRevision
  | adoptExternalCredential (credential : Option String)
  | clearLocalAuthorization (unavailableDetail : Option String)
  /-- The last section of `commit_bundle_under_credential_lock`. -/
  | commitBundle (bundle : SessionBundle) (forceIdentityGeneration : Bool)
      (previousAccount : Option String)
  /-- The last section of `validate_with_revision`. -/
  | publishAccount (generation : Nat) (account : AccountProfile) (session : NativeSessionStatus)
  deriving DecidableEq, Repr

namespace AuthState

variable (s : AuthState)

/-- `has_credential`. -/
def hasCredential : Bool := s.automationKey.isSome || s.refreshToken.isSome

/-- `active_account_id`. -/
def activeAccountId : Option String := s.account.map (·.id)

/-- A validation may publish its account: the generation is the one it read, and no other account
is there. -/
def mayPublish (generation : Nat) (account : AccountProfile) : Bool :=
  s.generation = generation && s.activeAccountId.all (· = account.id)

/-- The state after a critical section. -/
def apply : StateOp → AuthState
  | .read _ => s
  | .nextRevision => { s with revision := s.revision + 1 }
  | .adoptExternalCredential credential =>
    { s with
      refreshToken := credential
      accessToken := none
      account := none
      session := none
      unavailableDetail := none
      externalChangePending := credential.isSome
      generation := s.generation + 1
      revision := s.revision + 1 }
  | .clearLocalAuthorization unavailableDetail =>
    { s with
      refreshToken := none
      accessToken := none
      account := none
      session := none
      unavailableDetail
      externalChangePending := false
      generation := s.generation + 1
      revision := s.revision + 1 }
  | .commitBundle bundle forceIdentityGeneration previousAccount =>
    { s with
      refreshToken := some bundle.refreshToken
      accessToken := some ⟨bundle.accessToken, bundle.accessExpiresAt⟩
      account := some bundle.account
      session := some bundle.session
      unavailableDetail := none
      externalChangePending := !forceIdentityGeneration && s.externalChangePending
      generation :=
        if forceIdentityGeneration ∨ previousAccount ≠ some bundle.account.id then s.generation + 1
        else s.generation
      revision := s.revision + 1 }
  | .publishAccount generation account session =>
    if s.mayPublish generation account then
      { s with account := some account, session := some session, externalChangePending := false }
    else s

end AuthState

end AxiomDesktop.Auth
