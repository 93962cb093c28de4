import AxiomDesktop.Lib.Tasks
import AxiomDesktop.Policy.Effect
import AxiomDesktop.SecureClient.Relay
import AxiomDesktop.Web.Address
import Mathlib.Data.List.Infix

/-!
# Outbound connections

`SafeFetcher.fetch` (`SafeFetcher::fetch`), which follows the redirects of a page, and
`pinnedClient` (`pinned_client`), which makes an HTTP client for a provider. Both look the
addresses of a host up and connect to these addresses only. What a lookup returns, what a server
answers and which of its addresses a client takes is chosen by the environment; any number of
fetches and clients interleave.
-/

namespace AxiomDesktop

/-! ## URLs -/

/-- `Url::port_or_known_default`. -/
def Url.portOrKnownDefault (url : Url) : Option Nat :=
  url.port.or <|
    match url.scheme with
    | "http" | "ws" => some 80
    | "https" | "wss" => some 443
    | "ftp" => some 21
    | _ => none

/-- `Url::parse` and `Url::join`, and what the standard library reads of texts. -/
structure UrlLibrary where
  parse : String → Except String Url
  join : Url → String → Except String Url
  /-- `str::parse` of an address. -/
  parseIp : String → Option IpAddr
  /-- `String::from_utf8_lossy`. -/
  lossy : List UInt8 → String

/-! ## Programs -/

/-- What a server sends before its body. -/
structure FetchResponse where
  status : Nat
  /-- The status as it is printed. -/
  statusText : String
  /-- A `Location` that is visible text. -/
  location : Option String
  contentLength : Option Nat
  contentType : Option String

structure FetchResult where
  finalUrl : Url
  contentType : Option String
  content : String
  truncated : Bool
  provenance : String

inductive SendAnswer where
  | cancelled
  | failed (error : String)
  | response (response : FetchResponse)

/-- What a stream gives: the chunks up to its end, as far as anyone reads them. -/
inductive BodyAnswer where
  | cancelled
  | failed (error : String)
  | chunks (chunks : List (List UInt8))

inductive LookupAnswer where
  | timedOut
  | failed (error : String)
  | addresses (addresses : List SocketAddr)

structure EndpointPolicy where
  requireHttps : Bool := true
  rejectLocalAddresses : Bool := true
  allowRedirects : Bool := false

/-- A client for one host, with the addresses it may connect to for it. -/
structure PinnedClient where
  host : String
  addresses : List SocketAddr
  policy : EndpointPolicy

inductive OutboundEffect where
  /-- `fetch` is called. -/
  | called (input : String)
  /-- `lookup_host`. -/
  | lookup (host : String) (port : Nat)
  /-- `lookup_host` within a time limit. -/
  | lookupWithin (seconds : Nat) (host : String) (port : Nat)
  /-- `build` of the client of a hop. -/
  | build (host : String) (addresses : List SocketAddr)
  /-- `client.get(url).send()`. -/
  | send (url : Url) (host : String) (addresses : List SocketAddr)
  /-- `bytes_stream`. -/
  | body
  /-- `build` of a client for a provider. -/
  | client (client : PinnedClient)
  | fetched (result : Except AxiomError FetchResult)

@[reducible] def OutboundEffect.Answer : OutboundEffect → Type
  | called _ => Unit
  | lookup _ _ => Except String (List SocketAddr)
  | lookupWithin _ _ _ => LookupAnswer
  | build _ _ => Except String Unit
  | send _ _ _ => SendAnswer
  | body => BodyAnswer
  | client _ => Bool
  | fetched _ => Unit

/-- A program that connects to other machines. -/
abbrev OutboundProg (α : Type) : Type := Prog OutboundEffect OutboundEffect.Answer α

def OutboundEffect.ask (e : OutboundEffect) : OutboundProg e.Answer := Prog.effect e

/-! ## The fetcher -/

/-- `strip_html`, from a state of its loop. -/
def stripTags : Bool → Bool → List Char → List Char
  | _, _, [] => []
  | inTag, lastWasSpace, c :: rest =>
    if c = '<' then stripTags true lastWasSpace rest
    else if c = '>' then
      if lastWasSpace then stripTags false true rest else ' ' :: stripTags false true rest
    else if inTag then stripTags inTag lastWasSpace rest
    else if Text.isWhitespace c then
      if lastWasSpace then stripTags inTag true rest else ' ' :: stripTags inTag true rest
    else c :: stripTags inTag false rest

/-- `strip_html`. -/
def stripHtml (input : String) : String :=
  Text.trim (String.ofList (stripTags false false input.toList))

/-- `validate_resolved_addresses`. -/
def validateResolvedAddresses (addresses : List SocketAddr) : Except AxiomError Unit :=
  if addresses.isEmpty || addresses.any fun address => !isPublicIp address.ip then
    .error (.permissionDenied "destination resolves to a non-public address")
  else .ok ()

/-- A text contains another one. -/
def containsText (text : String) (part : String) : Bool := part.toList <:+: text.toList

/-- A host that names the own machine or network. -/
def isLocalName (host : String) : Bool :=
  let lowercase := host.toList.map Char.toLower
  lowercase = "localhost".toList || ".localhost".toList.isSuffixOf lowercase ||
    ".local".toList.isSuffixOf lowercase || ".internal".toList.isSuffixOf lowercase

structure SafeFetcher where
  maxBytes : Nat
  maxRedirects : Nat

namespace SafeFetcher

/-- `SafeFetcher::new`. -/
def new (maxBytes : Nat) : SafeFetcher :=
  { maxBytes := max 1024 (min maxBytes (4 * 1024 * 1024)), maxRedirects := 5 }

/-- The checks of `validate_public_destination` before the lookup: the host and the port. -/
def checkDestination (url : Url) : Except AxiomError (String × Nat) :=
  if url.scheme ≠ "http" ∧ url.scheme ≠ "https" then
    .error (.permissionDenied "fetch permits only http and https")
  else if ¬ url.username.isEmpty ∨ url.password.isSome then
    .error (.permissionDenied "credential-bearing URLs are not allowed")
  else
    match url.host with
    | none => .error (.tool "fetch URL has no host")
    | some host =>
      if isLocalName host then
        .error (.permissionDenied "local network destinations are blocked")
      else
        match url.portOrKnownDefault with
        | none => .error (.tool "URL has no usable port")
        | some port => .ok (host, port)

/-- `validate_public_destination`, with the host that it has looked up. -/
def validatePublicDestination (url : Url) :
    OutboundProg (Except AxiomError (String × List SocketAddr)) := do
  match checkDestination url with
  | .error error => return .error error
  | .ok (host, port) =>
    match ← OutboundEffect.ask (.lookup host port) with
    | .error error => return .error (.tool ("DNS lookup failed: " ++ error))
    | .ok addresses =>
      return (validateResolvedAddresses addresses).map fun () => (host, addresses)

/-- The content types that are text. -/
def isTextReadable (kind : String) : Bool :=
  Text.startsWith "text/" kind || containsText kind "json" || containsText kind "xml" ||
    containsText kind "javascript"

/-- The checks of a response that is no redirect. -/
def checkResponse (fetcher : SafeFetcher) (response : FetchResponse) : Except AxiomError Unit :=
  if response.status ≠ 200 then
    .error (.tool ("fetch returned HTTP " ++ response.statusText))
  else if response.contentLength.any (fetcher.maxBytes < ·) then
    .error (.tool "fetch body exceeds size limit")
  else if response.contentType.any (!isTextReadable ·) then
    .error (.tool ("fetch content type is not text-readable: " ++ response.contentType.getD ""))
  else .ok ()

/-- The loop over the chunks of a body; it ends behind the one that is cut. -/
def collect (fetcher : SafeFetcher) : List UInt8 → List (List UInt8) → List UInt8 × Bool
  | bytes, [] => (bytes, false)
  | bytes, chunk :: rest =>
    let remaining := fetcher.maxBytes - bytes.length
    let bytes := bytes ++ chunk.take remaining
    if remaining < chunk.length then (bytes, true) else collect fetcher bytes rest

/-- What a response comes to. -/
def finish (library : UrlLibrary) (fetcher : SafeFetcher) (url : Url) (response : FetchResponse) :
    OutboundProg (Except AxiomError FetchResult) := do
  match fetcher.checkResponse response with
  | .error error => return .error error
  | .ok () =>
    match ← OutboundEffect.ask .body with
    | .cancelled => return .error .cancelled
    | .failed error => return .error (.tool error)
    | .chunks chunks =>
      let (bytes, truncated) := fetcher.collect [] chunks
      let text := library.lossy bytes
      return .ok
        { finalUrl := url, contentType := response.contentType
          content := if response.contentType.any (containsText · "html") then stripHtml text else text
          truncated, provenance := "direct local fetch (untrusted content)" }

/-- Where a redirect leads. -/
def redirectTarget (library : UrlLibrary) (url : Url) (response : FetchResponse) :
    Except AxiomError Url :=
  match response.location with
  | none => .error (.tool "redirect has no valid Location")
  | some location =>
    (library.join url location).mapError fun error => .tool ("invalid redirect: " ++ error)

/-- The request of a hop, through a client of its own. -/
def hop (url : Url) : OutboundProg (Except AxiomError FetchResponse) := do
  match ← validatePublicDestination url with
  | .error error => return .error error
  | .ok (host, resolved) =>
    match ← OutboundEffect.ask (.build host resolved) with
    | .error error => return .error (.tool error)
    | .ok () =>
      match ← OutboundEffect.ask (.send url host resolved) with
      | .cancelled => return .error .cancelled
      | .failed error => return .error (.tool ("fetch failed: " ++ error))
      | .response response => return .ok response

/-- `is_redirection`. -/
def isRedirection (response : FetchResponse) : Bool :=
  300 ≤ response.status && response.status < 400

/-- The loop over the hops, with the redirects that are left. -/
def follow (library : UrlLibrary) (fetcher : SafeFetcher) :
    Nat → Url → OutboundProg (Except AxiomError FetchResult)
  | 0, url => do
    match ← hop url with
    | .error error => return .error error
    | .ok response =>
      if isRedirection response then return .error (.tool "too many redirects")
      else finish library fetcher url response
  | redirects + 1, url => do
    match ← hop url with
    | .error error => return .error error
    | .ok response =>
      if isRedirection response then
        match redirectTarget library url response with
        | .error error => return .error error
        | .ok url => follow library fetcher redirects url
      else finish library fetcher url response

/-- `SafeFetcher::fetch`. -/
def fetch (library : UrlLibrary) (fetcher : SafeFetcher) (input : String) :
    OutboundProg (Except AxiomError FetchResult) :=
  match library.parse input with
  | .error error => return .error (.tool ("invalid fetch URL: " ++ error))
  | .ok url => follow library fetcher fetcher.maxRedirects url

/-- A call of `fetch`, with its beginning and its return. -/
def call (library : UrlLibrary) (fetcher : SafeFetcher) (input : String) : OutboundProg Unit := do
  OutboundEffect.ask (.called input)
  let result ← fetch library fetcher input
  OutboundEffect.ask (.fetched result)

end SafeFetcher

/-! ## Clients for providers -/

namespace SecureClient

/-- The addresses of a host: the one that it spells, or those of a lookup. -/
def endpointAddresses (library : UrlLibrary) (host : String) (port : Nat) :
    OutboundProg (Except SecureClientError (List SocketAddr)) := do
  match library.parseIp host with
  | some ip => return .ok [⟨ip, port⟩]
  | none =>
    match ← OutboundEffect.ask (.lookupWithin 15 host port) with
    | .timedOut =>
      return .error (.new .sessionEstablishment "endpoint DNS resolution timed out")
    | .failed _ => return .error (.new .sessionEstablishment "endpoint DNS resolution failed")
    | .addresses addresses => return .ok addresses.dedup

/-- `pinned_client`. -/
def pinnedClient (library : UrlLibrary) (url : Url) (endpointPolicy : EndpointPolicy) :
    OutboundProg (Except SecureClientError PinnedClient) := do
  match url.host with
  | none => return .error (.new .invalidResponse "endpoint URL has no host")
  | some host =>
    match url.portOrKnownDefault with
    | none => return .error (.new .invalidResponse "endpoint URL has no usable port")
    | some port =>
      match ← endpointAddresses library host port with
      | .error error => return .error error
      | .ok addresses =>
        if addresses.isEmpty ||
            endpointPolicy.rejectLocalAddresses &&
              addresses.any fun address => !isPublicAddress address.ip then
          return .error (.new .sessionEstablishment "endpoint resolved to a disallowed address")
        else
          let client : PinnedClient := { host, addresses, policy := endpointPolicy }
          if ← OutboundEffect.ask (.client client) then return .ok client
          else return .error (.new .sessionEstablishment "HTTP client construction failed")

end SecureClient

/-! ## Connections -/

/-- A lookup, with its answer. -/
structure Lookup where
  host : String
  port : Nat
  addresses : List SocketAddr
  deriving DecidableEq

/-- A request of a fetch: the addresses that its client was given, the last lookup of the fetch
since its request before, and the address it has connected to, if any. -/
structure FetchRequest where
  url : Url
  host : String
  addresses : List SocketAddr
  lookup : Option Lookup
  connection : Option SocketAddr

/-- A connection of a client for a provider. -/
structure PinnedConnection where
  client : Nat
  address : SocketAddr

structure OutboundWorld where
  /-- What the fetch of a task was called with. -/
  inputs : Nat → Option String := fun _ => none
  /-- The last lookup of a task since its last request. -/
  lookups : Nat → Option Lookup := fun _ => none
  /-- The requests of a task. -/
  requests : Nat → List FetchRequest := fun _ => []
  clients : List PinnedClient := []
  connections : List PinnedConnection := []

/-- What the environment chooses in an effect. -/
inductive OutboundChoice where
  | go
  | lookup (answer : Except String (List SocketAddr))
  | lookupWithin (answer : LookupAnswer)
  | build (answer : Except String Unit)
  | send (connection : Option SocketAddr) (answer : SendAnswer)
  | body (answer : BodyAnswer)
  | client (built : Bool)

/-- An operation: a fetch, or the making of a client for a provider. -/
inductive OutboundOperation where
  | fetch (maxBytes : Nat) (input : String)
  | pinned (url : Url) (policy : EndpointPolicy)

/-- A client for a provider connects to an address. -/
structure OutboundEvent where
  client : Nat
  address : SocketAddr

namespace OutboundWorld

variable (w : OutboundWorld)

/-- A task has sent a request. -/
def request (i : Nat) (url : Url) (host : String) (addresses : List SocketAddr)
    (connection : Option SocketAddr) : OutboundWorld :=
  { w with
    requests := Function.update w.requests i
      (w.requests i ++ [⟨url, host, addresses, w.lookups i, connection⟩])
    lookups := Function.update w.lookups i none }

end OutboundWorld

def outboundExec (w : OutboundWorld) (i : Nat) :
    (e : OutboundEffect) → OutboundChoice → Option (OutboundWorld × e.Answer)
  | .called input, .go => some ({ w with inputs := Function.update w.inputs i (some input) }, ())
  | .lookup host port, .lookup answer =>
    some ({ w with
      lookups := Function.update w.lookups i (answer.toOption.map fun as => ⟨host, port, as⟩) },
      answer)
  | .lookupWithin _ _ _, .lookupWithin answer => some (w, answer)
  | .build _ _, .build answer => some (w, answer)
  | .send url host addresses, .send connection answer =>
    -- A client connects to the addresses that it was given.
    if connection.all (· ∈ addresses) then
      some (w.request i url host addresses connection, answer)
    else none
  | .body, .body answer => some (w, answer)
  | .client client, .client built =>
    some (if built then { w with clients := w.clients ++ [client] } else w, built)
  | .fetched _, .go => some (w, ())
  | _, _ => none

/-- A client connects to the addresses that were pinned for its host. -/
def outboundEvent (w : OutboundWorld) (event : OutboundEvent) : Option OutboundWorld :=
  match w.clients[event.client]? with
  | some client =>
    if event.address ∈ client.addresses then
      some { w with connections := ⟨event.client, event.address⟩ :: w.connections }
    else none
  | none => none

/-- An operation begins. -/
def outboundStart (library : UrlLibrary) (w : OutboundWorld) (_task : Nat) :
    OutboundOperation → Option (OutboundWorld × OutboundProg Unit)
  | .fetch maxBytes input => some (w, (SafeFetcher.new maxBytes).call library input)
  | .pinned url policy => some (w, do let _ ← SecureClient.pinnedClient library url policy)

/-- The outbound connections of a process. -/
def outboundSystem (library : UrlLibrary) :
    TaskSystem OutboundWorld OutboundEffect OutboundEffect.Answer OutboundChoice OutboundEvent
      OutboundOperation where
  exec := outboundExec
  event := outboundEvent
  start := outboundStart library

end AxiomDesktop
