import AxiomDesktop.Web.Outbound

/-!
# Local addresses are refused

Every request of a fetch goes to a URL that was checked, through a client that was given the
addresses of a lookup of this hop, all of them public, and a fetch sends at most six requests
(`FetchRequest.Validated`). A client for a provider connects only to addresses that its
classifier has accepted; that classifier does not look into the IPv6 spelling of an IPv4
address, so the addresses are as they should be exactly when none of them is such a spelling of
a rejected one, `local_addresses_refused`.
-/

namespace AxiomDesktop

/-! ## What a fetch knows -/

/-- What a fetch has done. -/
structure Fetching where
  input : Option String := none
  /-- Its last lookup since its last request. -/
  looked : Option Lookup := none
  /-- The URLs that it has requested. -/
  sent : List Url := []

/-- A URL that a fetch may go to next: its own one, or one that a redirect leads to. -/
def Fetching.Next (library : UrlLibrary) (φ : Fetching) (url : Url) : Prop :=
  φ.sent = [] ∧ (∃ input, φ.input = some input ∧ library.parse input = .ok url) ∨
    ∃ previous location, φ.sent.getLast? = some previous ∧
      library.join previous location = .ok url

/-- The addresses are those of the lookup for the host of a URL, and public. -/
def Validated (url : Url) (host : String) (addresses : List SocketAddr) (looked : Option Lookup) :
    Prop :=
  (∃ port, SafeFetcher.checkDestination url = .ok (host, port) ∧
    looked = some ⟨host, port, addresses⟩) ∧
  ∀ address ∈ addresses, isPublicIp address.ip = true

/-- What the addresses of a client for a provider have passed. -/
def PinnedClient.Accepted (client : PinnedClient) : Prop :=
  client.policy.rejectLocalAddresses = true →
    ∀ address ∈ client.addresses, isPublicAddress address.ip = true

/-- What a fetch has done, and what it needs of that. -/
def fetching (library : UrlLibrary) :
    Protocol OutboundEffect OutboundEffect.Answer Fetching where
  requires
    | .called _, φ => φ.sent = []
    | .send url host addresses, φ =>
      Validated url host addresses φ.looked ∧ φ.Next library url ∧ φ.sent.length ≤ 5
    | .client client, _ => client.Accepted
    | _, _ => True
  admits _ _ _ := True
  next
    | .called input, φ, _ => { φ with input := some input }
    | .lookup host port, φ, answer =>
      { φ with looked := answer.toOption.map fun addresses => ⟨host, port, addresses⟩ }
    | .send url _ _, φ, _ => { φ with looked := none, sent := φ.sent ++ [url] }
    | _, φ, _ => φ

namespace Fetching

variable {library : UrlLibrary} {φ : Fetching}

/-- The task keeps to the protocol and ends in `Q`. -/
abbrev Keeps (library : UrlLibrary) {α : Type} (p : OutboundProg α) (Q : α → Fetching → Prop)
    (φ : Fetching) : Prop :=
  (fetching library).Keeps p Q φ

/-- A destination that is validated was looked up for it. -/
theorem keeps_validatePublicDestination {url : Url} :
    Keeps library (SafeFetcher.validatePublicDestination url)
      (fun result φ' => φ'.input = φ.input ∧ φ'.sent = φ.sent ∧ ∀ host addresses,
        result = .ok (host, addresses) → Validated url host addresses φ'.looked) φ := by
  unfold SafeFetcher.validatePublicDestination
  split
  · exact ⟨rfl, rfl, nofun⟩
  · next host port hcheck =>
    refine ⟨trivial, ?_⟩
    rintro (error | addresses) -
    · exact ⟨rfl, rfl, nofun⟩
    · refine ⟨rfl, rfl, fun host' addresses' hok => ?_⟩
      unfold validateResolvedAddresses at hok
      split at hok
      · cases hok
      · next hpublic =>
        cases hok
        refine ⟨⟨port, hcheck, rfl⟩, fun address haddress => ?_⟩
        simp only [Bool.or_eq_true, List.any_eq_true, not_or, not_exists, not_and] at hpublic
        simpa using hpublic.2 address haddress

/-- A response that is no redirect ends a fetch. -/
theorem keeps_finish {fetcher : SafeFetcher} {url : Url} {response : FetchResponse} :
    Keeps library (SafeFetcher.finish library fetcher url response) (fun _ _ => True) φ := by
  unfold SafeFetcher.finish
  split
  · trivial
  · refine ⟨trivial, ?_⟩
    rintro (_ | _ | _) - <;> trivial

/-- A request is sent where the fetch may go next. -/
theorem keeps_hop {url : Url} (hnext : φ.Next library url) (hcount : φ.sent.length ≤ 5) :
    Keeps library (SafeFetcher.hop url)
      (fun result φ' => ∀ response, result = .ok response → φ'.sent = φ.sent ++ [url]) φ := by
  unfold SafeFetcher.hop
  refine Protocol.Keeps.bind _ keeps_validatePublicDestination ?_
  rintro (error | ⟨host, addresses⟩) φ' ⟨hinput, hsent, hvalidated⟩
  · exact nofun
  · refine ⟨trivial, ?_⟩
    rintro (error | ⟨⟩) -
    · exact nofun
    · have hnext' : φ'.Next library url := by rwa [Next, hinput, hsent]
      refine ⟨⟨hvalidated host addresses rfl, hnext', hsent ▸ hcount⟩, ?_⟩
      rintro (_ | error | response) -
      · exact nofun
      · exact nofun
      · intro response' hresponse
        show φ'.sent ++ [url] = _
        rw [hsent]

/-- **The loop over the hops**: by induction on the redirects that are left, which make five with
the requests that were sent. -/
theorem keeps_follow {fetcher : SafeFetcher} {redirects : Nat} {url : Url}
    (hnext : φ.Next library url) (hcount : φ.sent.length + redirects ≤ 5) :
    Keeps library (SafeFetcher.follow library fetcher redirects url) (fun _ _ => True) φ := by
  induction redirects generalizing φ url with
  | zero =>
    refine Protocol.Keeps.bind _ (keeps_hop hnext hcount) ?_
    rintro (error | response) φ' -
    · trivial
    · show Keeps library (if _ then _ else _) _ _
      split
      · trivial
      · exact keeps_finish
  | succ redirects ih =>
    refine Protocol.Keeps.bind _ (keeps_hop hnext (by omega)) ?_
    rintro (error | response) φ' hsent
    · trivial
    · have hsent := hsent response rfl
      show Keeps library (if _ then _ else _) _ _
      split
      · split
        · trivial
        · next target htarget =>
          refine ih (.inr ⟨url, ?_⟩) (by rw [hsent, List.length_append, List.length_singleton]; omega)
          unfold SafeFetcher.redirectTarget at htarget
          split at htarget
          · cases htarget
          · next location hlocation =>
            refine ⟨location, by rw [hsent, List.getLast?_concat], ?_⟩
            cases hjoin : library.join url location with
            | error error =>
              rw [hjoin] at htarget
              cases htarget
            | ok joined =>
              rw [hjoin] at htarget
              cases htarget
              rfl
      · exact keeps_finish

theorem keeps_call {maxBytes : Nat} {input : String} :
    Keeps library ((SafeFetcher.new maxBytes).call library input) (fun _ _ => True) {} := by
  refine (fetching library).keeps_effect_bind.mpr ⟨rfl, ?_⟩
  intro _ _
  refine Protocol.Keeps.bind _ (Q := fun _ _ => True) ?_ fun _ _ _ => ⟨trivial, fun _ _ => trivial⟩
  unfold SafeFetcher.fetch
  split
  · trivial
  · next url hparse => exact keeps_follow (.inl ⟨rfl, input, rfl, hparse⟩) (Nat.le_refl 5)

/-- **The making of a client for a provider.** -/
theorem keeps_pinnedClient {url : Url} {policy : EndpointPolicy} :
    Keeps library (SecureClient.pinnedClient library url policy) (fun _ _ => True) φ := by
  unfold SecureClient.pinnedClient
  split
  · trivial
  · split
    · trivial
    · refine Protocol.Keeps.bind _ (Q := fun _ φ' => φ' = φ) ?_ ?_
      · unfold SecureClient.endpointAddresses
        split
        · rfl
        · refine ⟨trivial, ?_⟩
          rintro (_ | error | addresses) - <;> rfl
      · rintro (error | addresses) φ' rfl
        · trivial
        · show Keeps library (if _ then _ else _) _ _
          split
          · trivial
          · next haccepted =>
            refine ⟨fun hreject address haddress => ?_, ?_⟩
            · simp only [Bool.or_eq_true, Bool.and_eq_true, List.any_eq_true, not_or, not_and,
                not_exists] at haccepted
              simpa using haccepted.2 hreject address haddress
            · rintro (_ | _) - <;> trivial

end Fetching

/-! ## What an effect does -/

/-- A request of a fetch, with what was validated for this hop. -/
structure FetchRequest.Validated (r : FetchRequest) : Prop where
  /-- The host and the port of the URL are those of the last lookup, and so are the addresses. -/
  looked : ∃ port, SafeFetcher.checkDestination r.url = .ok (r.host, port) ∧
    r.lookup = some ⟨r.host, port, r.addresses⟩
  refused : ∀ address ∈ r.addresses, ¬ address.ip.Refused isPublicV4
  connected : ∀ address, r.connection = some address → address ∈ r.addresses

/-- What the state has of a fetch is what the fetch knows. -/
structure Recorded (w : OutboundWorld) (i : Nat) (φ : Fetching) : Prop where
  input : w.inputs i = φ.input
  looked : w.lookups i = φ.looked
  sent : (w.requests i).map (·.url) = φ.sent

/-- The requests of a fetch go from its own URL along redirects. -/
inductive RedirectChain (library : UrlLibrary) (input : String) : List Url → Prop where
  | none : RedirectChain library input []
  | first {url : Url} (hparse : library.parse input = .ok url) : RedirectChain library input [url]
  | redirect {urls : List Url} {previous url : Url} {location : String}
      (hurls : RedirectChain library input urls) (hlast : urls.getLast? = some previous)
      (hjoin : library.join previous location = .ok url) : RedirectChain library input (urls ++ [url])

/-- The connections of the process so far. -/
structure ConnectionsKept (library : UrlLibrary) (w : OutboundWorld) (φ : Nat → Fetching) :
    Prop where
  recorded : ∀ i, Recorded w i (φ i)
  requests : ∀ i, ∀ r ∈ w.requests i, r.Validated
  bounded : ∀ i, (w.requests i).length ≤ 6
  chain : ∀ i, w.requests i ≠ [] → ∃ input, w.inputs i = some input ∧
    RedirectChain library input ((w.requests i).map (·.url))
  clients : ∀ client ∈ w.clients, client.Accepted
  connections : ∀ c ∈ w.connections, ∃ client, w.clients[c.client]? = some client ∧
    c.address ∈ client.addresses

namespace ConnectionsKept

variable {library : UrlLibrary} {w w' : OutboundWorld} {φ : Nat → Fetching} {i : Nat}

/-- Something happens in a fetch that sends no request. -/
theorem unsent (h : ConnectionsKept library w φ) {ψ : Fetching} (hrequests : w'.requests = w.requests)
    (hinputs : ∀ j, j ≠ i → w'.inputs j = w.inputs j) (hlookups : ∀ j, j ≠ i → w'.lookups j = w.lookups j)
    (hi : Recorded w' i ψ) (hinput : w.requests i ≠ [] → w'.inputs i = w.inputs i)
    (hclients : w'.clients = w.clients) (hconnections : w'.connections = w.connections) :
    ConnectionsKept library w' (Function.update φ i ψ) where
  recorded j := by
    by_cases hj : j = i
    · subst hj
      rwa [Function.update_self]
    · rw [Function.update_of_ne hj]
      obtain ⟨hinput, hlooked, hsent⟩ := h.recorded j
      exact ⟨(hinputs j hj).trans hinput, (hlookups j hj).trans hlooked, by rwa [hrequests]⟩
  requests j := hrequests ▸ h.requests j
  bounded j := hrequests ▸ h.bounded j
  chain j := by
    rw [hrequests]
    intro hne
    obtain ⟨input, hsome, hchain⟩ := h.chain j hne
    refine ⟨input, ?_, hchain⟩
    by_cases hj : j = i
    · subst hj
      rwa [hinput hne]
    · rwa [hinputs j hj]
  clients := hclients ▸ h.clients
  connections := by
    rw [hconnections, hclients]
    exact h.connections

/-- A step that no fetch notices. -/
theorem unnoted (h : ConnectionsKept library w φ) :
    ConnectionsKept library w (Function.update φ i (φ i)) := by
  rwa [Function.update_eq_self]

/-- **A request is sent.** -/
theorem request (h : ConnectionsKept library w φ) {url : Url} {host : String}
    {addresses : List SocketAddr} {connection : Option SocketAddr}
    (hvalidated : Validated url host addresses (φ i).looked) (hnext : (φ i).Next library url)
    (hcount : (φ i).sent.length ≤ 5) (hconnection : connection.all (· ∈ addresses) = true) :
    ConnectionsKept library (w.request i url host addresses connection)
      (Function.update φ i { φ i with looked := none, sent := (φ i).sent ++ [url] }) := by
  obtain ⟨hinput, hlooked, hsent⟩ := h.recorded i
  have hself : (w.request i url host addresses connection).requests i =
      w.requests i ++ [⟨url, host, addresses, w.lookups i, connection⟩] :=
    Function.update_self _ _ _
  have hother (j : Nat) (hj : j ≠ i) :
      (w.request i url host addresses connection).requests j = w.requests j :=
    Function.update_of_ne hj _ _
  refine ⟨fun j => ?_, fun j => ?_, fun j => ?_, fun j => ?_, h.clients, h.connections⟩
  · by_cases hj : j = i
    · subst hj
      rw [Function.update_self]
      refine ⟨hinput, Function.update_self _ _ _, ?_⟩
      rw [hself, List.map_append, hsent]
      rfl
    · rw [Function.update_of_ne hj]
      obtain ⟨hinput, hlooked, hsent⟩ := h.recorded j
      exact ⟨hinput, (Function.update_of_ne hj _ _).trans hlooked, by rwa [hother j hj]⟩
  · by_cases hj : j = i
    · subst hj
      rw [hself, List.forall_mem_append, List.forall_mem_singleton]
      obtain ⟨⟨port, hcheck, hsome⟩, hpublic⟩ := hvalidated
      refine ⟨h.requests j, ⟨⟨port, hcheck, hlooked.trans hsome⟩, fun address haddress => ?_, ?_⟩⟩
      · exact not_refused_of_isPublicIp (hpublic address haddress)
      · rintro address rfl
        simpa using hconnection
    · rw [hother j hj]
      exact h.requests j
  · by_cases hj : j = i
    · subst hj
      rw [hself, List.length_append, List.length_singleton]
      have hlength : (w.requests j).length = (φ j).sent.length := by rw [← hsent, List.length_map]
      omega
    · rw [hother j hj]
      exact h.bounded j
  · by_cases hj : j = i
    · subst hj
      intro _
      rw [hself, List.map_append]
      rcases hnext with ⟨hnone, input, hsome, hparse⟩ | ⟨previous, location, hlast, hjoin⟩
      · refine ⟨input, hinput.trans hsome, ?_⟩
        rw [hsent, hnone]
        exact .first hparse
      · have hne : w.requests j ≠ [] := by
          intro hnil
          rw [← hsent, hnil] at hlast
          cases hlast
        obtain ⟨input, hsome, hchain⟩ := h.chain j hne
        rw [← hsent] at hlast
        exact ⟨input, hsome, hchain.redirect hlast hjoin⟩
    · rw [hother j hj]
      exact h.chain j

/-- A client for a provider is made. -/
theorem client (h : ConnectionsKept library w φ) {client : PinnedClient}
    (haccepted : client.Accepted) :
    ConnectionsKept library { w with clients := w.clients ++ [client] } φ := by
  refine ⟨fun j => ⟨(h.recorded j).input, (h.recorded j).looked, (h.recorded j).sent⟩, h.requests,
    h.bounded, h.chain, ?_, fun c hc => ?_⟩
  · rw [List.forall_mem_append, List.forall_mem_singleton]
    exact ⟨h.clients, haccepted⟩
  · obtain ⟨client', hclient', haddress⟩ := h.connections c hc
    refine ⟨client', ?_, haddress⟩
    rw [List.getElem?_append_left (List.getElem?_eq_some_iff.mp hclient').1]
    exact hclient'

/-- **An effect that keeps to the protocol keeps the connections as they should be.** -/
theorem executed (h : ConnectionsKept library w φ) {e : OutboundEffect} {choice : OutboundChoice}
    {r : e.Answer} (hrequires : (fetching library).requires e (φ i))
    (hexec : outboundExec w i e choice = some (w', r)) :
    ConnectionsKept library w' (Function.update φ i ((fetching library).next e (φ i) r)) := by
  unfold outboundExec at hexec
  split at hexec
  -- the effects of a fetch that are not its requests
  case h_1 input =>
    cases hexec
    have hnone : w.requests i = [] := by
      have hsent : (φ i).sent = [] := hrequires
      rw [← (h.recorded i).sent] at hsent
      exact List.map_eq_nil_iff.mp hsent
    refine h.unsent rfl (fun j hj => Function.update_of_ne hj _ _) (fun _ _ => rfl) ?_
      (fun hne => absurd hnone hne) rfl rfl
    exact ⟨Function.update_self _ _ _, (h.recorded i).looked, (h.recorded i).sent⟩
  case h_2 host port answer =>
    cases hexec
    refine h.unsent rfl (fun _ _ => rfl) (fun j hj => Function.update_of_ne hj _ _) ?_
      (fun _ => rfl) rfl rfl
    exact ⟨(h.recorded i).input, Function.update_self _ _ _, (h.recorded i).sent⟩
  case h_5 url host addresses connection answer =>
    split at hexec
    · next hconnection =>
      cases hexec
      exact h.request hrequires.1 hrequires.2.1 hrequires.2.2 hconnection
    · cases hexec
  case h_7 client built =>
    cases hexec
    cases built with
    | false => exact h.unnoted
    | true => exact (h.client hrequires).unnoted
  case h_9 => cases hexec
  all_goals
    cases hexec
    exact h.unnoted

end ConnectionsKept

/-- **The connections stay as they should be**, in every run. -/
theorem connectionsKept_sound (library : UrlLibrary) :
    TaskSystem.Sound (outboundSystem library) (fetching library) (ConnectionsKept library) {}
      (fun _ => True) fun _ _ => True where
  exec pool φ i e k choice w' r h _ _ hrequires hexec := ⟨trivial, h.executed hrequires hexec⟩
  event := by
    rintro pool φ event w' h - hevent
    simp only [outboundSystem, outboundEvent] at hevent
    split at hevent
    · next client hclient =>
      split at hevent
      · next haddress =>
        cases hevent
        refine ⟨fun j => ⟨(h.recorded j).input, (h.recorded j).looked, (h.recorded j).sent⟩,
          h.requests, h.bounded, h.chain, h.clients, ?_⟩
        rintro c (_ | ⟨_, hc⟩)
        · exact ⟨client, hclient, haddress⟩
        · exact h.connections c hc
      · cases hevent
    · cases hevent
  start := by
    rintro pool φ operation w' p h - - hstart
    cases operation with
    | fetch maxBytes input =>
      cases hstart
      exact ⟨Fetching.keeps_call, h⟩
    | pinned url policy =>
      cases hstart
      exact ⟨Protocol.Keeps.bind _ Fetching.keeps_pinnedClient fun _ _ _ => trivial, h⟩

/-! ## The runs -/

/-- The state a run reaches. -/
def outboundRun (library : UrlLibrary)
    (steps : List (PoolStep OutboundChoice OutboundEvent OutboundOperation)) : OutboundWorld :=
  ((outboundSystem library).machine.run { shared := {} } steps).1.shared

theorem connectionsKept_run (library : UrlLibrary)
    (steps : List (PoolStep OutboundChoice OutboundEvent OutboundOperation)) :
    ∃ φ, ConnectionsKept library (outboundRun library steps) φ := by
  have hstart : ConnectionsKept library {} fun _ => {} :=
    ⟨fun _ => ⟨rfl, rfl, rfl⟩, by simp, by simp, by simp, by simp, by simp⟩
  have hmeets : (outboundSystem library).machine.Meets (fun _ _ => True) { shared := {} } steps :=
    (outboundSystem library).machine.meets_of_forall (fun _ _ _ => trivial) _
  obtain ⟨φ, hrelated⟩ := (connectionsKept_sound library).run hstart hmeets
  exact ⟨φ, hrelated.inv⟩

/-- **Local addresses are refused**, in any run: by the fetches in every spelling, and by the
clients for providers where none of their addresses spells an IPv4 address as an IPv6 one. -/
theorem local_addresses_refused (library : UrlLibrary)
    (steps : List (PoolStep OutboundChoice OutboundEvent OutboundOperation)) :
    (∀ i, (∀ r ∈ (outboundRun library steps).requests i, r.Validated) ∧
      ((outboundRun library steps).requests i).length ≤ 6) ∧
    (∀ c ∈ (outboundRun library steps).connections, ∃ client,
      (outboundRun library steps).clients[c.client]? = some client ∧
        c.address ∈ client.addresses ∧ client.Accepted) ∧
    ∀ client ∈ (outboundRun library steps).clients, client.policy.rejectLocalAddresses = true →
      ((∀ address ∈ client.addresses, ¬ address.ip.Refused isPublicAddressV4) ↔
        ∀ address ∈ client.addresses, ¬ address.ip.Mapped isPublicAddressV4) := by
  obtain ⟨φ, hkept⟩ := connectionsKept_run library steps
  refine ⟨fun i => ⟨hkept.requests i, hkept.bounded i⟩, fun c hc => ?_, fun client hclient hreject => ?_⟩
  · obtain ⟨client, hclient, haddress⟩ := hkept.connections c hc
    exact ⟨client, hclient, haddress, hkept.clients client (List.mem_of_getElem? hclient)⟩
  · refine forall₂_congr fun address haddress => not_congr ?_
    exact refused_iff_mapped (hkept.clients client hclient hreject address haddress)

/-- A library whose texts are no addresses. -/
def plainLibrary : UrlLibrary where
  parse _ := .error "relative URL without a base"
  join _ _ := .error "relative URL without a base"
  parseIp _ := none
  lossy _ := ""

/-- The loopback address, spelled as an IPv6 one. -/
def mappedLoopback : SocketAddr := ⟨.v6 (.ofIpv4 (.new 127 0 0 1)), 443⟩

/-- A client is made for a host whose lookup gives the loopback address, and connects to it. -/
def loopbackSteps : List (PoolStep OutboundChoice OutboundEvent OutboundOperation) :=
  [.start (.pinned ⟨"https", "", none, some "provider.example", none, "https://provider.example/"⟩ {}),
    .run 0 (.lookupWithin (.addresses [mappedLoopback])), .run 0 (.client true),
    .event ⟨0, mappedLoopback⟩]

/-- **A client for a provider connects to the own machine.** -/
theorem mapped_loopback_connected :
    ¬ ∀ library steps, ∀ c ∈ (outboundRun library steps).connections, ∀ client,
      (outboundRun library steps).clients[c.client]? = some client →
        client.policy.rejectLocalAddresses = true → ¬ c.address.ip.Refused isPublicAddressV4 := by
  intro h
  have hclient : (outboundRun plainLibrary loopbackSteps).clients[0]? =
      some ⟨"provider.example", [mappedLoopback], {}⟩ := by
    rfl
  have hconnection : ⟨0, mappedLoopback⟩ ∈ (outboundRun plainLibrary loopbackSteps).connections := by
    exact List.mem_cons_self
  refine h _ _ _ hconnection _ hclient rfl (.inr ⟨.new 127 0 0 1, ?_, ?_⟩)
  · decide
  · decide

end AxiomDesktop
