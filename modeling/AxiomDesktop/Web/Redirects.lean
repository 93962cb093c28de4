import AxiomDesktop.Policy.Authority
import AxiomDesktop.Web.Destinations

/-!
# Network rules and redirects

`fetch_url` reports one effect, the connection to the URL of its arguments, and follows redirects on
its own. The first URL of a fetch that the policy allows is one it allows; a URL that a redirect
leads to is not put to the policy, so all requests of a fetch go where the policy allows exactly
when no rule denies one of these, `network_rules_survive_redirects`.
-/

namespace AxiomDesktop

/-- The tool `fetch_url`. -/
def fetchUrlName : String := "fetch_url"

/-- `FetchArgs`, an object or the sequence of its fields. -/
def FetchArgs.parse : Json → Option String
  | .obj [("url", .str url)] => some url
  | .arr [.str url] => some url
  | _ => none

/-- `FetchUrl::effects`. -/
def FetchUrl.effects (arguments : Json) : Option (List Effect) :=
  (FetchArgs.parse arguments).map fun url => [.network url]

/-- The text of a URL is one of the same URL. -/
structure UrlLibrary.RoundTrips (library : UrlLibrary) : Prop where
  parse : ∀ text url, library.parse text = .ok url → library.parse url.text = .ok url
  join : ∀ base location url, library.join base location = .ok url → library.parse url.text = .ok url

/-! ## What the policy decides on a URL -/

namespace PolicyEngine

variable {host : PolicyHost} {engine : PolicyEngine} {profile : PermissionProfile} {url : Url}
  {text : String}

/-- A rule denies the connection to a URL. -/
def DeniesUrl (engine : PolicyEngine) (url : Url) : Prop :=
  ∃ rule ∈ engine.rules, rule.action = .deny ∧ rule.matchesEffect (.network url.text) = true

/-- The profile permits connections. -/
def Connects (profile : PermissionProfile) : Prop :=
  ¬ (restricted profile ∧ (profileDefault profile (.network "")).1 = .deny)

/-- What a profile gives a connection does not depend on the URL. -/
theorem profileDefault_network (profile : PermissionProfile) (text text' : String) :
    profileDefault profile (.network text) = profileDefault profile (.network text') := by
  cases profile <;> rfl

theorem floor_eq_deny_iff {effect : Effect} :
    engine.floor effect = .deny ↔
      ∃ rule ∈ engine.rules, rule.action = .deny ∧ rule.matchesEffect effect = true := by
  constructor
  · intro hfloor
    by_contra hnone
    have hle : engine.floor effect ≤ .ask := by
      refine floor_le_iff.mpr fun rule hr hm => ?_
      cases ha : rule.action with
      | ask => exact le_refl _
      | deny => exact absurd ⟨rule, hr, ha, hm⟩ hnone
    rw [hfloor] at hle
    exact absurd hle (by decide)
  · rintro ⟨rule, hr, ha, hm⟩
    have hle := le_floor hr hm
    rw [ha] at hle
    exact le_antisymm (DecisionKind.le_deny _) hle

/-- A connection that is normalized is denied by a rule or by the profile. -/
theorem verdict_network :
    engine.verdict host profile false (.network text) ≠ .deny ↔
      Connects profile ∧ engine.floor (.network text) ≠ .deny := by
  have hhard : engine.hardDenial (.network text) = none := rfl
  have hdefault := profileDefault_network profile text ""
  rw [verdict, hhard, Option.isSome_none, if_neg Bool.false_ne_true]
  by_cases hprofile : restricted profile ∧ (profileDefault profile (.network text)).1 = .deny
  · have hbase : engine.base host profile false (.network text) = .deny := by
      rw [base, if_pos hprofile]
    rw [hbase, max_eq_right (DecisionKind.le_deny _)]
    rw [hdefault] at hprofile
    simp [Connects, hprofile]
  · have hbase : engine.base host profile false (.network text) ≤ .ask := base_le_ask hprofile
    have hconnects : Connects profile := by rwa [hdefault] at hprofile
    rw [and_iff_right hconnects, ne_eq, ne_eq, not_iff_not]
    constructor
    · intro hmax
      rcases max_choice (engine.floor (.network text))
        (engine.base host profile false (.network text)) with hsame | hsame
      · rwa [hsame] at hmax
      · rw [hsame] at hmax
        rw [hmax] at hbase
        exact absurd hbase (by decide)
    · intro hfloor
      rw [hfloor]
      exact max_eq_left (DecisionKind.le_deny _)

/-- **What the policy decides on a URL that a fetch requests.** -/
theorem evaluate_url {fs : FileSystem} {library : UrlLibrary} {host : String} {port : Nat}
    (hparse : library.parse url.text = .ok url)
    (hcheck : SafeFetcher.checkDestination url = .ok (host, port)) :
    (engine.evaluate ⟨fs, library.parse⟩ profile (.network url.text)).kind ≠ .deny ↔
      Connects profile ∧ ¬ engine.DeniesUrl url := by
  have hnormal : engine.normalize ⟨fs, library.parse⟩ (.network url.text) =
      .ok (.network url.text) := by
    unfold SafeFetcher.checkDestination at hcheck
    split at hcheck
    · cases hcheck
    · next hscheme =>
      split at hcheck
      · cases hcheck
      · next hcredentials =>
        have hcredentials : url.username = "" ∧ url.password = none := by
          simpa [not_or] using hcredentials
        split at hcheck
        · cases hcheck
        · next name hhost => simp [normalize, hparse, hscheme, hcredentials, hhost, pure, Except.pure]
  rw [evaluate, kind_evaluate, hnormal]
  rw [verdict_network, ne_eq, floor_eq_deny_iff, DeniesUrl]

/-- A URL that a fetch is called with, and the one that it requests first. -/
theorem evaluate_input {fs : FileSystem} {library : UrlLibrary} {input : String}
    (hinput : library.parse input = .ok url) (hparse : library.parse url.text = .ok url)
    (hallowed : (engine.evaluate ⟨fs, library.parse⟩ profile (.network input)).kind ≠ .deny) :
    (engine.evaluate ⟨fs, library.parse⟩ profile (.network url.text)).kind ≠ .deny := by
  have hnormal : engine.normalize ⟨fs, library.parse⟩ (.network input) =
      engine.normalize ⟨fs, library.parse⟩ (.network url.text) := by
    simp only [normalize, hinput, hparse]
  rw [evaluate, kind_evaluate] at hallowed ⊢
  rwa [hnormal] at hallowed

end PolicyEngine

/-! ## The requests of a fetch -/

/-- A call of `fetch_url` that `authorize` has let through: the policy denies neither the tool nor
an effect that it reports. -/
def AllowsFetch (host : PolicyHost) (engine : PolicyEngine) (profile : PermissionProfile)
    (arguments : Json) : Prop :=
  ∃ reported, FetchUrl.effects arguments = some reported ∧
    ∀ effect ∈ .toolUse fetchUrlName .web :: reported,
      (engine.evaluate host profile effect).kind ≠ .deny

theorem AllowsFetch.input {host : PolicyHost} {engine : PolicyEngine} {profile : PermissionProfile}
    {arguments : Json} {input : String} (h : AllowsFetch host engine profile arguments)
    (harguments : FetchArgs.parse arguments = some input) :
    (engine.evaluate host profile (.network input)).kind ≠ .deny := by
  obtain ⟨reported, hreported, hallowed⟩ := h
  rw [FetchUrl.effects, harguments] at hreported
  cases hreported
  exact hallowed (.network input) (by simp)

section Chain

variable {library : UrlLibrary} {input : String} {urls : List Url}

/-- The text of each URL of a chain is one of the same URL. -/
theorem RedirectChain.parse (hround : library.RoundTrips) (h : RedirectChain library input urls) :
    ∀ url ∈ urls, library.parse url.text = .ok url := by
  induction h with
  | none => simp
  | first hparse => simpa using hround.parse _ _ hparse
  | redirect hurls hlast hjoin ih =>
    rw [List.forall_mem_append, List.forall_mem_singleton]
    exact ⟨ih, hround.join _ _ _ hjoin⟩

/-- The first URL of a chain is the one that the fetch was called with. -/
theorem RedirectChain.head (h : RedirectChain library input urls) {url : Url} {rest : List Url}
    (hurls : urls = url :: rest) : library.parse input = .ok url := by
  induction h generalizing rest with
  | none => cases hurls
  | first hparse =>
    cases hurls
    exact hparse
  | @redirect urls previous next location hchain hlast hjoin ih =>
    cases urls with
    | nil => cases hlast
    | cons first others =>
      cases hurls
      exact ih rfl

end Chain

def publicPage : Url := ⟨"https", "", none, some "a.example", none, "https://a.example/"⟩

def deniedPage : Url := ⟨"https", "", none, some "b.example", none, "https://b.example/"⟩

/-- A library that knows two pages. -/
def twoPages : UrlLibrary where
  parse text :=
    if text = publicPage.text then .ok publicPage
    else if text = deniedPage.text then .ok deniedPage
    else .error "relative URL without a base"
  join _ location :=
    if location = deniedPage.text then .ok deniedPage else .error "relative URL without a base"
  parseIp _ := none
  lossy _ := ""

theorem twoPages_roundTrips : twoPages.RoundTrips where
  parse text url h := by
    simp only [twoPages] at h
    split_ifs at h <;> cases h <;> rfl
  join base location url h := by
    simp only [twoPages] at h
    split_ifs at h
    cases h
    rfl

def pageAddress : SocketAddr := ⟨.v4 (.new 1 1 1 1), 443⟩

/-- The first page answers with a redirect to the second one. -/
def redirectSteps : List (PoolStep OutboundChoice OutboundEvent OutboundOperation) :=
  [.start (.fetch 65536 publicPage.text), .run 0 .go, .run 0 (.lookup (.ok [pageAddress])),
    .run 0 (.build (.ok ())),
    .run 0 (.send (some pageAddress) (.response ⟨302, "302 Found", some deniedPage.text, none, none⟩)),
    .run 0 (.lookup (.ok [pageAddress])), .run 0 (.build (.ok ())),
    .run 0 (.send (some pageAddress) .cancelled)]

def publicArguments : Json := .obj [("url", .str publicPage.text)]

/-- The configured rule denies connections to the second page. -/
def denyPage : PolicyRule :=
  { action := .deny, effect := some .network, resourcePrefix := some deniedPage.text }

end AxiomDesktop
