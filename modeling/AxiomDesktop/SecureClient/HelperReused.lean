import AxiomDesktop.SecureClient.ImageHelper

/-!
# The image helper is reused only when it is clean

A helper that an operation speaks with has answered every request but the one that the operation
awaits (`NativeBridge.Awaits`), so its next line answers that one; where the line is the last of the
answer, nothing is left of it (`NativeBridge.Clean`), and only then does an operation put the helper
back. `helper_is_clean` has this for every run, and what an idle timer removes: an entry that became
idle at the instant that the timer has, which need not be the one that it was started for
(`another_entry_removed`).
-/

namespace AxiomDesktop

/-! ## A bridge and its requests -/

namespace NativeBridge

/-- Every request was answered by a reply that was read to its end. -/
structure Clean (bridge : NativeBridge) : Prop where
  answered : bridge.answered = bridge.sent
  unanswered : bridge.unanswered = []
  output : bridge.output = []

/-- Lines that are the progress of a request. -/
def Progress (own : SentRequest) (output : List (SentRequest × HelperLine)) : Prop :=
  ∀ entry ∈ output, entry.1 = own ∧ own.2.terminal entry.2 = false

/-- Every request but the last one was answered, and what is to be read answers the last one. -/
structure Awaits (own : SentRequest) (bridge : NativeBridge) : Prop where
  answered : bridge.answered ++ [own] = bridge.sent
  pending : bridge.unanswered = [own] ∧ Progress own bridge.output ∨
    bridge.unanswered = [] ∧ ∃ before line, bridge.output = before ++ [(own, line)] ∧
      own.2.terminal line = true ∧ Progress own before

/-- The bridge was checked out for one configuration, and configured with what the client has. -/
structure Matches (c : ImageClient) (native : NativeConfig) (configSha256 : String)
    (bridge : NativeBridge) : Prop where
  uses : ∀ use ∈ bridge.uses, use = (native, configSha256)
  configure : ∀ task relayOrigin accessToken maximumChargeMicrousd,
    (task, .configure relayOrigin accessToken maximumChargeMicrousd) ∈ bridge.sent →
      relayOrigin = c.relayOrigin ∧ accessToken = c.credential ∧
        maximumChargeMicrousd = native.maximumChargeMicrousd

/-- The client's credential was sent. -/
def Configured (c : ImageClient) (native : NativeConfig) (bridge : NativeBridge) : Prop :=
  ∃ task, (task, .configure c.relayOrigin c.credential native.maximumChargeMicrousd) ∈ bridge.sent

variable {c : ImageClient} {native : NativeConfig} {configSha256 : String} {bridge : NativeBridge}
  {own request : SentRequest} {line : HelperLine} {output : List (SentRequest × HelperLine)}

theorem Clean.write (h : bridge.Clean) (line : HelperLine) : bridge.write line = bridge := by
  unfold NativeBridge.write
  rw [h.unanswered]

theorem Clean.send (h : bridge.Clean) (own : SentRequest) : (bridge.send own).Awaits own where
  answered := congrArg (· ++ [own]) h.answered
  pending := by
    refine .inl ⟨congrArg (· ++ [own]) h.unanswered, fun entry hentry => ?_⟩
    rw [show (bridge.send own).output = [] from h.output] at hentry
    cases hentry

theorem Awaits.write (h : bridge.Awaits own) (line : HelperLine) : (bridge.write line).Awaits own := by
  obtain ⟨hanswered, ⟨hunanswered, hprogress⟩ | ⟨hunanswered, hdone⟩⟩ := h
  · unfold NativeBridge.write
    rw [hunanswered]
    refine ⟨hanswered, ?_⟩
    dsimp only
    cases hterminal : own.2.terminal line with
    | true => exact .inr ⟨rfl, bridge.output, line, rfl, hterminal, hprogress⟩
    | false =>
      refine .inl ⟨rfl, fun entry hentry => ?_⟩
      rcases List.mem_append.mp hentry with hentry | hentry
      · exact hprogress entry hentry
      · obtain rfl := List.mem_singleton.mp hentry
        exact ⟨rfl, hterminal⟩
  · unfold NativeBridge.write
    rw [hunanswered]
    exact ⟨hanswered, .inr ⟨hunanswered, hdone⟩⟩

/-- The next line answers the request that is awaited. -/
theorem Awaits.next_line (h : bridge.Awaits own) (houtput : bridge.output = (request, line) :: output) :
    request = own := by
  obtain ⟨-, ⟨-, hprogress⟩ | ⟨-, before, last, hlast, -, hprogress⟩⟩ := h
  · exact (hprogress (request, line) (houtput ▸ List.mem_cons_self)).1
  · rw [houtput] at hlast
    cases before with
    | nil => exact congrArg (fun entries => (entries.headD (request, line)).1) hlast
    | cons first before =>
      obtain ⟨rfl, -⟩ := List.cons.inj hlast
      exact (hprogress (request, line) List.mem_cons_self).1

/-- A line of progress is read. -/
theorem Awaits.progress (h : bridge.Awaits own) (houtput : bridge.output = (own, line) :: output)
    (hterminal : own.2.terminal line = false) : (bridge.read own line output).Awaits own := by
  obtain ⟨hanswered, hpending⟩ := h
  unfold NativeBridge.read
  rw [hterminal]
  refine ⟨hanswered, hpending.imp ?_ ?_⟩
  · rintro ⟨hunanswered, hprogress⟩
    exact ⟨hunanswered, fun entry hentry => hprogress entry (houtput ▸ List.mem_cons_of_mem _ hentry)⟩
  · rintro ⟨hunanswered, before, last, hlast, hterminal', hprogress⟩
    rw [houtput] at hlast
    cases before with
    | nil =>
      obtain ⟨hfirst, -⟩ := List.cons.inj hlast
      obtain ⟨-, rfl⟩ := Prod.mk.inj hfirst
      rw [hterminal] at hterminal'
      cases hterminal'
    | cons first before =>
      obtain ⟨-, hrest⟩ := List.cons.inj hlast
      exact ⟨hunanswered, before, last, hrest, hterminal',
        fun entry hentry => hprogress entry (List.mem_cons_of_mem _ hentry)⟩

/-- The last line of the answer is read. -/
theorem Awaits.answer (h : bridge.Awaits own) (houtput : bridge.output = (own, line) :: output)
    (hterminal : own.2.terminal line = true) : (bridge.read own line output).Clean := by
  obtain ⟨hanswered, hpending⟩ := h
  unfold NativeBridge.read
  rw [hterminal]
  obtain ⟨-, hprogress⟩ | ⟨hunanswered, before, last, hlast, -, hprogress⟩ := hpending
  · have hline := (hprogress (own, line) (houtput ▸ List.mem_cons_self)).2
    cases hterminal.symm.trans hline
  · rw [houtput] at hlast
    cases before with
    | nil =>
      obtain ⟨-, rfl⟩ := List.cons.inj hlast
      exact ⟨hanswered, hunanswered, rfl⟩
    | cons first before =>
      obtain ⟨rfl, -⟩ := List.cons.inj hlast
      have hline := (hprogress (own, line) List.mem_cons_self).2
      cases hterminal.symm.trans hline

@[simp] theorem write_sent (bridge : NativeBridge) (line : HelperLine) :
    (bridge.write line).sent = bridge.sent := by
  unfold NativeBridge.write
  split <;> rfl

@[simp] theorem write_uses (bridge : NativeBridge) (line : HelperLine) :
    (bridge.write line).uses = bridge.uses := by
  unfold NativeBridge.write
  split <;> rfl

/-- A new helper was sent nothing. -/
theorem spawn_ok {spawned : Bool} (h : spawn native spawned = .ok bridge) : bridge = {} := by
  unfold spawn at h
  split at h
  · split at h
    · cases h
      rfl
    · cases h
  · split at h
    · cases h
      rfl
    · cases h
  · cases h

theorem Matches.write (h : bridge.Matches c native configSha256) (line : HelperLine) :
    (bridge.write line).Matches c native configSha256 := by
  refine ⟨?_, ?_⟩
  · rw [write_uses]
    exact h.uses
  · rw [write_sent]
    exact h.configure

theorem Matches.send (h : bridge.Matches c native configSha256)
    (hown : ∀ relayOrigin accessToken maximumChargeMicrousd,
      own.2 = .configure relayOrigin accessToken maximumChargeMicrousd →
        relayOrigin = c.relayOrigin ∧ accessToken = c.credential ∧
          maximumChargeMicrousd = native.maximumChargeMicrousd) :
    (bridge.send own).Matches c native configSha256 := by
  refine ⟨h.uses, fun task relayOrigin accessToken maximumChargeMicrousd hmem => ?_⟩
  rcases List.mem_append.mp hmem with hmem | hmem
  · exact h.configure task _ _ _ hmem
  · exact hown _ _ _ (congrArg Prod.snd (List.mem_singleton.mp hmem)).symm

end NativeBridge

/-! ## The progress of an image -/

/-- An update is progress, and no update is the completion. -/
theorem NativeImageStream.accept_event {stream stream' : NativeImageStream} {reply : Json}
    {requestId : String} {update : Option ImageGenerationProgress}
    (h : stream.accept reply requestId = .ok (stream', update)) :
    update.isSome = (reply.string? "event" = some "image_progress" : Bool) := by
  unfold accept at h
  split at h
  · cases h
  · split at h
    · next hevent =>
      split at h
      · cases h
      · split at h
        · cases h
        · cases h
          rw [hevent]
          rfl
    · next hevent =>
      split at h
      · cases h
        exact (decide_eq_false hevent).symm
      · cases h

/-! ## What the cache keeps -/

/-- The instants at which the entries became idle, in their order. -/
def idleInstants (os : List ImageEvent) : List Nat :=
  os.filterMap fun
    | .retained cached => some cached.idleSince
    | _ => none

/-- A line is an answer to the request of the operation that takes it, and a timer removes an entry
that became idle at its instant. -/
def ImageEvent.Right (instants : List Nat) : ImageEvent → Prop
  | .took own request => request = own
  | .retained _ => True
  | .removed timer cached => timer.idleSince = cached.idleSince ∧
      instants[timer.entry]? = some timer.idleSince ∧ instants[cached.entry]? = some cached.idleSince

/-- The helper of the cache answered every request, and was configured for the client and used for
one configuration. -/
structure CachedImageBridge.Holds (c : ImageClient) (cached : CachedImageBridge) : Prop where
  clean : cached.bridge.Clean
  agrees : cached.bridge.Matches c cached.native cached.configSha256
  configured : cached.bridge.Configured c cached.native

namespace ImageTask

/-- What an operation keeps of its helper. -/
structure Keeps (c : ImageClient) (task : ImageTask) : Prop where
  agrees : task.bridge.Matches c task.native task.configSha256
  configured : task.bridge.Configured c task.native

/-- The call is one with progress exactly where the request asks for it. -/
def Fits (task : ImageTask) : Prop :=
  match task.await with
  | .stream requestId _ => task.own.2 = .image requestId true
  | _ => ∀ line, task.own.2.terminal line = true

structure Holds (c : ImageClient) (task : ImageTask) : Prop extends Keeps c task where
  awaits : task.bridge.Awaits task.own
  fits : task.Fits

end ImageTask

namespace ImageSession

structure Holds (c : ImageClient) (instants : List Nat) (s : ImageSession) : Prop where
  idle : ∀ cached, s.idle = some cached → cached.Holds c
  holder : ∀ task, s.holder = some task → task.Holds c
  retained : s.retained = instants.length
  timers : ∀ timer ∈ s.timers, instants[timer.entry]? = some timer.idleSince
  entry : ∀ cached, s.idle = some cached → instants[cached.entry]? = some cached.idleSince

/-- What a step leaves, with what it did. -/
def Leaves (c : ImageClient) (instants : List Nat) (step : ImageStep) : Prop :=
  step.1.Holds c (instants ++ idleInstants step.2) ∧
    ∀ event ∈ step.2, event.Right (instants ++ idleInstants step.2)

section Steps

variable {c : ImageClient} {instants : List Nat} {s : ImageSession} {task : ImageTask}

/-- A step that does nothing else. -/
theorem Holds.leaves (hs : s.Holds c instants) : Leaves c instants (s, []) := by
  refine ⟨?_, nofun⟩
  rw [show idleInstants (s, ([] : List ImageEvent)).2 = [] from rfl, List.append_nil]
  exact hs

theorem Holds.drop (hs : s.Holds c instants) : s.drop.Holds c instants :=
  { hs with
    holder := by rintro _ ⟨⟩ }

/-- A request is sent over a helper that owes nothing. -/
theorem Holds.call (hs : s.Holds c instants) (hclean : task.bridge.Clean) {request : HelperRequest}
    {await : ImageAwait}
    (hagrees : (task.bridge.send (task.task, request)).Matches c task.native task.configSha256)
    (hconfigured : (task.bridge.send (task.task, request)).Configured c task.native)
    (hfits : ImageTask.Fits { task with own := (task.task, request), await }) :
    Leaves c instants (s.call task request await) := by
  refine Holds.leaves { hs with holder := ?_ }
  rintro _ ⟨⟩
  exact { agrees := hagrees, configured := hconfigured, awaits := hclean.send _, fits := hfits }

/-- A request that configures nothing is sent over a helper that is configured. -/
theorem Holds.call_next (hs : s.Holds c instants) (hkeeps : task.Keeps c) (hclean : task.bridge.Clean)
    {request : HelperRequest} {await : ImageAwait}
    (hrequest : ∀ relayOrigin accessToken maximumChargeMicrousd,
      request ≠ .configure relayOrigin accessToken maximumChargeMicrousd)
    (hfits : ImageTask.Fits { task with own := (task.task, request), await }) :
    Leaves c instants (s.call task request await) := by
  refine hs.call hclean (hkeeps.agrees.send fun _ _ _ heq => absurd heq (hrequest _ _ _)) ?_ hfits
  obtain ⟨number, hmem⟩ := hkeeps.configured
  exact ⟨number, List.mem_append_left _ hmem⟩

theorem Holds.first (hs : s.Holds c instants) (hkeeps : task.Keeps c) (hclean : task.bridge.Clean) :
    Leaves c instants (s.first task) := by
  unfold ImageSession.first
  split
  · exact hs.call_next hkeeps hclean nofun fun _ => rfl
  · exact hs.call_next hkeeps hclean nofun fun _ => rfl

theorem Holds.retain (hs : s.Holds c instants) (hkeeps : task.Keeps c) (hclean : task.bridge.Clean) :
    Leaves c instants (s.retain task) := by
  have hinstants : idleInstants (s.retain task).2 = [s.now] := rfl
  unfold Leaves
  rw [hinstants]
  refine ⟨⟨?_, ?_, ?_, fun timer htimer => ?_, ?_⟩, fun event hevent => ?_⟩
  · rintro _ ⟨⟩
    exact ⟨hclean, hkeeps.agrees, hkeeps.configured⟩
  · rintro _ ⟨⟩
  · rw [List.length_append]
    exact congrArg (· + 1) hs.retained
  · rcases List.mem_append.mp htimer with htimer | htimer
    · have hsome := hs.timers timer htimer
      rw [List.getElem?_append_left (List.getElem?_eq_some_iff.mp hsome).1]
      exact hsome
    · obtain rfl := List.mem_singleton.mp htimer
      rw [show s.retained = instants.length from hs.retained]
      exact List.getElem?_concat_length
  · rintro _ ⟨⟩
    rw [show s.retained = instants.length from hs.retained]
    exact List.getElem?_concat_length
  · obtain rfl := List.mem_singleton.mp hevent
    trivial

/-- The rest of an operation, where nothing is left of the answer, or it is the progress of
an image. -/
theorem Holds.resume (hs : s.Holds c instants) {reply : Json} {valid : Bool} {requestId : String}
    (hkeeps : task.Keeps c) (hfits : task.Fits)
    (hclean : task.own.2.terminal (some reply) = true → task.bridge.Clean)
    (hawaits : task.own.2.terminal (some reply) = false → task.bridge.Awaits task.own) :
    Leaves c instants (s.resume task reply valid requestId) := by
  have hdrop : Leaves c instants (s.drop, []) := hs.drop.leaves
  unfold ImageSession.resume
  unfold ImageTask.Fits at hfits
  split
  · next hawait =>
    rw [hawait] at hfits
    exact hs.first hkeeps (hclean (hfits _))
  · next hawait =>
    rw [hawait] at hfits
    cases valid with
    | false => exact hdrop
    | true => exact hs.retain hkeeps (hclean (hfits _))
  · next hawait =>
    rw [hawait] at hfits
    cases valid with
    | false => exact hdrop
    | true => exact hs.retain hkeeps (hclean (hfits _))
  · next hawait =>
    rw [hawait] at hfits
    have hclean := hclean (hfits _)
    cases valid with
    | false => exact hdrop
    | true =>
      rw [if_pos rfl]
      split
      · exact hs.call_next hkeeps hclean nofun rfl
      · exact hs.call_next hkeeps hclean nofun fun _ => rfl
  · next id stream hawait =>
    rw [hawait] at hfits
    have hterminal : task.own.2.terminal (some reply) =
        decide (reply.string? "event" ≠ some "image_progress") := by
      rw [show task.own.2 = .image id true from hfits]
      rfl
    split
    · exact hdrop
    · next stream' update haccept =>
      have hevent := of_decide_eq_true (NativeImageStream.accept_event haccept).symm
      have hawaits := hawaits (hterminal.trans (decide_eq_false (not_not.mpr hevent)))
      refine Holds.leaves { hs with holder := ?_ }
      rintro _ ⟨⟩
      exact { hkeeps with awaits := hawaits, fits := hfits }
    · next stream' haccept =>
      have hevent := of_decide_eq_false (NativeImageStream.accept_event haccept).symm
      have hclean := hclean (hterminal.trans (decide_eq_true hevent))
      cases valid with
      | false => exact hdrop
      | true => exact hs.retain hkeeps hclean

/-- A line was taken that answers the operation's request. -/
theorem Leaves.took {step : ImageStep} (h : Leaves c instants step) (own : SentRequest) :
    Leaves c instants (step.1, .took own own :: step.2) := by
  refine ⟨h.1, fun event hevent => ?_⟩
  rcases List.mem_cons.mp hevent with rfl | hevent
  · rfl
  · exact h.2 event hevent

theorem Holds.receive (hs : s.Holds c instants) (valid : Bool) (requestId : String) :
    Leaves c instants (s.receive valid requestId) := by
  unfold ImageSession.receive
  split
  · exact hs.leaves
  · next task htask =>
    split
    · exact hs.leaves
    · next request line output houtput =>
      have htask := hs.holder task htask
      obtain rfl := htask.awaits.next_line houtput
      dsimp only
      split
      · exact hs.drop.leaves.took task.own
      · next reply hreply =>
        have hline : line = some reply := by
          unfold HelperLine.reply at hreply
          split at hreply
          · cases hreply
          · split at hreply
            · cases hreply
              rfl
            · cases hreply
        rw [hline] at houtput ⊢
        have hresumed : Leaves c instants (s.resume
            { task with bridge := task.bridge.read task.own (some reply) output } reply valid requestId) :=
          hs.resume ⟨⟨htask.agrees.uses, htask.agrees.configure⟩, htask.configured⟩ htask.fits
            (htask.awaits.answer houtput) (htask.awaits.progress houtput)
        exact hresumed.took task.own

/-- The helper that is checked out owes nothing, and was used for this configuration only. -/
theorem checkout_holds {cached : Option CachedImageBridge} {now : Nat} {native : NativeConfig}
    {file : Option (List UInt8)} {alive spawned configured : Bool} {bridge : NativeBridge}
    {configSha256 : String} (hcached : ∀ entry, cached = some entry → entry.Holds c)
    (h : c.checkoutImageBridge now native file alive spawned cached =
      .ok (bridge, configSha256, configured)) :
    bridge.Clean ∧ bridge.Matches c native configSha256 ∧
      (configured → bridge.Configured c native) := by
  unfold ImageClient.checkoutImageBridge at h
  split at h
  · cases h
  · next raw =>
    split at h
    · cases h
    · dsimp only at h
      split at h
      · next entry hentry =>
        cases h
        obtain ⟨hsome, hsame⟩ := Option.filter_eq_some_iff.mp hentry
        obtain ⟨rfl, hsha, -⟩ := of_decide_eq_true hsame
        have hholds := hcached entry hsome
        exact ⟨hholds.clean, hsha ▸ hholds.agrees, fun _ => hholds.configured⟩
      · cases hspawn : NativeBridge.spawn native spawned with
        | error error =>
          rw [hspawn] at h
          cases h
        | ok new =>
          rw [hspawn] at h
          cases h
          rw [NativeBridge.spawn_ok hspawn]
          exact ⟨⟨rfl, rfl, rfl⟩, ⟨nofun, nofun⟩, nofun⟩

theorem Holds.lock (hs : s.Holds c instants) (operation : ImageOperation) (native : NativeConfig)
    (file : Option (List UInt8)) (alive spawned : Bool) :
    Leaves c instants (s.lock c operation native file alive spawned) := by
  have hnext : ImageSession.Holds c instants { s with idle := none, tasks := s.tasks + 1 } :=
    { hs with
      idle := by rintro _ ⟨⟩
      entry := by rintro _ ⟨⟩ }
  unfold ImageSession.lock
  dsimp only
  split
  · exact hnext.leaves
  · next bridge configSha256 configured hcheckout =>
    obtain ⟨hclean, hagrees, hconfigured⟩ := checkout_holds hs.idle hcheckout
    have hused : NativeBridge.Matches c native configSha256
        { bridge with uses := bridge.uses ++ [(native, configSha256)] } := by
      refine ⟨fun use huse => ?_, hagrees.configure⟩
      rcases List.mem_append.mp huse with huse | huse
      · exact hagrees.uses use huse
      · exact List.mem_singleton.mp huse
    have hclean : NativeBridge.Clean { bridge with uses := bridge.uses ++ [(native, configSha256)] } :=
      ⟨hclean.answered, hclean.unanswered, hclean.output⟩
    cases configured with
    | true => exact hnext.first ⟨hused, hconfigured rfl⟩ hclean
    | false =>
      refine hnext.call hclean (hused.send ?_) ?_ fun _ => rfl
      · rintro _ _ _ ⟨⟩
        exact ⟨rfl, rfl, rfl⟩
      · exact ⟨s.tasks, List.mem_append_right _ List.mem_cons_self⟩

theorem Holds.expire (hs : s.Holds c instants) (timer : Nat) : Leaves c instants (s.expire timer) := by
  unfold ImageSession.expire
  split
  · next t hholder htimer =>
    have htimers : ∀ t' ∈ s.timers.eraseIdx timer, instants[t'.entry]? = some t'.idleSince :=
      fun t' ht' => hs.timers t' (List.mem_of_mem_eraseIdx ht')
    dsimp only
    split
    · next cached hcached =>
      split
      · next hsame =>
        have hnext : ImageSession.Holds c instants
            { s with timers := s.timers.eraseIdx timer, idle := none } :=
          { hs with
            idle := by rintro _ ⟨⟩
            timers := htimers
            entry := by rintro _ ⟨⟩ }
        refine ⟨hnext.leaves.1, fun event hevent => ?_⟩
        obtain rfl := List.mem_singleton.mp hevent
        rw [show idleInstants [ImageEvent.removed t cached] = [] from rfl, List.append_nil]
        exact ⟨hsame.symm, hs.timers t (List.mem_of_getElem? htimer), hs.entry cached hcached⟩
      · exact Holds.leaves { hs with timers := htimers }
    · exact Holds.leaves { hs with timers := htimers }
  · exact hs.leaves

theorem Holds.step (hs : s.Holds c instants) (input : ImageInput) :
    Leaves c instants (s.step c input) := by
  cases input with
  | lock operation native file alive spawned =>
    unfold ImageSession.step
    dsimp only
    split
    · exact hs.leaves
    · exact hs.lock operation native file alive spawned
  | write line =>
    refine Holds.leaves { hs with idle := ?_, holder := ?_, entry := ?_ }
    · intro cached hcached
      obtain ⟨before, hbefore, rfl⟩ := Option.map_eq_some_iff.mp hcached
      have hholds := hs.idle before hbefore
      rw [hholds.clean.write]
      exact hholds
    · intro task htask
      obtain ⟨before, hbefore, rfl⟩ := Option.map_eq_some_iff.mp htask
      have hholds := hs.holder before hbefore
      obtain ⟨number, hmem⟩ := hholds.configured
      exact
        { agrees := hholds.agrees.write line
          configured := ⟨number, by rwa [NativeBridge.write_sent]⟩
          awaits := hholds.awaits.write line
          fits := hholds.fits }
    · intro cached hcached
      obtain ⟨before, hbefore, rfl⟩ := Option.map_eq_some_iff.mp hcached
      exact hs.entry before hbefore
  | receive valid requestId => exact hs.receive valid requestId
  | abandon => exact hs.drop.leaves
  | expire timer => exact hs.expire timer
  | tick nanoseconds => exact Holds.leaves { hs with }

/-- A cache without an entry. -/
theorem holds_empty (c : ImageClient) : ImageSession.Holds c [] {} where
  idle := by rintro _ ⟨⟩
  holder := by rintro _ ⟨⟩
  retained := rfl
  timers _ h := absurd h List.not_mem_nil
  entry := by rintro _ ⟨⟩

end Steps

end ImageSession

/-! ## Whole runs -/

theorem ImageEvent.Right.append {instants : List Nat} {event : ImageEvent} (h : event.Right instants)
    (more : List Nat) : event.Right (instants ++ more) := by
  have hkeep {i n : Nat} (hi : instants[i]? = some n) : (instants ++ more)[i]? = some n := by
    rw [List.getElem?_append_left (List.getElem?_eq_some_iff.mp hi).1]
    exact hi
  cases event with
  | took own request => exact h
  | retained cached => trivial
  | removed timer cached => exact ⟨h.1, hkeep h.2.1, hkeep h.2.2⟩

/-- **The image helper is reused only when it is clean.** In every run, a helper that is found in
the cache has answered every request with a reply that was read to its end, was configured with the
client's credential, and was used for the configuration of its entry only, as the one that an
operation uses; what an operation takes as an answer to its request is one; and an idle timer
removes an entry that became idle at its instant, so only its own entry where the clock went on
between the entries. -/
theorem helper_is_clean (c : ImageClient) (inputs : List ImageInput) :
    let run := (imageMachine c).run {} inputs
    (∀ cached, run.1.idle = some cached → cached.Holds c) ∧
    (∀ task, run.1.holder = some task → task.Keeps c) ∧
    (∀ own request, .took own request ∈ run.2 → request = own) ∧
    ∀ timer cached, .removed timer cached ∈ run.2 → timer.idleSince = cached.idleSince ∧
      ((idleInstants run.2).Nodup → timer.entry = cached.entry) := by
  have hrun := (imageMachine c).run_induction (C := fun _ _ => True)
    (motive := fun _ os s => ImageSession.Holds c (idleInstants os) s ∧
      ∀ event ∈ os, event.Right (idleInstants os))
    (s := {}) ⟨ImageSession.holds_empty c, fun _ h => absurd h List.not_mem_nil⟩
    (fun is os s input hos _ => by
      have hstep := hos.1.step input
      unfold idleInstants
      rw [List.filterMap_append]
      refine ⟨hstep.1, fun event hevent => ?_⟩
      rcases List.mem_append.mp hevent with hevent | hevent
      · exact (hos.2 event hevent).append _
      · exact hstep.2 event hevent) inputs
    ((imageMachine c).meets_of_forall (fun _ _ _ => trivial) _)
  obtain ⟨hholds, hright⟩ := hrun
  refine ⟨hholds.idle, fun task htask => (hholds.holder task htask).toKeeps,
    fun own request hmem => hright _ hmem, fun timer cached hmem => ?_⟩
  obtain ⟨hsame, htimer, hcached⟩ := hright _ hmem
  refine ⟨hsame, fun hnodup => ?_⟩
  rw [← hsame, ← htimer] at hcached
  exact (List.getElem?_inj (List.getElem?_eq_some_iff.mp htimer).1 hnodup).mp hcached.symm

/-- The timer of an entry removes the next one, where both became idle at one instant. -/
theorem another_entry_removed : ¬ ∀ c inputs timer cached,
    .removed timer cached ∈ ((imageMachine c).run {} inputs).2 → timer.entry = cached.entry := by
  intro h
  let native : NativeConfig := { helper := some "helper", config := "config.json" }
  let done : ImageInput := .write (some (.obj [("ok", .bool true)]))
  have hremoved := h ⟨fun _ => "", "", ""⟩
    [.lock .capabilities native (some []) false true, done, .receive true "", done, .receive true "",
      .lock .capabilities native (some []) true true, done, .receive true "", .expire 0]
    ⟨0, 0⟩ _ (List.mem_of_getElem? (i := 5) rfl)
  cases hremoved

end AxiomDesktop
