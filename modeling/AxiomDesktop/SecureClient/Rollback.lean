import AxiomDesktop.SecureClient.TrustPolicy

/-!
# The trust policy does not roll back

The policies a client holds, returns and persists never go back in their sequence, and two of one
sequence are the same policy; no policy is returned that had expired; a refresh that fails has
changed nothing (`trust_policy_never_rolls_back`).

A refresh compares its candidate with the policy it has read and installs it in a later section. The
result is about the runs in which no other call installs a newer policy in between, or another one
of the candidate's sequence, and in which no directory sync fails behind a journal that was renamed
into place (`Uncontested`); `older_policy_installed` is a run of two calls in which the older policy
is installed last.
-/

namespace AxiomDesktop

/-! ## What an effect does -/

/-- The ends of an effect of a task. -/
inductive PolicyExecuted (env : PolicyEnvironment) (w : PolicyWorld) (i c : Nat)
    (client : PolicyClient) :
    (e : PolicyEffect) → PolicyChoice → PolicyWorld → e.Answer → Prop where
  | now (now : Nat) :
    PolicyExecuted env w i c client .now (.time now)
      { w with clocks := Function.update w.clocks i (some now) } now
  | cached (held : CachedTrustPolicy) (instant : Nat) (hheld : client.held = some held) :
    PolicyExecuted env w i c client .cached (.instant instant) w (held, instant)
  | fetch (wire : Except SecureClientError (Option String)) :
    PolicyExecuted env w i c client .fetch (.reply wire) w wire
  | current (held : CachedTrustPolicy) (hheld : client.held = some held) :
    PolicyExecuted env w i c client .current .go
      { w with marks := Function.update w.marks i (some held.policy) } held.policy
  | persisted (path : String) (limit : Nat) (signedPolicy : String) (policy : TrustPolicy)
      (choice : PolicyChoice) (r : Except SecureClientError Unit)
      (haccepted : w.refusal env path limit ⟨policy.sequence, signedPolicy⟩ = none)
      (hchoice : choice = .unsynced ∨ r = .ok ()) :
    PolicyExecuted env w i c client (.persist path limit signedPolicy policy) choice
      (w.write i path ⟨policy.sequence, signedPolicy⟩) r
  | persistFailed (path : String) (limit : Nat) (signedPolicy : String) (policy : TrustPolicy)
      (choice : PolicyChoice) (error : SecureClientError) :
    PolicyExecuted env w i c client (.persist path limit signedPolicy policy) choice w (.error error)
  | install (candidate : TrustPolicy) (instant : Nat) :
    PolicyExecuted env w i c client (.install candidate) (.instant instant)
      { w.hold c client ⟨candidate, some instant⟩ with changed := i :: w.changed } ()
  | cancelled (cancelled : Bool) :
    PolicyExecuted env w i c client .cancelled (.cancelled cancelled)
      { w with failed := i :: w.failed } cancelled
  | lastKnownGood (now instant : Nat) (held : CachedTrustPolicy) (hheld : client.held = some held)
      (hvalid : held.policy.isValidAt now = true) :
    PolicyExecuted env w i c client (.lastKnownGood now) (.instant instant)
      { w with
        clients := Function.update w.clients c
          (some { client with held := some ⟨held.policy, some instant⟩ }) } (some held.policy)
  | noneGood (now instant : Nat) :
    PolicyExecuted env w i c client (.lastKnownGood now) (.instant instant) w none
  | readPersisted (path : String) (limit : Nat) (choice : PolicyChoice)
      (r : Except SecureClientError (Option PersistedTrustPolicy)) :
    PolicyExecuted env w i c client (.readPersisted path limit) choice w r
  | build (policy : TrustPolicy) (hnone : client.held = none) :
    PolicyExecuted env w i c client (.build policy) .go (w.hold c client ⟨policy, none⟩) ()
  | reportOk (policy : TrustPolicy) :
    PolicyExecuted env w i c client (.report (.ok policy)) .go
      { w with returned :=
        ((w.clocks i).map fun now => ⟨c, now, policy⟩).toList ++ w.returned } ()
  | reportError (error : SecureClientError) :
    PolicyExecuted env w i c client (.report (.error error)) .go w ()

/-- **What an effect of a task does.** -/
theorem policyExec_executed {env : PolicyEnvironment} {w w' : PolicyWorld} {i : Nat}
    {e : PolicyEffect} {choice : PolicyChoice} {r : e.Answer}
    (h : policyExec env w i e choice = some (w', r)) :
    ∃ client, w.clients (w.owner i) = some client ∧
      PolicyExecuted env w i (w.owner i) client e choice w' r := by
  unfold policyExec at h
  split at h
  · next client hclient =>
    refine ⟨client, hclient, ?_⟩
    unfold policyExecIn at h
    split at h
    -- the sections that read the held policy
    case h_2 | h_4 =>
      obtain ⟨held, hheld, hsome⟩ := Option.map_eq_some_iff.mp h
      cases hsome
      constructor
      exact hheld
    case h_10 =>
      obtain ⟨held, hheld, hsome⟩ := Option.map_eq_some_iff.mp h
      split at hsome
      · next hvalid =>
        cases hsome
        exact .lastKnownGood _ _ held hheld hvalid
      · cases hsome
        exact .noneGood _ _
    -- the journal
    case h_5 =>
      dsimp only at h
      split at h
      · cases h
        exact .persistFailed _ _ _ _ _ _
      · next haccepted =>
        cases h
        exact .persisted _ _ _ _ _ _ haccepted (.inr rfl)
    case h_6 =>
      dsimp only at h
      split at h
      · cases h
        exact .persistFailed _ _ _ _ _ _
      · next haccepted =>
        cases h
        exact .persisted _ _ _ _ _ _ haccepted (.inl rfl)
    case h_13 =>
      split at h
      · next hnone =>
        cases h
        exact .build _ hnone
      · cases h
    case h_16 => cases h
    all_goals
      cases h
      constructor
  · cases h

/-! ## What a call knows -/

/-- What a call of a client knows. -/
structure Refresh where
  now : Option Nat := none
  /-- The policy its candidate is compared with. -/
  current : Option TrustPolicy := none
  /-- The policy it is to return. -/
  chosen : Option TrustPolicy := none
  /-- It has changed the held policy or the journal. -/
  changed : Bool := false
  failed : Bool := false

/-- A candidate may replace a policy. -/
def TrustPolicy.Replaces (candidate current : TrustPolicy) : Prop :=
  current.sequence ≤ candidate.sequence ∧
    (candidate.sequence = current.sequence → candidate = current)

namespace TrustPolicy.Replaces

variable {candidate current older : TrustPolicy}

theorem refl (policy : TrustPolicy) : policy.Replaces policy := ⟨Nat.le_refl _, fun _ => rfl⟩

theorem trans (h : candidate.Replaces current) (h' : current.Replaces older) :
    candidate.Replaces older := by
  obtain ⟨hle, hsame⟩ := h
  obtain ⟨hle', hsame'⟩ := h'
  refine ⟨by omega, fun heq => ?_⟩
  rw [hsame (by omega), hsame' (by omega)]

end TrustPolicy.Replaces

/-- What the calls of a client know, and what they need of it. -/
def refreshes : Protocol PolicyEffect PolicyEffect.Answer Refresh where
  requires
    | .persist _ _ _ _, φ => φ.failed = false
    | .install candidate, φ =>
      φ.failed = false ∧ ∃ current, φ.current = some current ∧ candidate.Replaces current
    | .cancelled, φ => φ.changed = false
    | .report (.ok policy), φ =>
      φ.chosen = some policy ∧ ∃ now, φ.now = some now ∧ policy.isValidAt now = true
    | _, _ => True
  admits
    | .lastKnownGood now, _, good => ∀ policy, good = some policy → policy.isValidAt now = true
    | _, _, _ => True
  next
    | .now, φ, now => { φ with now := some now }
    | .cached, φ, answer => { φ with chosen := some answer.1.policy }
    | .current, φ, current => { φ with current := some current }
    | .persist _ _ _ _, φ, .ok () => { φ with changed := true }
    | .install candidate, φ, _ => { φ with changed := true, chosen := some candidate }
    | .cancelled, φ, _ => { φ with failed := true }
    | .lastKnownGood _, φ, good => { φ with chosen := good }
    | _, φ, _ => φ

namespace Refresh

open SecureClient

variable {env : PolicyEnvironment} {config : PolicyConfig} {φ : Refresh}

/-- The task keeps to the protocol and ends in `Q`. -/
abbrev Keeps {α : Type} (p : PolicyProg α) (Q : α → Refresh → Prop) (φ : Refresh) : Prop :=
  refreshes.Keeps p Q φ

/-- A journal is written by a call that has not failed. -/
theorem keeps_persistNewer {signedPolicy : String} {current candidate : TrustPolicy}
    (hfailed : φ.failed = false) {Q : Except SecureClientError Unit → Refresh → Prop}
    (hok : ∀ changed, Q (.ok ()) { φ with changed }) (herror : ∀ e, Q (.error e) φ) :
    Keeps (persistNewer config signedPolicy current candidate) Q φ := by
  unfold persistNewer
  split
  · split
    · refine ⟨hfailed, ?_⟩
      rintro (error | ⟨⟩) -
      · exact herror error
      · exact hok true
    · exact hok φ.changed
  · exact hok φ.changed

/-- **A refresh installs what may replace the policy it has read**, or leaves things unchanged. -/
theorem keeps_refresh {now : Nat} {wire : Except SecureClientError (Option String)}
    (hfailed : φ.failed = false) {Q : Except SecureClientError TrustPolicy → Refresh → Prop}
    (hok : ∀ policy current changed, policy.isValidAt now = true →
      Q (.ok policy) { φ with current, changed, chosen := some policy })
    (herror : ∀ e current, Q (.error e) { φ with current }) :
    Keeps (refresh env config now wire) Q φ := by
  unfold refresh
  split
  · exact herror _ φ.current
  · exact herror _ φ.current
  · next signedPolicy =>
    refine refreshes.keeps_effect_bind.mpr ⟨trivial, fun current _ => ?_⟩
    have hfailed : (refreshes.next .current φ current).failed = false := hfailed
    have hback (e : SecureClientError) :
        Q (.error e) (refreshes.next .current φ current) := herror e (some current)
    split
    · exact hback _
    · next candidate hcandidate =>
      obtain ⟨hsequence, hvalid⟩ := TrustPolicy.fromSignedJson_ok hcandidate
      split
      · exact hback _
      · next hsame =>
        refine refreshes.keeps_bind.mpr (keeps_persistNewer hfailed (fun changed => ?_) hback)
        have hreplaces : candidate.Replaces current := by
          refine ⟨hsequence, fun heq => ?_⟩
          by_contra hother
          exact hsame ⟨heq, hother⟩
        exact refreshes.keeps_effect_bind.mpr ⟨⟨hfailed, current, rfl, hreplaces⟩,
          fun _ _ => hok candidate (some current) true hvalid⟩

/-- **A call returns a policy that is valid at the time it has read**, and fails only where it has
changed nothing. -/
theorem call_keeps : Keeps (call env config) (fun _ _ => True) {} := by
  have hreport (result : Except SecureClientError TrustPolicy) (ψ : Refresh)
      (hok : ∀ policy, result = .ok policy →
        ψ.chosen = some policy ∧ ∃ now, ψ.now = some now ∧ policy.isValidAt now = true) :
      Keeps (ask (.report result)) (fun _ _ => True) ψ := by
    refine ⟨?_, fun _ _ => trivial⟩
    cases result with
    | error e => trivial
    | ok policy => exact hok policy rfl
  refine refreshes.keeps_bind.mpr (refreshes.keeps_effect_bind.mpr ⟨trivial, fun now _ => ?_⟩)
  refine refreshes.keeps_effect_bind.mpr ⟨trivial, ?_⟩
  rintro ⟨cached, instant⟩ -
  dsimp only
  split
  · next hfresh =>
    refine hreport _ _ ?_
    rintro policy ⟨⟩
    exact ⟨rfl, now, rfl, hfresh.1⟩
  · refine refreshes.keeps_effect_bind.mpr ⟨trivial, fun wire _ => ?_⟩
    refine refreshes.keeps_bind.mpr (keeps_refresh rfl ?_ ?_)
    · intro policy current changed hvalid
      refine hreport _ _ ?_
      rintro policy ⟨⟩
      exact ⟨rfl, now, rfl, hvalid⟩
    · intro error current
      refine refreshes.keeps_effect_bind.mpr ⟨rfl, fun cancelled _ => ?_⟩
      split
      · exact hreport _ _ nofun
      · refine refreshes.keeps_effect_bind.mpr ⟨trivial, ?_⟩
        rintro (_ | policy) hvalid
        · exact hreport _ _ nofun
        · refine hreport _ _ ?_
          rintro policy ⟨⟩
          exact ⟨rfl, now, rfl, hvalid policy rfl⟩

theorem new_keeps : Keeps (SecureClient.new env config) (fun _ _ => True) {} := by
  have herror (error : SecureClientError) (ψ : Refresh) :
      Keeps (ask (.report (.error error))) (fun _ _ => True) ψ := ⟨trivial, fun _ _ => trivial⟩
  have hok (policy : TrustPolicy) (ψ : Refresh) :
      Keeps (ask (.build policy)) (fun _ _ => True) ψ := ⟨trivial, fun _ _ => trivial⟩
  refine refreshes.keeps_bind.mpr (refreshes.keeps_effect_bind.mpr ⟨trivial, fun now _ => ?_⟩)
  split
  · exact herror _ _
  · split
    · exact hok _ _
    · refine refreshes.keeps_effect_bind.mpr ⟨trivial, ?_⟩
      rintro (error | _ | persisted) -
      · exact herror _ _
      · exact hok _ _
      · dsimp only
        split
        · exact hok _ _
        · refine refreshes.keeps_effect_bind.mpr ⟨trivial, fun now _ => ?_⟩
          split
          · exact herror _ _
          · split
            · exact herror _ _
            · split
              · exact herror _ _
              · exact hok _ _

end Refresh

/-! ## Histories only grow -/

/-- The policy that a client holds. -/
def PolicyWorld.held (w : PolicyWorld) (c : Nat) : Option TrustPolicy :=
  (w.clients c).bind fun client => client.held.map (·.policy)

/-- What one client holds and has held: the held policy may replace each of the others, and no two
of one sequence differ. -/
structure PolicyClient.Coherent (client : PolicyClient) : Prop where
  unheld : client.held = none → client.history = []
  mem : ∀ held, client.held = some held → held.policy ∈ client.history
  newest : ∀ held, client.held = some held →
    ∀ policy ∈ client.history, held.policy.Replaces policy
  same : ∀ policy ∈ client.history, ∀ other ∈ client.history,
    policy.sequence = other.sequence → policy = other

/-- A later state: no history shrinks, and no journal goes back. -/
structure PolicyWorld.Extends (w w' : PolicyWorld) : Prop where
  history : ∀ c client, w.clients c = some client →
    ∃ client', w'.clients c = some client' ∧ client.history ⊆ client'.history
  journal : ∀ path persisted, w.journals path = some persisted →
    ∃ persisted', w'.journals path = some persisted' ∧
      persisted.highestSequence ≤ persisted'.highestSequence

namespace PolicyWorld

variable {w w' w'' : PolicyWorld} {c : Nat} {client : PolicyClient}

theorem Extends.of_same (hclients : w'.clients = w.clients) (hjournals : w'.journals = w.journals) :
    w.Extends w' := by
  refine ⟨fun c client h => ⟨client, ?_, fun _ h => h⟩, fun path persisted h => ⟨persisted, ?_, ?_⟩⟩
  · rw [hclients, h]
  · rw [hjournals, h]
  · exact Nat.le_refl _

theorem Extends.refl (w : PolicyWorld) : w.Extends w := .of_same rfl rfl

theorem Extends.trans (h : w.Extends w') (h' : w'.Extends w'') : w.Extends w'' := by
  refine ⟨fun c client hclient => ?_, fun path persisted hpersisted => ?_⟩
  · obtain ⟨client', hclient', hsubset⟩ := h.history c client hclient
    obtain ⟨client'', hclient'', hsubset'⟩ := h'.history c client' hclient'
    exact ⟨client'', hclient'', fun _ hmem => hsubset' (hsubset hmem)⟩
  · obtain ⟨persisted', hpersisted', hle⟩ := h.journal path persisted hpersisted
    obtain ⟨persisted'', hpersisted'', hle'⟩ := h'.journal path persisted' hpersisted'
    exact ⟨persisted'', hpersisted'', by omega⟩

/-- A client goes on with a longer history. -/
theorem Extends.update {client' : PolicyClient} (hclient : w.clients c = some client)
    (hclients : w'.clients = Function.update w.clients c (some client'))
    (hjournals : w'.journals = w.journals) (hhistory : client.history ⊆ client'.history) :
    w.Extends w' := by
  refine ⟨fun d other hother => ?_, fun path persisted h => ⟨persisted, ?_, Nat.le_refl _⟩⟩
  · rw [hclients]
    by_cases hd : d = c
    · subst hd
      obtain rfl : client = other := Option.some.inj (hclient.symm.trans hother)
      exact ⟨client', Function.update_self _ _ _, hhistory⟩
    · exact ⟨other, (Function.update_of_ne hd _ _).trans hother, fun _ h => h⟩
  · rw [hjournals, h]

/-- A journal that is written has at least the sequence it had. -/
theorem extends_write {env : PolicyEnvironment} {i : Nat} {path : String} {limit : Nat}
    {persisted : PersistedTrustPolicy} (haccepted : w.refusal env path limit persisted = none) :
    w.Extends (w.write i path persisted) := by
  refine ⟨fun c client h => ⟨client, h, fun _ h => h⟩, fun other written hwritten => ?_⟩
  show ∃ persisted', Function.update w.journals path (some persisted) other = some persisted' ∧ _
  by_cases hother : other = path
  · subst hother
    refine ⟨persisted, Function.update_self _ _ _, ?_⟩
    unfold refusal at haccepted
    rw [hwritten] at haccepted
    split at haccepted
    · cases haccepted
    · next hnot => simpa using hnot
  · exact ⟨written, (Function.update_of_ne hother _ _).trans hwritten, Nat.le_refl _⟩

end PolicyWorld

/-- What a step of a task leaves of the others. -/
structure PolicyWorld.Apart (w w' : PolicyWorld) (i : Nat) : Prop where
  owner : w'.owner = w.owner
  next : w'.nextClient = w.nextClient
  clock : ∀ j, j ≠ i → w'.clocks j = w.clocks j
  mark : ∀ j, j ≠ i → w'.marks j = w.marks j
  changed : ∀ j, j ≠ i → (j ∈ w'.changed ↔ j ∈ w.changed)
  failed : ∀ j, j ≠ i → (j ∈ w'.failed ↔ j ∈ w.failed)

section Frame

variable {env : PolicyEnvironment} {w w' : PolicyWorld} {i c : Nat} {client : PolicyClient}
  {e : PolicyEffect} {choice : PolicyChoice} {r : e.Answer}

/-- **No step takes anything back.** -/
theorem PolicyExecuted.extends (h : PolicyExecuted env w i c client e choice w' r)
    (hclient : w.clients c = some client) : w.Extends w' := by
  cases h with
  | persisted _ _ _ _ _ _ haccepted _ => exact PolicyWorld.extends_write haccepted
  | install _ _ => exact .update hclient rfl rfl (List.subset_cons_self _ _)
  | lastKnownGood _ _ _ _ _ => exact .update hclient rfl rfl (fun _ h => h)
  | build _ _ => exact .update hclient rfl rfl (List.subset_cons_self _ _)
  | _ => exact .of_same rfl rfl

theorem PolicyExecuted.apart (h : PolicyExecuted env w i c client e choice w' r) :
    w.Apart w' i := by
  have hcons {j : Nat} (hj : j ≠ i) (tasks : List Nat) : j ∈ i :: tasks ↔ j ∈ tasks := by
    simp [hj]
  cases h with
  | now _ =>
    exact ⟨rfl, rfl, fun j hj => Function.update_of_ne hj _ _, fun _ _ => rfl, fun _ _ => Iff.rfl,
      fun _ _ => Iff.rfl⟩
  | current _ _ =>
    exact ⟨rfl, rfl, fun _ _ => rfl, fun j hj => Function.update_of_ne hj _ _, fun _ _ => Iff.rfl,
      fun _ _ => Iff.rfl⟩
  | persisted _ _ _ _ _ _ _ _ =>
    exact ⟨rfl, rfl, fun _ _ => rfl, fun _ _ => rfl, fun _ hj => hcons hj _, fun _ _ => Iff.rfl⟩
  | install _ _ =>
    exact ⟨rfl, rfl, fun _ _ => rfl, fun _ _ => rfl, fun _ hj => hcons hj _, fun _ _ => Iff.rfl⟩
  | cancelled _ =>
    exact ⟨rfl, rfl, fun _ _ => rfl, fun _ _ => rfl, fun _ _ => Iff.rfl, fun _ hj => hcons hj _⟩
  | _ =>
    exact ⟨rfl, rfl, fun _ _ => rfl, fun _ _ => rfl, fun _ _ => Iff.rfl, fun _ _ => Iff.rfl⟩

end Frame

/-! ## The invariant -/

/-- The clients and what they have returned. -/
structure PolicyWorld.Coherent (w : PolicyWorld) : Prop where
  fresh : ∀ c, w.nextClient ≤ c → w.clients c = none
  client : ∀ c client, w.clients c = some client → client.Coherent
  returned : ∀ entry ∈ w.returned, entry.policy.isValidAt entry.now = true ∧
    ∃ client, w.clients entry.client = some client ∧ entry.policy ∈ client.history

/-- What a task knows holds. -/
structure Refresh.Backed (ψ : Refresh) (w : PolicyWorld) (i : Nat) : Prop where
  chosen : ∀ policy, ψ.chosen = some policy →
    ∃ client, w.clients (w.owner i) = some client ∧ policy ∈ client.history
  clock : w.clocks i = ψ.now
  mark : w.marks i = ψ.current
  changed : i ∈ w.changed → ψ.changed = true
  failed : i ∈ w.failed → ψ.failed = true ∧ i ∉ w.changed

structure PolicyKept (w : PolicyWorld) (φ : Nat → Refresh) : Prop where
  coherent : w.Coherent
  backed : ∀ i, (φ i).Backed w i

section Steps

variable {env : PolicyEnvironment} {w w' : PolicyWorld} {i c : Nat} {client : PolicyClient}
  {ψ : Refresh} {e : PolicyEffect} {choice : PolicyChoice} {r : e.Answer}

/-- What another task knows is left as it is. -/
theorem Refresh.Backed.apart (h : ψ.Backed w c) (hextends : w.Extends w') (hapart : w.Apart w' i)
    (hc : c ≠ i) : ψ.Backed w' c := by
  refine ⟨fun policy hchosen => ?_, ?_, ?_, fun hchanged => ?_, fun hfailed => ?_⟩
  · obtain ⟨client, hclient, hmem⟩ := h.chosen policy hchosen
    obtain ⟨client', hclient', hsubset⟩ := hextends.history _ client hclient
    exact ⟨client', by rw [hapart.owner, hclient'], hsubset hmem⟩
  · rw [hapart.clock c hc, h.clock]
  · rw [hapart.mark c hc, h.mark]
  · exact h.changed ((hapart.changed c hc).mp hchanged)
  · obtain ⟨hψ, hunchanged⟩ := h.failed ((hapart.failed c hc).mp hfailed)
    exact ⟨hψ, fun hchanged => hunchanged ((hapart.changed c hc).mp hchanged)⟩

/-- A task that knows no policy yet may be another client's. -/
theorem Refresh.Backed.enroll (h : ψ.Backed w i) (hextends : w.Extends w')
    (howner : w'.owner i = w.owner i ∨ ψ = {}) (hclocks : w'.clocks = w.clocks)
    (hmarks : w'.marks = w.marks) (hchanged : w'.changed = w.changed)
    (hfailed : w'.failed = w.failed) : ψ.Backed w' i := by
  refine ⟨fun policy hchosen => ?_, ?_, ?_, ?_, ?_⟩
  · rcases howner with howner | rfl
    · obtain ⟨client, hclient, hmem⟩ := h.chosen policy hchosen
      obtain ⟨client', hclient', hsubset⟩ := hextends.history _ client hclient
      exact ⟨client', by rw [howner, hclient'], hsubset hmem⟩
    · cases hchosen
  · rw [hclocks, h.clock]
  · rw [hmarks, h.mark]
  · rw [hchanged]
    exact h.changed
  · rw [hchanged, hfailed]
    exact h.failed

/-- The clients are coherent after a step that changes one of them, or none. -/
theorem PolicyWorld.Coherent.update (h : w.Coherent) {client' : PolicyClient}
    (hclient : w.clients c = some client) (hcoherent : client'.Coherent)
    (hclients : w'.clients = Function.update w.clients c (some client'))
    (hnext : w'.nextClient = w.nextClient) (hreturned : w'.returned = w.returned)
    (hextends : w.Extends w') : w'.Coherent := by
  refine ⟨fun d hd => ?_, fun d other hother => ?_, fun entry hentry => ?_⟩
  · rw [hnext] at hd
    have hdc : d ≠ c := by
      rintro rfl
      cases (h.fresh d hd).symm.trans hclient
    rw [hclients, Function.update_of_ne hdc]
    exact h.fresh d hd
  · rw [hclients] at hother
    by_cases hdc : d = c
    · subst hdc
      rw [Function.update_self] at hother
      cases hother
      exact hcoherent
    · rw [Function.update_of_ne hdc] at hother
      exact h.client d other hother
  · rw [hreturned] at hentry
    obtain ⟨hvalid, client, hclient, hmem⟩ := h.returned entry hentry
    obtain ⟨client', hclient', hsubset⟩ := hextends.history _ client hclient
    exact ⟨hvalid, client', hclient', hsubset hmem⟩

theorem PolicyWorld.Coherent.of_same (h : w.Coherent) (hclients : w'.clients = w.clients)
    (hnext : w'.nextClient = w.nextClient) (hreturned : w'.returned = w.returned) :
    w'.Coherent := by
  refine ⟨?_, ?_, ?_⟩
  · rw [hclients, hnext]
    exact h.fresh
  · rw [hclients]
    exact h.client
  · rw [hclients, hreturned]
    exact h.returned

/-- A client that takes on a policy which may replace all it has held. -/
theorem PolicyClient.Coherent.hold (h : client.Coherent) (held : CachedTrustPolicy)
    (hreplaces : ∀ policy ∈ client.history, held.policy.Replaces policy) :
    PolicyClient.Coherent
      { client with held := some held, history := held.policy :: client.history } := by
  have hnewest : ∀ policy ∈ held.policy :: client.history, held.policy.Replaces policy := by
    intro policy hpolicy
    rcases List.mem_cons.mp hpolicy with rfl | hmem
    · exact .refl _
    · exact hreplaces policy hmem
  refine ⟨nofun, ?_, ?_, ?_⟩
  · rintro _ ⟨⟩
    exact List.mem_cons_self
  · rintro _ ⟨⟩
    exact hnewest
  · intro policy hpolicy other hother heq
    rcases List.mem_cons.mp hpolicy with rfl | hmem
    · exact (hnewest other hother).2 heq
    · rcases List.mem_cons.mp hother with rfl | hmem'
      · exact ((hreplaces policy hmem).2 heq.symm).symm
      · exact h.same policy hmem other hmem' heq

/-- **A step keeps the clients coherent**, where a candidate that is installed may replace the
policy that is held then. -/
theorem PolicyWorld.Coherent.executed (h : w.Coherent)
    (hclient : w.clients c = some client) (hbacked : ψ.Backed w i) (howner : w.owner i = c)
    (hrequires : refreshes.requires e ψ)
    (hreplaces : ∀ candidate, e = .install candidate →
      ∀ held, client.held = some held → candidate.Replaces held.policy)
    (hexecuted : PolicyExecuted env w i c client e choice w' r) : w'.Coherent := by
  have hextends := hexecuted.extends hclient
  have hcoherent := h.client c client hclient
  cases hexecuted with
  | install candidate instant =>
    refine h.update hclient (hcoherent.hold ⟨candidate, some instant⟩ ?_) rfl rfl rfl
      hextends
    intro policy hpolicy
    cases hheld : client.held with
    | none =>
      rw [hcoherent.unheld hheld] at hpolicy
      cases hpolicy
    | some held =>
      exact (hreplaces candidate rfl held hheld).trans (hcoherent.newest held hheld policy hpolicy)
  | build policy hnone =>
    refine h.update hclient (hcoherent.hold ⟨policy, none⟩ ?_) rfl rfl rfl hextends
    intro policy hpolicy
    rw [hcoherent.unheld hnone] at hpolicy
    cases hpolicy
  | lastKnownGood now instant held hheld hvalid =>
    have hagain : PolicyClient.Coherent { client with held := some ⟨held.policy, some instant⟩ } := by
      refine ⟨nofun, ?_, ?_, hcoherent.same⟩
      · rintro _ ⟨⟩
        exact hcoherent.mem held hheld
      · rintro _ ⟨⟩
        exact hcoherent.newest held hheld
    exact h.update hclient hagain rfl rfl rfl hextends
  | reportOk policy =>
    obtain ⟨hchosen, now, hnow, hvalid⟩ := hrequires
    refine ⟨h.fresh, h.client, fun entry hentry => ?_⟩
    rw [hbacked.clock, hnow] at hentry
    rcases List.mem_cons.mp hentry with rfl | hentry
    · obtain ⟨other, hother, hmem⟩ := hbacked.chosen policy hchosen
      exact ⟨hvalid, other, howner ▸ hother, hmem⟩
    · exact h.returned entry hentry
  | _ => exact h.of_same rfl rfl rfl

/-- **A step keeps what its task knows.** -/
theorem Refresh.Backed.executed (h : ψ.Backed w i) (hcoherent : w.Coherent)
    (hclient : w.clients c = some client) (howner : w.owner i = c)
    (hrequires : refreshes.requires e ψ)
    (hsynced : ∀ path limit signedPolicy policy,
      e = .persist path limit signedPolicy policy → choice ≠ .unsynced)
    (hexecuted : PolicyExecuted env w i c client e choice w' r) :
    refreshes.admits e ψ r ∧ (refreshes.next e ψ r).Backed w' i := by
  subst howner
  have hextends := hexecuted.extends hclient
  have hchosen {ψ' : Refresh} (hψ : ψ'.chosen = ψ.chosen) (howner : w'.owner = w.owner)
      (policy : TrustPolicy) (hpolicy : ψ'.chosen = some policy) :
      ∃ client', w'.clients (w'.owner i) = some client' ∧ policy ∈ client'.history := by
    obtain ⟨client, hclient, hmem⟩ := h.chosen policy (hψ ▸ hpolicy)
    obtain ⟨client', hclient', hsubset⟩ := hextends.history _ client hclient
    exact ⟨client', by rw [howner, hclient'], hsubset hmem⟩
  cases hexecuted with
  | now now =>
    exact ⟨trivial, hchosen rfl rfl, Function.update_self _ _ _, h.mark, h.changed, h.failed⟩
  | cached held instant hheld =>
    refine ⟨trivial, ?_, h.clock, h.mark, h.changed, h.failed⟩
    rintro policy ⟨⟩
    exact ⟨client, hclient, (hcoherent.client _ client hclient).mem held hheld⟩
  | current held hheld =>
    exact ⟨trivial, hchosen rfl rfl, h.clock, Function.update_self _ _ _, h.changed, h.failed⟩
  | persisted path limit signedPolicy policy choice r haccepted hchoice =>
    obtain rfl := hchoice.resolve_left (hsynced path limit signedPolicy policy rfl)
    refine ⟨trivial, hchosen rfl rfl, h.clock, h.mark, fun _ => rfl, fun hfailed => ?_⟩
    cases (h.failed hfailed).1.symm.trans hrequires
  | install candidate instant =>
    refine ⟨trivial, ?_, h.clock, h.mark, fun _ => rfl, fun hfailed => ?_⟩
    · rintro policy ⟨⟩
      exact ⟨_, Function.update_self _ _ _, List.mem_cons_self⟩
    · cases (h.failed hfailed).1.symm.trans hrequires.1
  | cancelled cancelled =>
    refine ⟨trivial, hchosen rfl rfl, h.clock, h.mark, h.changed, fun _ => ⟨rfl, fun hchanged => ?_⟩⟩
    cases (h.changed hchanged).symm.trans hrequires
  | lastKnownGood now instant held hheld hvalid =>
    refine ⟨?_, ?_, h.clock, h.mark, h.changed, h.failed⟩
    · rintro policy ⟨⟩
      exact hvalid
    · rintro policy ⟨⟩
      exact ⟨_, Function.update_self _ _ _, (hcoherent.client _ client hclient).mem held hheld⟩
  | noneGood now instant => exact ⟨nofun, nofun, h.clock, h.mark, h.changed, h.failed⟩
  | _ => exact ⟨trivial, hchosen rfl rfl, h.clock, h.mark, h.changed, h.failed⟩

end Steps

/-! ## The runs -/

/-- No other call of the client has come between a comparison and its install, or only with a policy
that the candidate may replace; no directory sync fails behind a journal that is in place. -/
def Uncontested (pool : Pool PolicyWorld PolicyEffect PolicyEffect.Answer) :
    PoolStep PolicyChoice Empty PolicyOperation → Bool
  | .run i choice =>
    match pool.tasks i with
    | some (.ask (.install candidate) _) =>
      let held := pool.shared.held (pool.shared.owner i)
      held = pool.shared.marks i || held.all fun held => held.sequence < candidate.sequence ||
        held = candidate
    | some (.ask (.persist _ _ _ _) _) => match choice with
      | .unsynced => false
      | _ => true
    | _ => true
  | _ => true

/-- The clients are as they should be, and behind an earlier state. -/
def PolicyKeptSince (w₀ w : PolicyWorld) (φ : Nat → Refresh) : Prop :=
  PolicyKept w φ ∧ w₀.Extends w

theorem uncontested_install {pool : Pool PolicyWorld PolicyEffect PolicyEffect.Answer} {i : Nat}
    {choice : PolicyChoice} {candidate current : TrustPolicy}
    {k : Unit → PolicyProg Unit} {client : PolicyClient} {held : CachedTrustPolicy}
    (hi : pool.tasks i = some (.ask (.install candidate) k))
    (hC : Uncontested pool (.run i choice) = true)
    (hclient : pool.shared.clients (pool.shared.owner i) = some client)
    (hheld : client.held = some held) (hmark : pool.shared.marks i = some current)
    (hcurrent : candidate.Replaces current) : candidate.Replaces held.policy := by
  have hpolicy : pool.shared.held (pool.shared.owner i) = some held.policy := by
    simp [PolicyWorld.held, hclient, hheld]
  simp only [Uncontested, hi, hpolicy, hmark, Option.some.injEq, Option.all_some,
    Bool.or_eq_true, decide_eq_true_eq] at hC
  rcases hC with hsame | hnewer | hsame
  · rw [hsame]
    exact hcurrent
  · exact ⟨by omega, fun heq => by omega⟩
  · rw [hsame]
    exact .refl _

/-- What an operation begins with. -/
theorem policyStart_started {env : PolicyEnvironment} {w w' : PolicyWorld} {task : Nat}
    {operation : PolicyOperation} {p : PolicyProg Unit} (h : w.Coherent)
    (hstart : policyStart env w task operation = some (w', p)) :
    Refresh.Keeps p (fun _ _ => True) {} ∧ w'.Coherent ∧ w.Extends w' ∧
      (∃ c, w'.owner = Function.update w.owner task c) ∧ w'.clocks = w.clocks ∧
      w'.marks = w.marks ∧ w'.changed = w.changed ∧ w'.failed = w.failed := by
  cases operation with
  | build config =>
    cases hstart
    have hnone := h.fresh w.nextClient (Nat.le_refl _)
    have hold {c : Nat} {client : PolicyClient} (hclient : w.clients c = some client) :
        Function.update w.clients w.nextClient (some { config }) c = some client := by
      rw [Function.update_of_ne, hclient]
      rintro rfl
      cases hnone.symm.trans hclient
    refine ⟨Refresh.new_keeps, ⟨fun c hc => ?_, fun c client hclient => ?_, fun entry hentry => ?_⟩,
      ⟨fun c client hclient => ⟨client, hold hclient, fun _ h => h⟩,
        fun path persisted hpersisted => ⟨persisted, hpersisted, Nat.le_refl _⟩⟩,
      ⟨_, rfl⟩, rfl, rfl, rfl, rfl⟩
    · have hc : w.nextClient + 1 ≤ c := hc
      show Function.update w.clients w.nextClient (some { config }) c = none
      rw [Function.update_of_ne (by omega)]
      exact h.fresh c (by omega)
    · have hclient : Function.update w.clients w.nextClient (some { config }) c = some client :=
        hclient
      by_cases hc : c = w.nextClient
      · subst hc
        rw [Function.update_self] at hclient
        cases hclient
        exact ⟨fun _ => rfl, nofun, nofun, nofun⟩
      · rw [Function.update_of_ne hc] at hclient
        exact h.client c client hclient
    · obtain ⟨hvalid, client, hclient, hmem⟩ := h.returned entry hentry
      exact ⟨hvalid, client, hold hclient, hmem⟩
  | call c =>
    simp only [policyStart] at hstart
    split at hstart
    · split at hstart
      · cases hstart
        exact ⟨Refresh.call_keeps, h.of_same rfl rfl rfl, .of_same rfl rfl, ⟨_, rfl⟩, rfl, rfl, rfl,
          rfl⟩
      · cases hstart
    · cases hstart

/-- **The invariant of the policies** is kept by the runs of calls that are uncontested. -/
theorem policyKept_sound (env : PolicyEnvironment) (w₀ : PolicyWorld) :
    TaskSystem.Sound (policySystem env) refreshes (PolicyKeptSince w₀) {} (fun _ => True)
      fun pool step => Uncontested pool step = true where
  exec := by
    rintro pool φ i e k choice w' r ⟨⟨hcoherent, hbacked⟩, hsince⟩ hi hC hrequires hexec
    obtain ⟨client, hclient, hexecuted⟩ := policyExec_executed hexec
    have hextends := hexecuted.extends hclient
    have hsynced (path limit signedPolicy policy)
        (he : e = .persist path limit signedPolicy policy) : choice ≠ .unsynced := by
      subst he
      rintro rfl
      simp [Uncontested, hi] at hC
    have hreplaces (candidate) (he : e = .install candidate) (held)
        (hheld : client.held = some held) : candidate.Replaces held.policy := by
      subst he
      obtain ⟨-, current, hcurrent, hcandidate⟩ := hrequires
      exact uncontested_install hi hC hclient hheld ((hbacked i).mark.trans hcurrent) hcandidate
    obtain ⟨hadmits, hnext⟩ :=
      (hbacked i).executed hcoherent hclient rfl hrequires hsynced hexecuted
    refine ⟨hadmits, ⟨?_, fun j => ?_⟩, hsince.trans hextends⟩
    · exact hcoherent.executed hclient (hbacked i) rfl hrequires hreplaces hexecuted
    · by_cases hj : j = i
      · subst hj
        rw [Function.update_self]
        exact hnext
      · rw [Function.update_of_ne hj]
        exact (hbacked j).apart hextends hexecuted.apart hj
  event := nofun
  start := by
    rintro pool φ operation w' p ⟨⟨hcoherent, hbacked⟩, hsince⟩ htask - hstart
    have howned (c j : Nat) :
        Function.update pool.shared.owner pool.next c j = pool.shared.owner j ∨ φ j = {} := by
      by_cases hj : j = pool.next
      · subst hj
        exact .inr htask
      · exact .inl (Function.update_of_ne hj _ _)
    obtain ⟨hkeeps, hcoherent', hextends, howner, hclocks, hmarks, hchanged, hfailed⟩ :=
      policyStart_started hcoherent hstart
    refine ⟨hkeeps, ⟨hcoherent', fun j => ?_⟩, hsince.trans hextends⟩
    refine (hbacked j).enroll hextends ?_ hclocks hmarks hchanged hfailed
    obtain ⟨c, howner⟩ := howner
    rw [howner]
    exact howned c j

/-- The state a run reaches from some journals on disk. -/
def policyRun (env : PolicyEnvironment) (journals : String → Option PersistedTrustPolicy)
    (steps : List (PoolStep PolicyChoice Empty PolicyOperation)) : PolicyWorld :=
  ((policySystem env).machine.run { shared := { journals } } steps).1.shared

/-- The policies of a run and of what follows it. -/
structure NeverRollsBack (before after : PolicyWorld) : Prop where
  held : ∀ c policy, before.held c = some policy →
    ∃ policy', after.held c = some policy' ∧ policy'.Replaces policy
  persisted : ∀ path persisted, before.journals path = some persisted →
    ∃ persisted', after.journals path = some persisted' ∧
      persisted.highestSequence ≤ persisted'.highestSequence
  unforked : ∀ entry ∈ after.returned, ∀ other ∈ after.returned, entry.client = other.client →
    entry.policy.sequence = other.policy.sequence → entry.policy = other.policy
  unexpired : ∀ entry ∈ after.returned, entry.policy.isValidAt entry.now = true
  failed : ∀ task ∈ after.failed, task ∉ after.changed

theorem PolicyKeptSince.neverRollsBack {w w' : PolicyWorld} {φ φ' : Nat → Refresh}
    (h : PolicyKept w φ) (h' : PolicyKeptSince w w' φ') : NeverRollsBack w w' := by
  obtain ⟨⟨hcoherent', hbacked'⟩, hextends⟩ := h'
  refine ⟨?_, hextends.journal, ?_, fun entry hentry => (hcoherent'.returned entry hentry).1,
    fun task hfailed => ((hbacked' task).failed hfailed).2⟩
  · intro c policy hpolicy
    obtain ⟨client, hclient, hmap⟩ := Option.bind_eq_some_iff.mp hpolicy
    obtain ⟨held, hheld, rfl⟩ := Option.map_eq_some_iff.mp hmap
    have hmem := (h.coherent.client c client hclient).mem held hheld
    obtain ⟨client', hclient', hsubset⟩ := hextends.history c client hclient
    have hcoherent := hcoherent'.client c client' hclient'
    cases hheld' : client'.held with
    | none =>
      have hnone := hsubset hmem
      rw [hcoherent.unheld hheld'] at hnone
      cases hnone
    | some held' =>
      refine ⟨held'.policy, ?_, hcoherent.newest held' hheld' _ (hsubset hmem)⟩
      simp [PolicyWorld.held, hclient', hheld']
  · intro entry hentry other hother hclient hsequence
    obtain ⟨-, client, hentryClient, hmem⟩ := hcoherent'.returned entry hentry
    obtain ⟨-, client', hotherClient, hmem'⟩ := hcoherent'.returned other hother
    rw [hclient] at hentryClient
    obtain rfl : client = client' := Option.some.inj (hentryClient.symm.trans hotherClient)
    exact (hcoherent'.client _ client hotherClient).same _ hmem _ hmem' hsequence

/-- **The trust policy does not roll back**, and does not fork, in any run whose calls are
uncontested, from any journals. -/
theorem trust_policy_never_rolls_back (env : PolicyEnvironment)
    (journals : String → Option PersistedTrustPolicy)
    (earlier later : List (PoolStep PolicyChoice Empty PolicyOperation))
    (h : (policySystem env).machine.Meets (fun pool step => Uncontested pool step = true)
      { shared := { journals } } (earlier ++ later)) :
    NeverRollsBack (policyRun env journals earlier) (policyRun env journals (earlier ++ later)) := by
  obtain ⟨hearlier, hlater⟩ := ((policySystem env).machine.meets_append _ _ _ _).mp h
  have hstart : PolicyKept { journals } fun _ => {} := by
    refine ⟨⟨fun _ _ => rfl, nofun, nofun⟩, fun _ => ⟨nofun, rfl, rfl, nofun, nofun⟩⟩
  obtain ⟨φ, hrelated⟩ := (policyKept_sound env { journals }).run ⟨hstart, .refl _⟩ hearlier
  have hkept := hrelated.inv.1
  obtain ⟨φ', hrelated'⟩ := TaskSystem.Related.run (policyKept_sound env _)
    ⟨⟨hkept, .refl _⟩, hrelated.tasks, hrelated.fresh⟩ hlater
  unfold policyRun
  rw [(policySystem env).machine.run_append]
  exact PolicyKeptSince.neverRollsBack hkept hrelated'.inv

/-! ## Two runs -/

/-- A document of a sequence that keeps the mandatory checks. -/
def plainDocument (sequence : Nat) : SignedPolicyDocument where
  schemaVersion := 2
  sequence := sequence
  version := "policy"
  issuedAtUnixSeconds := 0
  notBeforeUnixSeconds := 0
  expiresAtUnixSeconds := 1000
  acceptedIntelStatuses := ["UpToDate"]
  requireNvidiaVerified := true
  requireModelBinding := true
  requireLiveTlsBinding := true
  nvidiaAnchorSha256 := [String.ofList (List.replicate 64 'a')]

def plainPolicy (sequence : Nat) : TrustPolicy where
  sequence := sequence
  version := "policy"
  expiresAtUnixSeconds := 1000
  acceptedIntelStatuses := ["UpToDate"]
  requireNvidiaVerified := true
  requireModelBinding := true
  requireLiveTlsBinding := true
  nvidiaAnchorSha256 := [String.ofList (List.replicate 64 'a')]

/-- An environment with three signed policies. -/
def plainEnvironment : PolicyEnvironment where
  decode input := match [("4", 4), ("5", 5), ("6", 6)].lookup input with
    | some sequence => .ok (plainDocument sequence)
    | none => .error "invalid"
  bundled := "4"
  encodedLength _ := 100

/-- A client is built. -/
def built (cachePath : Option String) : List (PoolStep PolicyChoice Empty PolicyOperation) :=
  [.start (.build { cachePath }), .run 0 (.time 100)] ++
    (if cachePath.isSome then [.run 0 .go] else []) ++ [.run 0 .go]

/-- A call of the client has been answered, and has compared the answer. -/
def compared (task : Nat) (answer : String) : List (PoolStep PolicyChoice Empty PolicyOperation) :=
  [.start (.call 0), .run task (.time 100), .run task (.instant 0),
    .run task (.reply (.ok (some answer))), .run task .go]

/-- A call whose answer is newer persists, installs and returns it. -/
def oneCall : List (PoolStep PolicyChoice Empty PolicyOperation) :=
  compared 1 "5" ++ [.run 1 .go, .run 1 (.instant 1), .run 1 .go]

/-- Two calls compare their answers with the policy the client was built with; the one with the
newer answer goes first. -/
def newerFirst : List (PoolStep PolicyChoice Empty PolicyOperation) :=
  built none ++ compared 1 "5" ++ compared 2 "6" ++ [.run 2 (.instant 1)]

def plainRun (steps : List (PoolStep PolicyChoice Empty PolicyOperation)) : PolicyWorld :=
  policyRun plainEnvironment (fun _ => none) steps

/-- **A run of one call.** -/
theorem trust_policy_never_rolls_back_installed :
    (plainRun (built (some "policy.json") ++ oneCall)).held 0 = some (plainPolicy 5) ∧
      (plainRun (built (some "policy.json") ++ oneCall)).journals "policy.json" = some ⟨5, "5"⟩ ∧
      (plainRun (built (some "policy.json") ++ oneCall)).returned = [⟨0, 100, plainPolicy 5⟩] ∧
      NeverRollsBack (plainRun (built (some "policy.json")))
        (plainRun (built (some "policy.json") ++ oneCall)) := by
  refine ⟨by decide +kernel, by decide +kernel, by decide +kernel, ?_⟩
  exact trust_policy_never_rolls_back plainEnvironment (fun _ => none) _ _ (by decide +kernel)

/-- **The older policy is installed last.** -/
theorem older_policy_installed :
    (plainRun newerFirst).held 0 = some (plainPolicy 6) ∧
      (plainRun (newerFirst ++ [.run 1 (.instant 2)])).held 0 = some (plainPolicy 5) ∧
      ¬ NeverRollsBack (plainRun newerFirst) (plainRun (newerFirst ++ [.run 1 (.instant 2)])) := by
  have hnewer : (plainRun newerFirst).held 0 = some (plainPolicy 6) := by decide +kernel
  have holder : (plainRun (newerFirst ++ [.run 1 (.instant 2)])).held 0 = some (plainPolicy 5) := by
    decide +kernel
  refine ⟨hnewer, holder, fun h => ?_⟩
  obtain ⟨policy, hpolicy, hle, -⟩ := h.held 0 _ hnewer
  rw [holder] at hpolicy
  cases hpolicy
  simp [plainPolicy] at hle

end AxiomDesktop
