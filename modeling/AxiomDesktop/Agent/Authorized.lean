import AxiomDesktop.Agent.Authorize
import AxiomDesktop.Policy.Authority
import Mathlib.Data.List.Forall2

/-!
# Nothing runs without authority

When `authorize` returns `Ok`, the policy has decided on the use of the tool and on every effect the
tool reports, none of them is denied, and no question was declined, failed or rejected
(`AuthorizeReturn.Lawful`); a policy holds only grants that the user chose in a prompt that offered
them (`GrantsApproved`).

In the confirm profile an effect that the policy asks about is left to the prompt for the tool, and
there is none where the tool itself is allowed by default: what the policy asks about has been
approved exactly in the calls of `AuthorizeReturn.Gated`, `nothing_runs_without_authority`.
-/

namespace AxiomDesktop

/-! ## What the policy decides -/

namespace PolicyEngine

variable {host : PolicyHost} {engine : PolicyEngine} {profile : PermissionProfile}
  {effect : Effect} {desktopMcp : Bool} {decision : PolicyDecision}

theorem profileDefault_ungrantable (profile : PermissionProfile) (effect : Effect) :
    (profileDefault profile effect).2.2 = false := by
  unfold profileDefault
  split <;> rfl

/-- What the policy asks about can be granted only where it asks about a tool of a server. -/
theorem desktopMcp_of_ask
    (h : engine.evaluateWithDefaults host profile effect desktopMcp = decision)
    (hkind : decision.kind = .ask) (hgrant : decision.sessionGrantAllowed = true) :
    desktopMcp = true ∧ engine.normalize host effect = .ok decision.normalizedEffect := by
  unfold evaluateWithDefaults at h
  split at h
  · subst h
    cases hkind
  · next normalized hnormal =>
    have hungrantable := profileDefault_ungrantable profile normalized
    dsimp only at h
    split at h
    · subst h
      cases hkind
    · split at h
      · subst h
        cases hkind
      · split at h
        · subst h
          cases hungrantable.symm.trans hgrant
        · split at h
          · subst h
            cases hgrant
          · split_ifs at h with hgranted hmcp <;> subst h
            · cases hkind
            · exact ⟨hmcp, hnormal⟩
            · cases hungrantable.symm.trans hgrant

/-- A tool of a server stays one. -/
theorem normalize_mcp {server tool : String} {sideEffecting : Bool} {normalized : Effect}
    (h : engine.normalize host (.mcp server tool sideEffecting) = .ok normalized) :
    ∃ server tool sideEffecting, normalized = .mcp server tool sideEffecting := by
  simp only [normalize] at h
  obtain ⟨server', -, h⟩ := Fallible.result_bind_ok h
  obtain ⟨tool', -, h⟩ := Fallible.result_bind_ok h
  cases h
  exact ⟨_, _, _, rfl⟩

theorem mcp_of_ask (h : engine.evaluateCall host desktopMcp profile effect = decision)
    (hkind : decision.kind = .ask) (hgrant : decision.sessionGrantAllowed = true) :
    ∃ server tool sideEffecting, decision.normalizedEffect = .mcp server tool sideEffecting := by
  unfold evaluateCall at h
  cases desktopMcp with
  | false => cases (desktopMcp_of_ask h hkind hgrant).1
  | true =>
    simp only [if_true, evaluateDesktopMcp] at h
    split at h
    · exact normalize_mcp (desktopMcp_of_ask h hkind hgrant).2
    · subst h
      cases hkind

end PolicyEngine

/-! ## What a prompt shows -/

section Lists

variable {α β : Type} {R : α → β → Prop} {as : List α} {bs : List β}

theorem exists_of_mem_left (h : List.Forall₂ R as bs) {a : α} (ha : a ∈ as) : ∃ b ∈ bs, R a b := by
  induction h with
  | nil => cases ha
  | cons hr _ ih =>
    rcases List.mem_cons.mp ha with rfl | ha
    · exact ⟨_, List.mem_cons_self, hr⟩
    · obtain ⟨b, hb, hr⟩ := ih ha
      exact ⟨b, List.mem_cons_of_mem _ hb, hr⟩

theorem exists_of_mem_right (h : List.Forall₂ R as bs) {b : β} (hb : b ∈ bs) : ∃ a ∈ as, R a b :=
  exists_of_mem_left h.flip hb

end Lists

theorem intercalate_ne_empty {separator text : String} {texts : List String} (h : text ∈ texts)
    (hne : text ≠ "") : separator.intercalate texts ≠ "" := by
  induction texts with
  | nil => cases h
  | cons first rest ih =>
    cases rest with
    | nil =>
      obtain rfl := List.mem_singleton.mp h
      simpa using hne
    | cons second rest =>
      simp only [String.intercalate_cons_cons, ne_eq, String.append_eq_empty_iff, not_and]
      rintro ⟨hfirst, -⟩
      rcases List.mem_cons.mp h with rfl | h
      · exact absurd hfirst hne
      · exact ih h

theorem describeEffect_ne_empty (effect : Effect) : describeEffect effect ≠ "" := by
  unfold describeEffect
  split <;> simp

namespace ApprovalPrompt

/-- A prompt offers a grant as one of its choices: the effect itself, or the scope it shows. -/
def Offers (prompt : ApprovalPrompt) (choice : ApprovalChoice) (grant : ScopedGrant) : Prop :=
  choice ∈ prompt.offeredChoices ∧
    (choice = .allowExactSession ∧ grant = .exact prompt.effect ∨
      choice = .allowPrefixSession ∧ prompt.suggestedPrefixScope = some (describeGrant grant))

/-- A prompt that allows grants is one for a tool of a server, and shows the server's scope. -/
def WellOffered (prompt : ApprovalPrompt) : Prop :=
  prompt.allowSessionGrants = true → ∃ server tool sideEffecting,
    prompt.effect = .mcp server tool sideEffecting ∧
      prompt.suggestedPrefixScope = some (describeGrant (.mcpServer server sideEffecting))

variable {host : PolicyHost} {prompt : ApprovalPrompt} {decision : PolicyDecision} {id : String}

theorem wellOffered_new
    (h : decision.sessionGrantAllowed = true → ∃ server tool sideEffecting,
      decision.normalizedEffect = .mcp server tool sideEffecting) :
    (new host id decision).WellOffered := by
  intro hallow
  have hallow : decision.sessionGrantAllowed = true := hallow
  obtain ⟨server, tool, sideEffecting, heffect⟩ := h hallow
  refine ⟨server, tool, sideEffecting, heffect, ?_⟩
  simp [new, hallow, heffect, suggestedPrefix]

/-- What an approval grants is what the prompt offers. -/
theorem WellOffered.offers (h : prompt.WellOffered) {engine : PolicyEngine}
    {choice : ApprovalChoice} {grant : ScopedGrant}
    (hgrant : engine.approvedGrant host prompt.toApprovalRequest choice = .ok (some grant)) :
    prompt.Offers choice grant := by
  unfold PolicyEngine.approvedGrant at hgrant
  split at hgrant
  · cases hgrant
  · cases hgrant
  all_goals
    split at hgrant
    · cases hgrant
    · next hallow =>
      have hallow : prompt.allowSessionGrants = true := by simpa using hallow
      obtain ⟨server, tool, sideEffecting, heffect, hscope⟩ := h hallow
      split at hgrant
      · cases hgrant
      · simp only [heffect, suggestedPrefix, reduceCtorEq, if_true, if_false, Except.ok.injEq,
          Option.some.injEq] at hgrant
        subst hgrant
        simp [Offers, offeredChoices, hallow, hscope, heffect]

end ApprovalPrompt

/-! ## What a call does -/

/-- The effects that were decided in a call. -/
def decidedIn (log : List AuthorizeEntry) : List (Effect × PolicyDecision) :=
  log.filterMap fun
    | .decided effect decision => some (effect, decision)
    | _ => none

namespace AuthorizeOperation

variable (o : AuthorizeOperation)

/-- The policy of some moment decides so on an effect of the call. -/
def Decides (effect : Effect) (decision : PolicyDecision) : Prop :=
  ∃ (host : PolicyHost) (engine : PolicyEngine),
    engine.evaluateCall host (AgentEngine.desktopMcp o.context o.toolName)
      o.context.permissionProfile effect = decision

/-- The prompt puts a decision to the user. -/
def Prompts (concrete : List Effect) (decision : PolicyDecision) (prompt : ApprovalPrompt) : Prop :=
  ∃ host id,
    prompt = AgentEngine.explain o.context o.toolName o.arguments concrete decision
      (.new host id decision)

/-- A prompt and the choice that the user made allow what a decision asks for. -/
def Allows (concrete : List Effect) (decision : PolicyDecision)
    (answer : ApprovalPrompt × ApprovalChoice) : Prop :=
  answer.2.isAllowed ∧ o.Prompts concrete decision answer.1

/-- What has happened in a call that returns `Ok`. -/
inductive Passes : List AuthorizeEntry → Prop where
  | intro (own reported : List Effect) (decisions : List (Effect × PolicyDecision))
      (answers : List (ApprovalPrompt × ApprovalChoice))
      (hown : AgentEngine.toolEffects o.tools o.context o.toolName = .ok own)
      (heffects : decisions.map Prod.fst = own ++ reported)
      (hdecides : ∀ d ∈ decisions, o.Decides d.1 d.2)
      (hundenied : ∀ d ∈ decisions, d.2.kind ≠ .deny)
      (hanswers : List.Forall₂ (o.Allows (AgentEngine.concreteEffects (decisions.map Prod.snd)))
        (AgentEngine.asked o.context o.toolName (decisions.map Prod.snd)) answers) :
    Passes (.reported reported :: decisions.map (fun d => .decided d.1 d.2) ++
      answers.map fun a => .answered a.1 a.2)

end AuthorizeOperation

/-- What a call has done, and what it needs of that. -/
def authorizing : Protocol AuthorizeEffect AuthorizeEffect.Answer (List AuthorizeEntry) where
  requires
    | .apply _ prompt choice, log =>
      prompt.WellOffered ∧ (choice = .deny ∨ .answered prompt choice ∈ log)
    | .report operation (.ok ()), log => operation.Passes log
    | _, _ => True
  admits
    | .evaluate _ desktopMcp profile effect, _, decision =>
      ∃ host engine, PolicyEngine.evaluateCall host engine desktopMcp profile effect = decision
    | .newRequest decision, _, prompt => ∃ host id, prompt = .new host id decision
    | _, _, _ => True
  next
    | .effects _ _ _, log, .ok reported => log ++ [.reported reported]
    | .evaluate _ _ _ effect, log, decision => log ++ [.decided effect decision]
    | .request prompt, log, .responded choice => log ++ [.answered prompt choice]
    | .request prompt, log, _ => log ++ [.failed prompt]
    | .apply _ prompt choice, log, .error _ => log ++ [.rejected prompt choice]
    | _, log, _ => log

namespace Authorizing

open AgentEngine

variable {o : AuthorizeOperation} {log : List AuthorizeEntry}

/-- The call keeps to the protocol and ends in `Q`. -/
abbrev Keeps {α : Type} (p : AuthorizeProg α) (Q : α → List AuthorizeEntry → Prop)
    (log : List AuthorizeEntry) : Prop :=
  authorizing.Keeps p Q log

theorem keeps_evaluateAll {policy : Nat} {effects : List Effect} :
    Keeps (evaluateAll o.context o.toolName policy effects)
      (fun decisions log' => ∃ decided : List (Effect × PolicyDecision),
        decided.map Prod.fst = effects ∧ decided.map Prod.snd = decisions ∧
        (∀ d ∈ decided, o.Decides d.1 d.2) ∧
        log' = log ++ decided.map fun d => .decided d.1 d.2) log := by
  induction effects generalizing log with
  | nil => exact ⟨[], rfl, rfl, by simp, by simp⟩
  | cons effect rest ih =>
    refine authorizing.keeps_effect_bind.mpr ⟨trivial, ?_⟩
    rintro decision ⟨host, engine, hdecision⟩
    refine Protocol.Keeps.bind authorizing ih ?_
    rintro decisions log' ⟨decided, hfst, hsnd, hdecides, rfl⟩
    refine ⟨(effect, decision) :: decided, by simp [hfst], by simp [hsnd], ?_, ?_⟩
    · rintro d (_ | ⟨_, hd⟩)
      · exact ⟨host, engine, hdecision⟩
      · exact hdecides d hd
    · simp [authorizing]

/-- The answer to a prompt is in the log, or a denial for the lack of a handler. -/
theorem keeps_response {prompt : ApprovalPrompt} :
    Keeps (response o.context prompt)
      (fun result log' => ∀ choice, result = .ok choice →
        choice = .deny ∧ log' = log ∨ log' = log ++ [.answered prompt choice]) log := by
  unfold response
  split
  · refine ⟨trivial, ?_⟩
    rintro (choice | error | _) -
    · rintro _ ⟨⟩
      exact .inr rfl
    · refine ⟨trivial, ?_⟩
      rintro (_ | _) - <;> exact nofun
    · exact nofun
  · rintro _ ⟨⟩
    exact .inl ⟨rfl, rfl⟩

theorem keeps_settle {policy : Nat} {prompt : ApprovalPrompt} {choice : ApprovalChoice}
    (hprompt : prompt.WellOffered) (hchoice : choice = .deny ∨ .answered prompt choice ∈ log) :
    Keeps (settle o.context policy prompt choice)
      (fun result log' => result = .ok () → choice.isAllowed ∧ log' = log) log := by
  refine ⟨⟨hprompt, hchoice⟩, ?_⟩
  rintro (error | ⟨⟩) -
  · refine ⟨trivial, ?_⟩
    rintro (_ | _) - <;> exact nofun
  · refine ⟨trivial, ?_⟩
    rintro (_ | _) -
    · show Keeps (if choice.isAllowed then _ else _) _ _
      split
      · next hallowed => exact fun _ => ⟨hallowed, rfl⟩
      · split <;> exact nofun
    · exact nofun

/-- The texts of a prompt are no part of what it offers. -/
theorem wellOffered_explain {concrete : List Effect} {decision : PolicyDecision}
    {prompt : ApprovalPrompt} (h : prompt.WellOffered) :
    (explain o.context o.toolName o.arguments concrete decision prompt).WellOffered := by
  unfold explain
  dsimp only
  split_ifs <;> exact h

theorem keeps_askUser {policy : Nat} {concrete : List Effect} {effect : Effect}
    {decision : PolicyDecision} (hkind : decision.kind = .ask) (hdecides : o.Decides effect decision) :
    Keeps (askUser o.context o.toolName o.arguments policy concrete decision)
      (fun result log' => result = .ok () → ∃ answer : ApprovalPrompt × ApprovalChoice,
        o.Allows concrete decision answer ∧ log' = log ++ [.answered answer.1 answer.2]) log := by
  refine authorizing.keeps_effect_bind.mpr ⟨trivial, ?_⟩
  rintro _ ⟨host, id, rfl⟩
  dsimp only
  have hoffered : (ApprovalPrompt.new host id decision).WellOffered := by
    obtain ⟨host', engine, hdecision⟩ := hdecides
    exact ApprovalPrompt.wellOffered_new (PolicyEngine.mcp_of_ask hdecision hkind)
  refine authorizing.keeps_effect_bind.mpr ⟨trivial, ?_⟩
  rintro (_ | _) -
  · refine Protocol.Keeps.bind authorizing keeps_response ?_
    rintro (error | choice) log' hresponse
    · exact nofun
    · obtain ⟨rfl, rfl⟩ | rfl := hresponse choice rfl
      · refine Protocol.Keeps.mono authorizing
          (keeps_settle (wellOffered_explain hoffered) (.inl rfl)) ?_
        intro result log' h hok
        cases (h hok).1
      · refine Protocol.Keeps.mono authorizing
          (keeps_settle (wellOffered_explain hoffered) (.inr (by simp))) ?_
        intro result log' h hok
        obtain ⟨hallowed, rfl⟩ := h hok
        exact ⟨(_, choice), ⟨hallowed, host, id, rfl⟩, rfl⟩
  · exact nofun

theorem keeps_askAll {policy : Nat} {concrete : List Effect} {decisions : List PolicyDecision}
    (h : ∀ decision ∈ decisions, decision.kind = .ask ∧ ∃ effect, o.Decides effect decision) :
    Keeps (askAll o.context o.toolName o.arguments policy concrete decisions)
      (fun result log' => result = .ok () →
        ∃ answers : List (ApprovalPrompt × ApprovalChoice),
          List.Forall₂ (o.Allows concrete) decisions answers ∧
          log' = log ++ answers.map fun a => .answered a.1 a.2) log := by
  induction decisions generalizing log with
  | nil => exact fun _ => ⟨[], .nil, by simp⟩
  | cons decision rest ih =>
    obtain ⟨hkind, effect, hdecides⟩ := h decision List.mem_cons_self
    refine Protocol.Keeps.bind authorizing (keeps_askUser hkind hdecides) ?_
    rintro (error | ⟨⟩) log' hanswer
    · exact nofun
    · obtain ⟨answer, hallows, rfl⟩ := hanswer rfl
      refine Protocol.Keeps.mono authorizing (ih fun d hd => h d (List.mem_cons_of_mem _ hd)) ?_
      intro result log' hrest hok
      obtain ⟨answers, hanswers, rfl⟩ := hrest hok
      exact ⟨answer :: answers, .cons hallows hanswers, by simp⟩

theorem keeps_authorize :
    Keeps (authorize o.tools o.context o.toolName o.arguments)
      (fun result log => result = .ok () → o.Passes log) [] := by
  unfold authorize
  split
  · exact nofun
  · refine ⟨trivial, fun modelId _ => ⟨trivial, ?_⟩⟩
    rintro (error | policy) -
    · exact nofun
    · split
      · exact nofun
      · next own hown =>
        refine authorizing.keeps_effect_bind.mpr ⟨trivial, ?_⟩
        rintro (error | reported) -
        · exact nofun
        · refine Protocol.Keeps.bind authorizing keeps_evaluateAll ?_
          rintro decisions log ⟨decided, heffects, rfl, hdecides, rfl⟩
          unfold AgentEngine.decide
          split
          · exact nofun
          · next hnone =>
            refine Protocol.Keeps.mono authorizing (keeps_askAll ?_) ?_
            · intro decision hdecision
              obtain ⟨hmem, hasked⟩ := List.mem_filter.mp hdecision
              obtain ⟨d, hd, rfl⟩ := List.mem_map.mp hmem
              simp only [Bool.and_eq_true, decide_eq_true_eq] at hasked
              exact ⟨hasked.1, d.1, hdecides d hd⟩
            · intro result log h hok
              obtain ⟨answers, hanswers, rfl⟩ := h hok
              refine .intro own reported decided answers hown heffects hdecides ?_ hanswers
              intro d hd hdeny
              have := List.find?_eq_none.mp hnone d.2 (List.mem_map_of_mem hd)
              simp [hdeny] at this

theorem keeps_call :
    Keeps (call o.tools o.context o.toolName o.arguments) (fun _ _ => True) [] := by
  refine Protocol.Keeps.bind authorizing keeps_authorize ?_
  rintro (error | ⟨⟩) log h
  · exact ⟨trivial, fun _ _ => trivial⟩
  · exact ⟨h rfl, fun _ _ => trivial⟩

end Authorizing

/-! ## What an effect does -/

/-- The ends of an effect of a call. -/
inductive AuthorizeExecuted (w : AuthorizeWorld) (i : Nat) :
    (e : AuthorizeEffect) → AuthorizeWorld → e.Answer → Prop where
  | model (id : String) : AuthorizeExecuted w i .model w id
  | policyHeld (context : AuthorizeContext) (r : Except AxiomError Nat) :
    AuthorizeExecuted w i (.policyFor context) w r
  | policyMade (context : AuthorizeContext) (engine : PolicyEngine)
      (hgrants : engine.grants = []) :
    AuthorizeExecuted w i (.policyFor context) (w.addPolicy context.sessionId engine)
      (.ok w.engines.length)
  | reported (name : String) (context : ToolContext) (arguments : Json) (reported : List Effect) :
    AuthorizeExecuted w i (.effects name context arguments) (w.note i (.reported reported))
      (.ok reported)
  | effectsFailed (name : String) (context : ToolContext) (arguments : Json) (error : AxiomError) :
    AuthorizeExecuted w i (.effects name context arguments) w (.error error)
  | evaluated (policy : Nat) (desktopMcp : Bool) (profile : PermissionProfile) (effect : Effect)
      (host : PolicyHost) (engine : PolicyEngine) :
    AuthorizeExecuted w i (.evaluate policy desktopMcp profile effect)
      (w.note i (.decided effect (engine.evaluateCall host desktopMcp profile effect)))
      (engine.evaluateCall host desktopMcp profile effect)
  | newRequest (decision : PolicyDecision) (host : PolicyHost) (id : String) :
    AuthorizeExecuted w i (.newRequest decision) w (.new host id decision)
  | sent (event : PermissionEvent) (closed : Bool) : AuthorizeExecuted w i (.send event) w closed
  | answered (prompt : ApprovalPrompt) (choice : ApprovalChoice) :
    AuthorizeExecuted w i (.request prompt) (w.note i (.answered prompt choice)) (.responded choice)
  | failed (prompt : ApprovalPrompt) (answer : ApprovalAnswer)
      (hanswer : ∀ choice, answer ≠ .responded choice) :
    AuthorizeExecuted w i (.request prompt) (w.note i (.failed prompt)) answer
  | rejected (policy : Nat) (prompt : ApprovalPrompt) (choice : ApprovalChoice)
      (error : AxiomError) :
    AuthorizeExecuted w i (.apply policy prompt choice) (w.note i (.rejected prompt choice))
      (.error error)
  | ungranted (policy : Nat) (prompt : ApprovalPrompt) (choice : ApprovalChoice) :
    AuthorizeExecuted w i (.apply policy prompt choice) w (.ok ())
  | granted (policy : Nat) (prompt : ApprovalPrompt) (choice : ApprovalChoice) (host : PolicyHost)
      (engine : PolicyEngine) (grant : ScopedGrant) (hengine : w.engines[policy]? = some engine)
      (hgrant : engine.approvedGrant host prompt.toApprovalRequest choice = .ok (some grant)) :
    AuthorizeExecuted w i (.apply policy prompt choice)
      { w with
        engines := w.engines.set policy { engine with grants := engine.grants ++ [grant] }
        recorded := ⟨i, policy, prompt, choice, grant⟩ :: w.recorded } (.ok ())
  | report (operation : AuthorizeOperation) (result : Except AuthorizeError Unit) :
    AuthorizeExecuted w i (.report operation result)
      { w with returned := ⟨operation, result, w.log i⟩ :: w.returned } ()

/-- A policy is made without grants. -/
theorem PolicyEngine.grants_forWorkspace {host : PolicyHost} {root : Path} {rules : List PolicyRule}
    {engine : PolicyEngine} (h : PolicyEngine.forWorkspaceWithRules host root rules = .ok engine) :
    engine.grants = [] := by
  unfold PolicyEngine.forWorkspaceWithRules at h
  obtain ⟨root, -, h⟩ := Fallible.result_bind_ok h
  obtain ⟨rules, -, h⟩ := Fallible.result_bind_ok h
  cases h
  rfl

/-- **What an effect of a call does.** -/
theorem authorizeExec_executed {w w' : AuthorizeWorld} {i : Nat} {e : AuthorizeEffect}
    {choice : AuthorizeChoice} {r : e.Answer} (h : authorizeExec w i e choice = some (w', r)) :
    AuthorizeExecuted w i e w' r := by
  unfold authorizeExec at h
  split at h
  case h_2 =>
    split at h
    · cases h
      exact .policyHeld _ _
    · split at h
      · cases h
        exact .policyHeld _ _
      · next engine hengine =>
        cases h
        obtain ⟨rules, -, hengine⟩ := Fallible.result_bind_ok hengine
        exact .policyMade _ _ (PolicyEngine.grants_forWorkspace hengine)
  case h_5 =>
    obtain ⟨engine, -, hsome⟩ := Option.map_eq_some_iff.mp h
    cases hsome
    exact .evaluated _ _ _ _ _ _
  case h_9 => 
    cases h
    exact .failed _ _ (by assumption)
  case h_10 =>
    obtain ⟨engine, hengine, hsome⟩ := Option.map_eq_some_iff.mp h
    unfold AuthorizeWorld.applyApproval at hsome
    split at hsome
    · cases hsome
      exact .rejected _ _ _ _
    · cases hsome
      exact .ungranted _ _ _
    · next grant hgrant =>
      cases hsome
      have := AuthorizeExecuted.granted (w := w) (i := i) _ _ _ _ engine grant hengine hgrant
      simpa [PolicyEngine.applyApproval, hgrant] using this
  case h_12 => cases h
  all_goals
    cases h
    constructor

/-! ## The policies of a run -/

/-- A grant comes from an answer of the user that its prompt offered. -/
def AuthorizeWorld.Approved (w : AuthorizeWorld) (g : RecordedGrant) : Prop :=
  .answered g.prompt g.choice ∈ w.log g.call ∧ g.choice.isAllowed ∧ g.prompt.Offers g.choice g.grant

/-- Every grant that a policy holds comes from such an answer. -/
def GrantsApproved (w : AuthorizeWorld) : Prop :=
  ∀ policy engine, w.engines[policy]? = some engine → ∀ grant ∈ engine.grants,
    ∃ g ∈ w.recorded, g.policy = policy ∧ g.grant = grant ∧ w.Approved g

/-- What is known of the calls of a run. -/
structure AuthorityKept (w : AuthorizeWorld) (φ : Nat → List AuthorizeEntry) : Prop where
  log : ∀ i, w.log i = φ i
  returned : ∀ r ∈ w.returned, r.result = .ok () → r.operation.Passes r.log
  recorded : ∀ g ∈ w.recorded, w.Approved g
  grants : ∀ policy engine, w.engines[policy]? = some engine → ∀ grant ∈ engine.grants,
    ∃ g ∈ w.recorded, g.policy = policy ∧ g.grant = grant

namespace AuthorityKept

variable {w w' : AuthorizeWorld} {φ : Nat → List AuthorizeEntry} {i : Nat}

/-- Something happens in a call. -/
theorem note (h : AuthorityKept w φ) (entry : AuthorizeEntry) :
    AuthorityKept (w.note i entry) (Function.update φ i (φ i ++ [entry])) where
  log j := by
    by_cases hj : j = i
    · subst hj
      simp [AuthorizeWorld.note, h.log]
    · simp [AuthorizeWorld.note, Function.update_of_ne hj, h.log]
  returned := h.returned
  recorded g hg := by
    obtain ⟨hanswered, happroved⟩ := h.recorded g hg
    refine ⟨?_, happroved⟩
    by_cases hcall : g.call = i
    · subst hcall
      simp [AuthorizeWorld.note, hanswered]
    · simpa [AuthorizeWorld.note, Function.update_of_ne hcall] using hanswered
  grants := h.grants

/-- A step that no call notices. -/
theorem unnoted (h : AuthorityKept w φ) : AuthorityKept w (Function.update φ i (φ i)) := by
  rwa [Function.update_eq_self]

theorem addPolicy (h : AuthorityKept w φ) {engine : PolicyEngine} (hgrants : engine.grants = [])
    (sessionId : String) : AuthorityKept (w.addPolicy sessionId engine) φ where
  log := h.log
  returned := h.returned
  recorded := h.recorded
  grants policy engine' hengine grant hgrant := by
    have hengine : (w.engines ++ [engine])[policy]? = some engine' := hengine
    by_cases hlt : policy < w.engines.length
    · rw [List.getElem?_append_left hlt] at hengine
      exact h.grants policy engine' hengine grant hgrant
    · rw [List.getElem?_append_right (by omega), List.getElem?_singleton] at hengine
      split at hengine
      · cases hengine
        rw [hgrants] at hgrant
        cases hgrant
      · cases hengine

theorem grant (h : AuthorityKept w φ) {policy : Nat} {engine : PolicyEngine} {g : RecordedGrant}
    (hengine : w.engines[policy]? = some engine) (hpolicy : g.policy = policy)
    (happroved : w.Approved g) :
    AuthorityKept { w with
      engines := w.engines.set policy { engine with grants := engine.grants ++ [g.grant] }
      recorded := g :: w.recorded } φ where
  log := h.log
  returned := h.returned
  recorded g' hg' := by
    rcases List.mem_cons.mp hg' with rfl | hg'
    · exact happroved
    · exact h.recorded g' hg'
  grants policy' engine' hengine' grant hgrant := by
    have hengine' : (w.engines.set policy _)[policy']? = some engine' := hengine'
    have hlt : policy < w.engines.length := (List.getElem?_eq_some_iff.mp hengine).1
    by_cases heq : policy' = policy
    · subst heq
      rw [List.getElem?_set_self hlt] at hengine'
      cases hengine'
      rcases List.mem_append.mp hgrant with hgrant | hgrant
      · obtain ⟨g', hg', hsame⟩ := h.grants policy' engine hengine grant hgrant
        exact ⟨g', List.mem_cons_of_mem _ hg', hsame⟩
      · exact ⟨g, List.mem_cons_self, hpolicy, (List.mem_singleton.mp hgrant).symm⟩
    · rw [List.getElem?_set_ne (Ne.symm heq)] at hengine'
      obtain ⟨g', hg', hsame⟩ := h.grants policy' engine' hengine' grant hgrant
      exact ⟨g', List.mem_cons_of_mem _ hg', hsame⟩

/-- **An effect that keeps to the protocol keeps what is known of the calls.** -/
theorem executed (h : AuthorityKept w φ) {e : AuthorizeEffect} {r : e.Answer}
    (hrequires : authorizing.requires e (φ i)) (hexec : AuthorizeExecuted w i e w' r) :
    authorizing.admits e (φ i) r ∧
      AuthorityKept w' (Function.update φ i (authorizing.next e (φ i) r)) := by
  cases hexec with
  | policyMade context engine hgrants => exact ⟨trivial, (h.addPolicy hgrants _).unnoted⟩
  | reported name context arguments reported => exact ⟨trivial, h.note _⟩
  | evaluated policy desktopMcp profile effect host engine =>
    exact ⟨⟨host, engine, rfl⟩, h.note _⟩
  | newRequest decision host id => exact ⟨⟨host, id, rfl⟩, h.unnoted⟩
  | answered prompt choice => exact ⟨trivial, h.note _⟩
  | failed prompt answer hanswer =>
    cases answer with
    | responded choice => exact absurd rfl (hanswer choice)
    | failed error => exact ⟨trivial, h.note _⟩
    | cancelled => exact ⟨trivial, h.note _⟩
  | rejected policy prompt choice error => exact ⟨trivial, h.note _⟩
  | granted policy prompt choice host engine grant hengine hgrant =>
    obtain ⟨hoffered, hchoice⟩ := hrequires
    have hoffers := hoffered.offers hgrant
    have hallowed : choice.isAllowed := by
      rcases hoffers.2 with ⟨rfl, -⟩ | ⟨rfl, -⟩ <;> rfl
    have hanswered : .answered prompt choice ∈ w.log i := by
      rw [h.log]
      refine hchoice.resolve_left ?_
      rintro rfl
      cases hallowed
    have hkept :=
      h.grant (g := ⟨i, policy, prompt, choice, grant⟩) hengine rfl ⟨hanswered, hallowed, hoffers⟩
    exact ⟨trivial, hkept.unnoted⟩
  | report operation result =>
    have hreturned : ∀ r ∈ ⟨operation, result, w.log i⟩ :: w.returned, r.result = .ok () →
        r.operation.Passes r.log := by
      rintro r (_ | ⟨_, hr⟩) hok
      · rcases result with error | ⟨⟩
        · cases hok
        · have hpasses : operation.Passes (φ i) := hrequires
          rwa [← h.log i] at hpasses
      · exact h.returned r hr hok
    have hkept : AuthorityKept
        { w with returned := ⟨operation, result, w.log i⟩ :: w.returned } φ :=
      ⟨h.log, hreturned, h.recorded, h.grants⟩
    exact ⟨trivial, hkept.unnoted⟩
  | _ => exact ⟨trivial, h.unnoted⟩

end AuthorityKept

/-- **What is known of the calls** is kept by every run. -/
theorem authorityKept_sound :
    TaskSystem.Sound authorizeSystem authorizing AuthorityKept [] (fun _ => True)
      fun _ _ => True where
  exec := by
    intro pool φ i e k choice w' r h _ _ hrequires hexec
    exact h.executed hrequires (authorizeExec_executed hexec)
  event := by
    rintro pool φ sessionId w' h - hevent
    cases hevent
    exact ⟨h.log, h.returned, h.recorded, h.grants⟩
  start := by
    rintro pool φ operation w' p h - - hstart
    cases hstart
    exact ⟨Authorizing.keeps_call, h⟩

/-! ## What a call may do -/

namespace AuthorizeReturn

variable (r : AuthorizeReturn)

/-- What holds of a call that has returned `Ok`: the policy has decided on each of its effects and
denies none of them, and the user has allowed whatever was asked. -/
structure Lawful : Prop where
  complete : ∃ own reported,
    AgentEngine.toolEffects r.operation.tools r.operation.context r.operation.toolName = .ok own ∧
      .reported reported ∈ r.log ∧ (decidedIn r.log).map Prod.fst = own ++ reported
  decides : ∀ d ∈ decidedIn r.log, r.operation.Decides d.1 d.2
  undenied : ∀ d ∈ decidedIn r.log, d.2.kind ≠ .deny
  allowed : ∀ prompt choice, .answered prompt choice ∈ r.log → choice.isAllowed
  unfailed : ∀ prompt, .failed prompt ∉ r.log
  unrejected : ∀ prompt choice, .rejected prompt choice ∉ r.log

/-- The effects of the call other than the use of a tool. -/
def concrete : List Effect := AgentEngine.concreteEffects ((decidedIn r.log).map Prod.snd)

/-- A prompt for a tool that lists an effect of the call. -/
def Lists (prompt : ApprovalPrompt) (effect : Effect) : Prop :=
  (∃ name access, prompt.effect = .toolUse name access) ∧ effect ∈ r.concrete ∧
    prompt.explanation = AgentEngine.question r.operation.toolName ++ "\n" ++
      "\n".intercalate (r.concrete.map describeEffect)

/-- The user has approved an effect in a prompt for it, or in one for a tool that lists it. -/
def Approves (effect : Effect) : Prop :=
  ∃ prompt choice, .answered prompt choice ∈ r.log ∧ choice.isAllowed ∧
    (prompt.effect = effect ∨ r.Lists prompt effect)

/-- The call has the authority for all that it does. -/
structure HasAuthority : Prop extends r.Lawful where
  asked : ∀ d ∈ decidedIn r.log, d.2.kind = .ask → r.Approves d.2.normalizedEffect

/-- What the policy asks about reaches a prompt: outside the confirm profile by itself, and in it
through the use of a tool, if the policy asks about that. -/
def Gated : Prop :=
  AgentEngine.desktopMcp r.operation.context r.operation.toolName ∨
    r.operation.context.permissionProfile ≠ .confirm ∨
    (∃ d ∈ decidedIn r.log, d.2.kind = .ask ∧ AgentEngine.isToolUse d.2) ∨
    ∀ d ∈ decidedIn r.log, d.2.kind ≠ .ask

end AuthorizeReturn

section Passes

variable {reported : List Effect} {decisions : List (Effect × PolicyDecision)}
  {answers : List (ApprovalPrompt × ApprovalChoice)}

theorem decidedIn_passes :
    decidedIn (.reported reported :: decisions.map (fun d => .decided d.1 d.2) ++
      answers.map fun a => .answered a.1 a.2) = decisions := by
  have hdecided : (decisions.map fun d => AuthorizeEntry.decided d.1 d.2).filterMap
      (fun | .decided effect decision => some (effect, decision) | _ => none) = decisions := by
    induction decisions with
    | nil => rfl
    | cons d rest ih => simp [ih]
  have hanswered : (answers.map fun a => AuthorizeEntry.answered a.1 a.2).filterMap
      (fun | .decided effect decision => some (effect, decision) | _ => none) =
        ([] : List (Effect × PolicyDecision)) := by
    induction answers with
    | nil => rfl
    | cons a rest ih => simp [ih]
  simp [decidedIn, hdecided, hanswered]

theorem answered_mem_passes {prompt : ApprovalPrompt} {choice : ApprovalChoice} :
    AuthorizeEntry.answered prompt choice ∈
      (.reported reported :: decisions.map (fun d => .decided d.1 d.2) ++
        answers.map fun a => .answered a.1 a.2) ↔ (prompt, choice) ∈ answers := by
  simp

end Passes

namespace AuthorizeOperation

variable {o : AuthorizeOperation} {log : List AuthorizeEntry}

/-- What a prompt asks about is the effect of its decision. -/
theorem Prompts.effect {concrete : List Effect} {decision : PolicyDecision}
    {prompt : ApprovalPrompt} (h : o.Prompts concrete decision prompt) :
    prompt.effect = decision.normalizedEffect := by
  obtain ⟨host, id, rfl⟩ := h
  unfold AgentEngine.explain
  dsimp only
  split_ifs <;> rfl

/-- The prompt for a tool lists the other effects of the call. -/
theorem Prompts.explanation {concrete : List Effect} {decision : PolicyDecision}
    {prompt : ApprovalPrompt} (h : o.Prompts concrete decision prompt)
    (htool : AgentEngine.isToolUse decision = true) {effect : Effect} (heffect : effect ∈ concrete) :
    prompt.explanation = AgentEngine.question o.toolName ++ "\n" ++
      "\n".intercalate (concrete.map describeEffect) := by
  obtain ⟨host, id, rfl⟩ := h
  have hne : "\n".intercalate (concrete.map describeEffect) ≠ "" :=
    intercalate_ne_empty (List.mem_map_of_mem heffect) (describeEffect_ne_empty effect)
  simp [AgentEngine.explain, htool, hne]

/-- **A call that returns `Ok` is lawful.** -/
theorem Passes.lawful (h : o.Passes log) : (⟨o, .ok (), log⟩ : AuthorizeReturn).Lawful := by
  obtain ⟨own, reported, decisions, answers, hown, heffects, hdecides, hundenied, hanswers⟩ := h
  refine ⟨⟨own, reported, hown, by simp, ?_⟩, ?_, ?_, ?_, by simp, by simp⟩
  · rw [decidedIn_passes, heffects]
  · rwa [decidedIn_passes]
  · rwa [decidedIn_passes]
  · intro prompt choice hmem
    rw [answered_mem_passes] at hmem
    obtain ⟨decision, -, hallows⟩ := exists_of_mem_right hanswers hmem
    exact hallows.1

/-- **What the policy asks about is approved** exactly where it reaches a prompt. -/
theorem Passes.hasAuthority_iff (h : o.Passes log) :
    (⟨o, .ok (), log⟩ : AuthorizeReturn).HasAuthority ↔
      (⟨o, .ok (), log⟩ : AuthorizeReturn).Gated := by
  have hlawful := h.lawful
  obtain ⟨own, reported, decisions, answers, hown, heffects, hdecides, hundenied, hanswers⟩ := h
  constructor
  · rintro ⟨-, hasked⟩
    simp only [decidedIn_passes] at hasked
    simp only [AuthorizeReturn.Gated, decidedIn_passes]
    by_contra hgated
    simp only [not_or, not_exists, not_and, Bool.not_eq_true, not_not, not_forall] at hgated
    obtain ⟨hmcp, hprofile, htool, d, hd, hkind⟩ := hgated
    -- The one who is asked is the user of a tool, and nobody asks about that.
    have hnone : AgentEngine.asked o.context o.toolName (decisions.map Prod.snd) = [] := by
      refine List.filter_eq_nil_iff.mpr ?_
      intro decision hdecision
      obtain ⟨d', hd', rfl⟩ := List.mem_map.mp hdecision
      have := htool d' hd'
      simp_all
    rw [hnone, List.forall₂_nil_left_iff] at hanswers
    subst hanswers
    obtain ⟨prompt, choice, hmem, -⟩ := hasked d hd hkind
    rw [answered_mem_passes] at hmem
    cases hmem
  · intro hgated
    refine ⟨hlawful, ?_⟩
    simp only [AuthorizeReturn.Gated, decidedIn_passes] at hgated ⊢
    intro d hd hkind
    by_cases hasked : d.2 ∈ AgentEngine.asked o.context o.toolName (decisions.map Prod.snd)
    · obtain ⟨⟨prompt, choice⟩, hanswer, hallowed, hprompts⟩ := exists_of_mem_left hanswers hasked
      exact ⟨prompt, choice, answered_mem_passes.mpr hanswer, hallowed, .inl hprompts.effect⟩
    · have hmem : d.2 ∈ decisions.map Prod.snd := List.mem_map_of_mem hd
      have hskipped : AgentEngine.desktopMcp o.context o.toolName = false ∧
          o.context.permissionProfile = .confirm ∧ AgentEngine.isToolUse d.2 = false := by
        simpa [AgentEngine.asked, hmem, hkind, not_or, and_assoc] using hasked
      obtain ⟨hmcp, hprofile, hconcrete⟩ := hskipped
      have htool : ∃ d' ∈ decisions, d'.2.kind = .ask ∧ AgentEngine.isToolUse d'.2 := by
        rcases hgated with hmcp' | hprofile' | htool | hnone
        · cases hmcp.symm.trans hmcp'
        · exact absurd hprofile hprofile'
        · exact htool
        · exact absurd hkind (hnone d hd)
      obtain ⟨d', hd', hkind', htool⟩ := htool
      have hasked' : d'.2 ∈ AgentEngine.asked o.context o.toolName (decisions.map Prod.snd) := by
        simp only [AgentEngine.asked, List.mem_filter, Bool.and_eq_true, decide_eq_true_eq,
          Bool.or_eq_true]
        exact ⟨List.mem_map_of_mem hd', hkind', .inr htool⟩
      obtain ⟨⟨prompt, choice⟩, hanswer, hallowed, hprompts⟩ := exists_of_mem_left hanswers hasked'
      have heffect : d.2.normalizedEffect ∈
          AgentEngine.concreteEffects (decisions.map Prod.snd) := by
        refine List.mem_map.mpr ⟨d.2, List.mem_filter.mpr ⟨hmem, ?_⟩, rfl⟩
        simp [hconcrete]
      refine ⟨prompt, choice, answered_mem_passes.mpr hanswer, hallowed, .inr ⟨?_, ?_, ?_⟩⟩
      · rw [hprompts.effect]
        unfold AgentEngine.isToolUse at htool
        split at htool
        · next name access heq => exact ⟨name, access, heq⟩
        · cases htool
      · rwa [AuthorizeReturn.concrete, decidedIn_passes]
      · rw [AuthorizeReturn.concrete, decidedIn_passes]
        exact hprompts.explanation htool heffect

end AuthorizeOperation

/-! ## The runs -/

/-- The state a run reaches. -/
def authorizeRun (policyRules : List PolicyRule)
    (steps : List (PoolStep AuthorizeChoice String AuthorizeOperation)) : AuthorizeWorld :=
  (authorizeSystem.machine.run { shared := { policyRules } } steps).1.shared

/-- **Nothing runs without authority**, in any run, where what the policy asks about reaches a
prompt. -/
theorem nothing_runs_without_authority (policyRules : List PolicyRule)
    (steps : List (PoolStep AuthorizeChoice String AuthorizeOperation)) :
    (∀ r ∈ (authorizeRun policyRules steps).returned, r.result = .ok () →
      r.Lawful ∧ (r.HasAuthority ↔ r.Gated)) ∧
      GrantsApproved (authorizeRun policyRules steps) := by
  have hstart : AuthorityKept { policyRules } fun _ => [] :=
    ⟨fun _ => rfl, by simp, by simp, by simp⟩
  have hmeets : authorizeSystem.machine.Meets (fun _ _ => True) { shared := { policyRules } } steps :=
    authorizeSystem.machine.meets_of_forall (fun _ _ _ => trivial) _
  obtain ⟨φ, hrelated⟩ := authorityKept_sound.run hstart hmeets
  have hkept := hrelated.inv
  refine ⟨?_, ?_⟩
  · rintro ⟨operation, result, log⟩ hr hok
    have hok : result = .ok () := hok
    subst hok
    have hpasses := hkept.returned _ hr rfl
    exact ⟨hpasses.lawful, hpasses.hasAuthority_iff⟩
  · intro policy engine hengine grant hgrant
    obtain ⟨g, hg, hpolicy, heq⟩ := hkept.grants policy engine hengine grant hgrant
    exact ⟨g, hg, hpolicy, heq, hkept.recorded g hg⟩

/-! ## A call without a prompt -/

/-- A machine whose parser knows one page. -/
def pageHost : PolicyHost where
  fs := fun _ => none
  parseUrl url := .ok ⟨"https", "", none, some "example.com", none, url⟩

/-- A tool that asks the user, registered with the effect of opening a page. -/
def pageOperation : AuthorizeOperation where
  tools name := if name = "show_page" then some .interaction else none
  context :=
    { sessionId := "s", cwd := [], permissionProfile := .confirm, webEnabled := true,
      imageToolsAvailable := true, mcp := false, approval := true }
  toolName := "show_page"
  arguments := .obj []

/-- The configured rule asks about every connection. -/
def askNetwork : PolicyRule := { action := .ask, effect := some .network }

def pageSteps : List (PoolStep AuthorizeChoice String AuthorizeOperation) :=
  [.start pageOperation, .run 0 (.model "m"), .run 0 (.project pageHost (.ok [])),
    .run 0 (.effects (.ok [.network "https://example.com/"])), .run 0 (.host pageHost),
    .run 0 (.host pageHost), .run 0 .go]

/-- **An effect that is asked about and shown in no prompt**: the tool is allowed by default. -/
theorem asked_without_prompt :
    ¬ ∀ policyRules steps, ∀ r ∈ (authorizeRun policyRules steps).returned, r.result = .ok () →
      r.HasAuthority := by
  have hrun : (authorizeRun [askNetwork] pageSteps).returned.any (fun r =>
      r.result.isOk && (decidedIn r.log).any (fun d => d.2.kind = .ask) &&
        r.log.all fun entry => !(entry matches .answered ..)) = true := by
    decide +kernel
  intro h
  obtain ⟨r, hr, hfound⟩ := List.any_eq_true.mp hrun
  simp only [Bool.and_eq_true] at hfound
  obtain ⟨⟨hok, hasked⟩, hsilent⟩ := hfound
  have hok : r.result = .ok () := by
    cases hresult : r.result with
    | error _ =>
      rw [hresult] at hok
      cases hok
    | ok => rfl
  obtain ⟨d, hd, hkind⟩ := List.any_eq_true.mp hasked
  obtain ⟨prompt, choice, hanswered, -⟩ := (h _ _ r hr hok).asked d hd (by simpa using hkind)
  have := List.all_eq_true.mp hsilent _ hanswered
  cases this

end AxiomDesktop
