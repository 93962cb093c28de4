import AxiomDesktop.Lib.Fallible
import AxiomDesktop.Lib.Machine
import AxiomDesktop.Policy.Engine
import Mathlib.Order.MinMax

/-!
# Rules only narrow authority

What a decision of the engine comes to: the more restrictive of what the matching rules demand
(`floor`) and what the profile and the grants give (`base`), `kind_evaluate`. From it follow the
results about rule lists and grant histories, `policy_rules_narrow`: a further rule, or another
order of the rules, never widens what is allowed, and no approval overrides a denial, a rule or a
restricted profile.
-/

namespace AxiomDesktop

/-! ## What the rules demand -/

/-- The decision a rule demands. -/
def RuleAction.kind : RuleAction → DecisionKind
  | .ask => .ask
  | .deny => .deny

/-- The most restrictive of a list of decisions. -/
def DecisionKind.sup (kinds : List DecisionKind) : DecisionKind := kinds.foldr max .allow

theorem DecisionKind.allow_le (k : DecisionKind) : .allow ≤ k := Nat.zero_le _

theorem DecisionKind.le_deny (k : DecisionKind) : k ≤ .deny := by
  cases k <;> decide

theorem DecisionKind.sup_le_iff {kinds : List DecisionKind} {k : DecisionKind} :
    DecisionKind.sup kinds ≤ k ↔ ∀ a ∈ kinds, a ≤ k := by
  induction kinds with
  | nil => simp [DecisionKind.sup, DecisionKind.allow_le]
  | cons a kinds ih =>
    have hcons : DecisionKind.sup (a :: kinds) = max a (DecisionKind.sup kinds) := rfl
    rw [hcons, max_le_iff, ih, List.forall_mem_cons]

theorem DecisionKind.le_sup {kinds : List DecisionKind} {k : DecisionKind} (h : k ∈ kinds) :
    k ≤ DecisionKind.sup kinds :=
  DecisionKind.sup_le_iff.mp (le_refl _) k h

namespace PolicyEngine

variable (host : PolicyHost) (engine : PolicyEngine)

/-- What the rules that match an effect demand together. -/
def floor (effect : Effect) : DecisionKind :=
  DecisionKind.sup ((engine.rules.filter (·.matchesEffect effect)).map (·.action.kind))

/-- What the profile and the grants give an effect. -/
def base (profile : PermissionProfile) (desktopMcp : Bool) (effect : Effect) : DecisionKind :=
  if restricted profile ∧ (profileDefault profile effect).1 = .deny then .deny
  else if engine.grants.any (·.matchesEffect host effect) then .allow
  else if desktopMcp then .ask
  else (profileDefault profile effect).1

/-- The kind of the decision on an effect that is normalized. -/
def verdict (profile : PermissionProfile) (desktopMcp : Bool) (effect : Effect) : DecisionKind :=
  if (engine.hardDenial effect).isSome then .deny
  else max (engine.floor effect) (engine.base host profile desktopMcp effect)

variable {host engine} {engine' : PolicyEngine} {effect : Effect} {profile : PermissionProfile}
  {desktopMcp : Bool}

theorem le_floor {rule : PolicyRule} (h : rule ∈ engine.rules) (hm : rule.matchesEffect effect) :
    rule.action.kind ≤ engine.floor effect := by
  refine DecisionKind.le_sup (List.mem_map.mpr ⟨rule, ?_, rfl⟩)
  exact List.mem_filter.mpr ⟨h, hm⟩

theorem floor_le_iff {k : DecisionKind} : engine.floor effect ≤ k ↔
    ∀ rule ∈ engine.rules, rule.matchesEffect effect → rule.action.kind ≤ k := by
  simp only [floor, DecisionKind.sup_le_iff, List.mem_map, List.mem_filter]
  constructor
  · intro h rule hr hm
    exact h _ ⟨rule, ⟨hr, hm⟩, rfl⟩
  · rintro h _ ⟨rule, ⟨hr, hm⟩, rfl⟩
    exact h rule hr hm

/-- A profile that is not restricted denies nothing. -/
theorem profileDefault_ne_deny (h : restricted profile = false) :
    (profileDefault profile effect).1 ≠ .deny := by
  cases profile with
  | none | web | observe => cases h
  | confirm | fullAccess =>
    unfold profileDefault
    split <;> simp_all

theorem findRule_eq_some {action : RuleAction} {rule : PolicyRule}
    (h : engine.findRule action effect = some rule) :
    rule ∈ engine.rules ∧ rule.matchesEffect effect ∧ rule.action = action := by
  have hp := List.find?_some h
  simp only [Bool.and_eq_true, decide_eq_true_eq] at hp
  exact ⟨List.mem_of_find?_eq_some h, hp.1, hp.2⟩

theorem findRule_eq_none {action : RuleAction} (h : engine.findRule action effect = none) :
    ∀ rule ∈ engine.rules, rule.matchesEffect effect → rule.action ≠ action := by
  intro rule hr hm ha
  have := List.find?_eq_none.mp h rule hr
  simp [hm, ha] at this

/-- No rule of an action matches: every matching rule demands the other one. -/
theorem floor_le_ask (h : engine.findRule .deny effect = none) : engine.floor effect ≤ .ask := by
  rw [floor_le_iff]
  intro rule hr hm
  cases ha : rule.action with
  | ask => exact le_refl _
  | deny => exact absurd ha (findRule_eq_none h rule hr hm)

theorem floor_eq_allow (hdeny : engine.findRule .deny effect = none)
    (hask : engine.findRule .ask effect = none) : engine.floor effect = .allow := by
  refine le_antisymm (floor_le_iff.mpr ?_) (DecisionKind.allow_le _)
  intro rule hr hm
  cases ha : rule.action with
  | ask => exact absurd ha (findRule_eq_none hask rule hr hm)
  | deny => exact absurd ha (findRule_eq_none hdeny rule hr hm)

/-- Without a denial of the profile, nothing is denied below the rules. -/
theorem base_le_ask (h : ¬ (restricted profile ∧ (profileDefault profile effect).1 = .deny)) :
    engine.base host profile desktopMcp effect ≤ .ask := by
  have hprofile : (profileDefault profile effect).1 ≠ .deny := by
    cases hr : restricted profile with
    | true => exact fun hd => h ⟨hr, hd⟩
    | false => exact profileDefault_ne_deny hr
  rw [base, if_neg h]
  split_ifs
  · exact DecisionKind.allow_le _
  · exact le_refl _
  · cases hk : (profileDefault profile effect).1 with
    | allow => exact DecisionKind.allow_le _
    | ask => exact le_refl _
    | deny => exact absurd hk hprofile

/-- **The kind of a decision** is the verdict on the normalized effect. -/
theorem kind_evaluate : (engine.evaluateWithDefaults host profile effect desktopMcp).kind =
    match engine.normalize host effect with
    | .error _ => .deny
    | .ok normalized => engine.verdict host profile desktopMcp normalized := by
  unfold evaluateWithDefaults verdict
  cases engine.normalize host effect with
  | error e => rfl
  | ok normalized =>
    dsimp only
    cases hhard : engine.hardDenial normalized with
    | some reason => rfl
    | none =>
      rw [Option.isSome_none, if_neg Bool.false_ne_true]
      cases hdeny : engine.findRule .deny normalized with
      | some rule =>
        obtain ⟨hr, hm, ha⟩ := findRule_eq_some hdeny
        have hfloor := le_floor hr hm
        rw [ha] at hfloor
        exact (le_antisymm (DecisionKind.le_deny _) (hfloor.trans (le_max_left _ _))).symm
      | none =>
        by_cases hprofile : restricted profile ∧ (profileDefault profile normalized).1 = .deny
        · have hbase : engine.base host profile desktopMcp normalized = .deny := by
            rw [base, if_pos hprofile]
          rw [hbase, max_eq_right (DecisionKind.le_deny _)]
          simp only [hprofile, and_self, if_true]
        · simp only [hprofile, if_false]
          cases hask : engine.findRule .ask normalized with
          | some rule =>
            obtain ⟨hr, hm, ha⟩ := findRule_eq_some hask
            have hfloor := le_floor hr hm
            rw [ha] at hfloor
            refine le_antisymm (hfloor.trans (le_max_left _ _)) ?_
            exact max_le (floor_le_ask hdeny) (base_le_ask hprofile)
          | none =>
            rw [floor_eq_allow hdeny hask, max_eq_right (DecisionKind.allow_le _), base,
              if_neg hprofile]
            split_ifs <;> rfl

/-! ## Engines that differ in their rules and grants -/

/-- The second engine has every rule of the first and no grant the first lacks. -/
structure Narrower (engine engine' : PolicyEngine) : Prop where
  root : engine'.root = engine.root
  rules : engine.rules ⊆ engine'.rules
  grants : engine'.grants ⊆ engine.grants

theorem normalize_congr (h : engine'.root = engine.root) :
    engine'.normalize host = engine.normalize host := by
  funext effect
  simp only [normalize, normalizePath, h]

theorem hardDenial_congr (h : engine'.root = engine.root) :
    engine'.hardDenial = engine.hardDenial := by
  have hcontains : engine'.contains = engine.contains := by
    funext path
    rw [contains, contains, h]
  funext effect
  cases effect <;> simp only [hardDenial, hcontains, h]

theorem floor_mono (h : engine.rules ⊆ engine'.rules) :
    engine.floor effect ≤ engine'.floor effect :=
  floor_le_iff.mpr fun _ hr hm => le_floor (h hr) hm

theorem base_mono (h : engine'.grants ⊆ engine.grants) :
    engine.base host profile desktopMcp effect ≤ engine'.base host profile desktopMcp effect := by
  have hgrants : engine'.grants.any (·.matchesEffect host effect) →
      engine.grants.any (·.matchesEffect host effect) := by
    simp only [List.any_eq_true]
    rintro ⟨grant, hg, hm⟩
    exact ⟨grant, h hg, hm⟩
  unfold base
  split
  · exact le_refl _
  · by_cases hg : engine.grants.any (·.matchesEffect host effect)
    · rw [if_pos hg]
      exact DecisionKind.allow_le _
    · rw [if_neg hg, if_neg (hg ∘ hgrants)]

/-- **A narrower engine decides no less restrictively.** -/
theorem Narrower.kind_le (h : Narrower engine engine') :
    (engine.evaluateWithDefaults host profile effect desktopMcp).kind ≤
      (engine'.evaluateWithDefaults host profile effect desktopMcp).kind := by
  rw [kind_evaluate, kind_evaluate, normalize_congr h.root]
  cases engine.normalize host effect with
  | error e => exact le_refl _
  | ok normalized =>
    simp only [verdict, hardDenial_congr h.root]
    split
    · exact le_refl _
    · exact max_le_max (floor_mono h.rules) (base_mono h.grants)

/-- An effect can be granted only where no rule matches it, so a narrower engine grants no more. -/
theorem ensureGrantable_of_narrower (h : Narrower engine engine')
    (hok : engine'.ensureGrantable host effect = .ok ()) :
    engine.ensureGrantable host effect = .ok () := by
  unfold ensureGrantable at hok ⊢
  rw [normalize_congr h.root, hardDenial_congr h.root] at hok
  cases hnormal : engine.normalize host effect with
  | error e =>
    rw [hnormal] at hok
    cases hok
  | ok normalized =>
    rw [hnormal] at hok
    dsimp only at hok ⊢
    cases hhard : engine.hardDenial normalized with
    | some reason =>
      rw [hhard] at hok
      cases hok
    | none =>
      rw [hhard] at hok
      dsimp only at hok ⊢
      split at hok
      · cases hok
      · next hnone =>
        rw [if_neg]
        intro hany
        refine hnone ?_
        rw [List.any_eq_true] at hany ⊢
        obtain ⟨rule, hr, hm⟩ := hany
        exact ⟨rule, h.rules hr, hm⟩

/-- The grant of an approval that a narrower engine takes, the wider one takes too. -/
theorem approvedGrant_of_narrower (h : Narrower engine engine') {request : ApprovalRequest}
    {choice : ApprovalChoice} {grant : ScopedGrant}
    (hg : engine'.approvedGrant host request choice = .ok (some grant)) :
    engine.approvedGrant host request choice = .ok (some grant) := by
  have hensure : ∀ {g : ScopedGrant}, engine'.approvedGrant host request choice = .ok (some g) →
      engine'.ensureGrantable host request.effect = .ok () := by
    intro g hg
    unfold approvedGrant at hg
    cases choice with
    | deny | allowOnce => cases hg
    | allowExactSession | allowPrefixSession =>
      simp only at hg
      split at hg
      · cases hg
      · cases he : engine'.ensureGrantable host request.effect with
        | ok => rfl
        | error e =>
          rw [he] at hg
          cases hg
  have h' := hensure hg
  unfold approvedGrant at hg ⊢
  rw [ensureGrantable_of_narrower h h']
  rw [h'] at hg
  exact hg

theorem applyApproval_rules (request : ApprovalRequest) (choice : ApprovalChoice) :
    (engine.applyApproval host request choice).root = engine.root ∧
      (engine.applyApproval host request choice).rules = engine.rules := by
  unfold applyApproval
  split <;> exact ⟨rfl, rfl⟩

theorem mem_applyApproval_grants {request : ApprovalRequest} {choice : ApprovalChoice}
    {grant : ScopedGrant} : grant ∈ (engine.applyApproval host request choice).grants ↔
      grant ∈ engine.grants ∨ engine.approvedGrant host request choice = .ok (some grant) := by
  unfold applyApproval
  split
  · next g hg => simp [hg, eq_comm]
  · next hg =>
    refine (or_iff_left ?_).symm
    exact fun h => hg grant h

theorem Narrower.applyApproval (h : Narrower engine engine') (request : ApprovalRequest)
    (choice : ApprovalChoice) : Narrower (engine.applyApproval host request choice)
      (engine'.applyApproval host request choice) := by
  obtain ⟨hroot, hrules⟩ := @applyApproval_rules host engine request choice
  obtain ⟨hroot', hrules'⟩ := @applyApproval_rules host engine' request choice
  refine ⟨by rw [hroot, hroot', h.root], by rw [hrules, hrules']; exact h.rules, ?_⟩
  intro grant hg
  rw [mem_applyApproval_grants] at hg ⊢
  exact hg.imp (@h.grants grant) (approvedGrant_of_narrower h)

/-! ## Grant histories -/

/-- The calls on an engine, each with the file system and the parser it meets. -/
inductive PolicyCall where
  | evaluate (host : PolicyHost) (profile : PermissionProfile) (effect : Effect)
  | evaluateDesktopMcp (host : PolicyHost) (effect : Effect)
  | applyApproval (host : PolicyHost) (request : ApprovalRequest) (choice : ApprovalChoice)

/-- The engine as a machine; it puts out its decisions. -/
def machine : Machine PolicyEngine PolicyCall PolicyDecision where
  step engine
    | .evaluate host profile effect => (engine, [engine.evaluate host profile effect])
    | .evaluateDesktopMcp host effect => (engine, [engine.evaluateDesktopMcp host effect])
    | .applyApproval host request choice => (engine.applyApproval host request choice, [])

/-- The engine after some calls. -/
def after (engine : PolicyEngine) (calls : List PolicyCall) : PolicyEngine :=
  (machine.run engine calls).1

theorem Narrower.after (h : Narrower engine engine') (calls : List PolicyCall) :
    Narrower (engine.after calls) (engine'.after calls) := by
  induction calls generalizing engine engine' with
  | nil => exact h
  | cons call calls ih =>
    cases call with
    | evaluate | evaluateDesktopMcp => exact ih h
    | applyApproval host request choice => exact ih (h.applyApproval request choice)

/-- Every decision of the second engine is at least as restrictive. -/
def DecidesNarrower (engine engine' : PolicyEngine) : Prop :=
  ∀ (host : PolicyHost) (effect : Effect),
    (∀ profile, (engine.evaluate host profile effect).kind ≤
      (engine'.evaluate host profile effect).kind) ∧
    (engine.evaluateDesktopMcp host effect).kind ≤ (engine'.evaluateDesktopMcp host effect).kind

theorem Narrower.decidesNarrower (h : Narrower engine engine') :
    DecidesNarrower engine engine' := by
  intro host effect
  refine ⟨fun profile => h.kind_le, ?_⟩
  unfold evaluateDesktopMcp
  split
  · exact h.kind_le
  · exact le_refl _

/-- Nothing stops an effect: it normalizes, no hard denial and no rule is about it, and the
profile, if it is a restricted one, does not deny it. -/
def Permits (host : PolicyHost) (engine : PolicyEngine) (profile : PermissionProfile)
    (effect : Effect) : Prop :=
  ∃ normalized, engine.normalize host effect = .ok normalized ∧
    engine.hardDenial normalized = none ∧
    (∀ rule ∈ engine.rules, rule.matchesEffect normalized = false) ∧
    (restricted profile → (profileDefault profile normalized).1 ≠ .deny)

/-- What is allowed is stopped by nothing, whatever was granted. -/
theorem permits_of_allow
    (h : (engine.evaluateWithDefaults host profile effect desktopMcp).kind = .allow) :
    Permits host engine profile effect := by
  rw [kind_evaluate] at h
  cases hnormal : engine.normalize host effect with
  | error e =>
    rw [hnormal] at h
    cases h
  | ok normalized =>
    rw [hnormal] at h
    dsimp only [verdict] at h
    split at h
    · cases h
    · next hhard =>
      have hle := h.le
      rw [max_le_iff] at hle
      refine ⟨normalized, hnormal, by simpa using hhard, ?_, ?_⟩
      · intro rule hr
        by_contra hm
        have := floor_le_iff.mp hle.1 rule hr (by simpa using hm)
        cases ha : rule.action <;> rw [ha] at this <;> exact absurd this (by decide)
      · intro hrestricted hdeny
        have := hle.2
        rw [base, if_pos ⟨hrestricted, hdeny⟩] at this
        exact absurd this (by decide)

/-! ## Engines of a workspace -/

/-- The rules of an engine are the normalized ones of the list it was made from. -/
theorem forWorkspaceWithRules_ok {root : Path} {rules : List PolicyRule}
    (h : forWorkspaceWithRules host root rules = .ok engine) :
    host.fs.canonicalize root = .ok engine.root ∧ engine.grants = [] ∧
      ∀ rule, rule ∈ engine.rules ↔
        ∃ given ∈ rules, normalizeRule host engine.root given = .ok rule := by
  unfold forWorkspaceWithRules at h
  obtain ⟨canonical, hroot, h⟩ := Fallible.result_bind_ok h
  obtain ⟨normalized, hrules, h⟩ := Fallible.result_bind_ok h
  cases h
  refine ⟨?_, rfl, fun rule => Fallible.mem_of_mapM_ok hrules⟩
  cases hc : host.fs.canonicalize root with
  | error e =>
    rw [hc] at hroot
    cases hroot
  | ok p =>
    rw [hc] at hroot
    cases hroot
    rfl

/-- More rules make a narrower engine. -/
theorem narrower_of_subset {root : Path} {rules rules' : List PolicyRule}
    (h : forWorkspaceWithRules host root rules = .ok engine)
    (h' : forWorkspaceWithRules host root rules' = .ok engine') (hsub : rules ⊆ rules') :
    Narrower engine engine' := by
  obtain ⟨hroot, hgrants, hrules⟩ := forWorkspaceWithRules_ok h
  obtain ⟨hroot', hgrants', hrules'⟩ := forWorkspaceWithRules_ok h'
  have hsame : engine'.root = engine.root := by
    rw [hroot, Except.ok.injEq] at hroot'
    exact hroot'.symm
  refine ⟨hsame, ?_, by simp [hgrants, hgrants']⟩
  intro rule hr
  obtain ⟨given, hg, hn⟩ := (hrules rule).mp hr
  exact (hrules' rule).mpr ⟨given, hsub hg, hsame ▸ hn⟩

/-- **Policy rules only narrow authority.** For the engine of a workspace and its rules, after any
calls: a further rule at any place makes no decision less restrictive, with the same grants or
after the same calls; the order of the rules changes no decision's kind; and what is allowed is
stopped by no normalization failure, hard denial, rule or restricted profile. -/
theorem policy_rules_narrow (host : PolicyHost) (root : Path) (rules : List PolicyRule)
    (engine : PolicyEngine) (h : forWorkspaceWithRules host root rules = .ok engine)
    (calls : List PolicyCall) :
    (∀ before rest rule engine', rules = before ++ rest →
      forWorkspaceWithRules host root (before ++ rule :: rest) = .ok engine' →
      DecidesNarrower (engine.after calls) (engine'.after calls) ∧
      ∀ grants, DecidesNarrower { engine with grants } { engine' with grants }) ∧
    (∀ rules' engine', rules'.Perm rules → forWorkspaceWithRules host root rules' = .ok engine' →
      ∀ now effect,
        (∀ profile, ((engine'.after calls).evaluate now profile effect).kind =
          ((engine.after calls).evaluate now profile effect).kind) ∧
        ((engine'.after calls).evaluateDesktopMcp now effect).kind =
          ((engine.after calls).evaluateDesktopMcp now effect).kind) ∧
    (∀ now profile effect, ((engine.after calls).evaluate now profile effect).kind = .allow →
      Permits now (engine.after calls) profile effect) ∧
    ∀ now effect, ((engine.after calls).evaluateDesktopMcp now effect).kind = .allow →
      Permits now (engine.after calls) .confirm effect := by
  refine ⟨?_, ?_, ?_, ?_⟩
  · rintro before rest rule engine' rfl h'
    have hnarrow : Narrower engine engine' := by
      refine narrower_of_subset h h' ?_
      intro r hr
      simp only [List.mem_append, List.mem_cons] at hr ⊢
      exact hr.imp_right Or.inr
    refine ⟨(hnarrow.after calls).decidesNarrower, ?_⟩
    intro grants
    exact Narrower.decidesNarrower ⟨hnarrow.root, hnarrow.rules, fun _ hg => hg⟩
  · intro rules' engine' hperm h' now effect
    have hle := ((narrower_of_subset h h' hperm.symm.subset).after calls).decidesNarrower now effect
    have hge := ((narrower_of_subset h' h hperm.subset).after calls).decidesNarrower now effect
    exact ⟨fun profile => le_antisymm (hge.1 profile) (hle.1 profile), le_antisymm hge.2 hle.2⟩
  · intro now profile effect hallow
    exact permits_of_allow hallow
  · intro now effect hallow
    unfold evaluateDesktopMcp at hallow
    split at hallow
    · exact permits_of_allow hallow
    · cases hallow

/-- A workspace at the root of an empty file system, with one rule. -/
theorem policy_rules_narrow_ask :
    let engine : PolicyEngine := { root := [], rules := [{ action := .ask, effect := some .network }] }
    ∀ now effect, (engine.evaluateDesktopMcp now effect).kind = .allow →
      Permits now engine .confirm effect :=
  (policy_rules_narrow ⟨fun _ => none, fun _ => .error "no host"⟩ []
    [{ action := .ask, effect := some .network }] _ rfl []).2.2.2

end PolicyEngine

end AxiomDesktop
