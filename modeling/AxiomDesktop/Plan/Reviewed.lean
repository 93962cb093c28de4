import AxiomDesktop.Lib.Fallible
import AxiomDesktop.Plan.Tools

/-!
# A plan is approved as reviewed

A plan that becomes approved has the revision and the text that were proposed to the user who
approved it, and a revision request stands at the revision that it was made on; what replaces a plan
is made from the revision that it replaces (`plans_are_approved_as_reviewed`).

Only `plan_revise` compares revisions, and it does so before it saves. The result is about the runs
in which no `plan_revise` saves between the load of another operation and its save, nor between a
proposal and the answers to its questions, while the plan is proposed again by then (`Undisturbed`).
`plan_approved_unseen` is a run in which the user approves a revision that was never shown.
-/

namespace AxiomDesktop

/-! ## What a change of a plan is made from -/

/-- The plan is made from the revision of another one. -/
def PlanArtifact.Follows (author : PlanAuthor) (plan old : PlanArtifact) : Prop :=
  if author = .revise then
    plan.id = old.id ∧ plan.revision = PlanArtifact.nextRevision old.revision
  else plan.SameRevision old

theorem PlanArtifact.Follows.id_eq {author : PlanAuthor} {plan old : PlanArtifact}
    (h : plan.Follows author old) : plan.id = old.id := by
  unfold PlanArtifact.Follows at h
  split at h <;> exact h.1

/-- The plan, as it is, was proposed to the user with its questions. -/
structure PlanReview.About (review : PlanReview) (plan : PlanArtifact) : Prop where
  proposed : .planProposed plan.id plan.revision plan.markdown ∈ review.events
  request : review.request = reviewRequest plan

/-- The user has decided so about the plan that was proposed. -/
def PlanReview.Answers (review : PlanReview) (decision : String) (plan : PlanArtifact) : Prop :=
  review.About plan ∧ oneAnswer review.answers "decision" = .ok decision

theorem PlanReview.About.of_same {review : PlanReview} {plan old : PlanArtifact}
    (h : review.About old) (hsame : plan.SameRevision old) : review.About plan := by
  obtain ⟨hid, hrevision, hmarkdown⟩ := hsame
  refine ⟨?_, ?_⟩
  · rw [hid, hrevision, hmarkdown]
    exact h.proposed
  · have hrequest := h.request
    unfold reviewRequest at hrequest ⊢
    rw [hrequest, hid, hrevision]

namespace PlanRecord

/-- A plan that reaches a state by a review is the one that the user decided so about. -/
def Reviewed (state : PlanState) (decision : String) : PlanRecord → Prop
  | loaded _ _ => True
  | replaced _ _ plan _ review =>
    plan.state = state → ∃ r, review = some r ∧ r.Answers decision plan

/-- A plan takes the place of the revision that it is made from. -/
def Newest : PlanRecord → Prop
  | loaded _ _ => True
  | replaced _ author plan before _ => ∀ old, before = some old → plan.Follows author old

/-- A plan is approved, or sent back, only as it was reviewed, and takes the place of no revision
but the one that it is made from. -/
structure AsReviewed (r : PlanRecord) : Prop where
  approved : r.Reviewed .approved "approve"
  requested : r.Reviewed .revisionRequested "request_revision"
  newest : r.Newest

end PlanRecord

/-- `plan_revise` has saved a plan since a task has loaded it. -/
def revisedSince (task : Nat) (id : String) : List PlanRecord → Bool
  | [] => false
  | .loaded i _ :: earlier => i ≠ task && revisedSince task id earlier
  | .replaced _ author plan _ _ :: earlier =>
    (author = .revise && plan.id = id) || revisedSince task id earlier

/-- The user has approved the plan, or sent it back. -/
def PlanReview.decides (review : PlanReview) : Bool :=
  match oneAnswer review.answers "decision" with
  | .ok decision => decision = "approve" || decision = "request_revision"
  | .error _ => false

/-- A task is to complete a review with a decision about a plan that is proposed. -/
def PlanWorld.decides (w : PlanWorld) (task : Nat) (id : String) : Bool :=
  match w.reviews task, w.plans id with
  | some review, some plan => review.decides && plan.state = .proposed
  | _, _ => false

/-- No `plan_revise` has come between a load and the save that follows it, nor between a proposal
and a decision about the plan that is proposed by then. -/
def Undisturbed (pool : PlanPool) : PlanStep → Bool
  | .run i .go =>
    match pool.tasks i with
    | some (.ask (.replace _ plan) _) => !revisedSince i plan.id pool.shared.log
    | some (.ask (.read id) _) =>
      !(pool.shared.decides i id && revisedSince i id pool.shared.log)
    | _ => true
  | _ => true

theorem PlanReview.decides_of_ok {review : PlanReview} {decision : String}
    (h : oneAnswer review.answers "decision" = .ok decision)
    (hdecision : decision = "approve" ∨ decision = "request_revision") : review.decides = true := by
  simpa [PlanReview.decides, h] using hdecision

/-! ## What a call knows -/

/-- What a call of a plan tool knows. -/
structure PlanTask where
  /-- A UUID that it has drawn. -/
  created : Option String := none
  loaded : Option PlanArtifact := none
  sent : List AppEvent := []
  review : Option PlanReview := none

/-- What a call may put in the place of a plan. -/
structure PlanTask.Replaces (φ : PlanTask) (author : PlanAuthor) (plan : PlanArtifact) : Prop where
  made : (φ.created = some plan.id ∧ author ≠ .revise) ∨
    ∃ old, φ.loaded = some old ∧ plan.Follows author old
  approved : plan.state = .approved → ∃ r, φ.review = some r ∧ r.Answers "approve" plan
  requested : plan.state = .revisionRequested →
    ∃ r, φ.review = some r ∧ r.Answers "request_revision" plan

/-- What a call knows, and what it needs of it. -/
def planTasks : Protocol PlanEffect PlanEffect.Answer PlanTask where
  requires
    | .read id, φ => ∀ old, φ.loaded = some old → old.id = id
    | .replace author plan, φ => φ.Replaces author plan
    | _, _ => True
  admits
    | .read _, φ, .ok plan => ∀ review old, φ.review = some review → φ.loaded = some old →
      review.decides = true → plan.state = .proposed → plan.SameRevision old
    | _, _, _ => True
  next
    | .uuid, φ, id => { φ with created := some id }
    | .read _, φ, .ok plan => { φ with loaded := some plan }
    | .replace _ _, φ, _ => { φ with created := none }
    | .send event, φ, _ => { φ with sent := event :: φ.sent }
    | .question request, φ, answers =>
      { φ with review := answers.toOption.map fun answers => ⟨φ.sent, request, answers⟩ }
    | _, φ, _ => φ

namespace PlanTask

variable {φ : PlanTask}

/-- The call keeps to the protocol and ends in `Q`. -/
abbrev Keeps {α : Type} (p : PlanProg α) (Q : α → PlanTask → Prop) (φ : PlanTask) : Prop :=
  planTasks.Keeps p Q φ

theorem keeps_load {id : String} {Q : Except AxiomError PlanArtifact → PlanTask → Prop}
    (hid : ∀ old, φ.loaded = some old → old.id = id)
    (hok : ∀ plan, plan.id = id → planTasks.admits (.read id) φ (.ok plan) →
      Q (.ok plan) { φ with loaded := some plan })
    (herror : ∀ error loaded, Q (.error error) { φ with loaded }) :
    Keeps (PlanArtifact.load id) Q φ := by
  unfold PlanArtifact.load
  split
  · exact herror _ φ.loaded
  · refine planTasks.keeps_effect_bind.mpr ⟨hid, ?_⟩
    rintro (error | plan) hadmits
    · exact herror error φ.loaded
    · dsimp only
      split
      · exact herror _ (some plan)
      · next hsame =>
        split
        · exact herror _ (some plan)
        · exact hok plan (not_not.mp hsame) hadmits

theorem keeps_saved {author : PlanAuthor} {changed : Except AxiomError PlanArtifact}
    {result : PlanArtifact → PlanOutcome} {Q : PlanOutcome → PlanTask → Prop}
    (hreplaces : ∀ plan, changed = .ok plan → φ.Replaces author plan)
    (hok : ∀ plan, changed = .ok plan → Q (result plan) { φ with created := none })
    (herror : ∀ error created, Q (.error error) { φ with created }) :
    Keeps (saved author changed result) Q φ := by
  unfold saved
  split
  · exact herror _ φ.created
  · next plan =>
    unfold PlanArtifact.save
    split
    · exact herror _ φ.created
    · refine planTasks.keeps_effect_bind.mpr ⟨hreplaces plan rfl, ?_⟩
      rintro (error | ⟨⟩) -
      · exact herror error none
      · exact hok plan rfl

theorem keeps_sendAll {events : List AppEvent} {Q : Unit → PlanTask → Prop}
    (h : Q () { φ with sent := events.reverse ++ φ.sent }) : Keeps (sendAll events) Q φ := by
  induction events generalizing φ with
  | nil => exact h
  | cons event rest ih =>
    refine planTasks.keeps_effect_bind.mpr ⟨trivial, fun _ _ => ih ?_⟩
    simpa [planTasks] using h

/-- The answers that are passed on are the ones that were given. -/
theorem validateAnswers_ok {questions : List QuestionSpec} {answers passed : Answers}
    (h : validateAnswers questions answers = .ok passed) : passed = answers := by
  fun_induction validateAnswers questions answers with
  | case1 => exact (Except.ok.inj h).symm
  | case2 | case4 | case5 => cases h
  | case3 _ _ _ _ ih | case6 _ _ _ _ _ ih => exact ih h

/-- **A review ends in a plan of the same revision**, approved or sent back as the user decided. -/
theorem reviewed_ok {answers : Answers} {commentId : String} {plan plan' : PlanArtifact}
    (h : reviewed answers commentId plan = .ok plan') :
    plan'.SameRevision plan ∧
      (plan'.state = .approved →
        plan.state = .proposed ∧ oneAnswer answers "decision" = .ok "approve") ∧
      (plan'.state = .revisionRequested →
        plan.state = .proposed ∧ oneAnswer answers "decision" = .ok "request_revision") := by
  obtain ⟨decision, hdecision, h⟩ := Fallible.result_bind_ok h
  split at h
  · obtain ⟨hstate, rfl⟩ := PlanArtifact.approve_ok h
    exact ⟨⟨rfl, rfl, rfl⟩, fun _ => ⟨hstate, hdecision⟩, nofun⟩
  · cases PlanArtifact.transition_ok h
    exact ⟨⟨rfl, rfl, rfl⟩, nofun, nofun⟩
  · obtain ⟨lineRange, -, h⟩ := Fallible.result_bind_ok h
    obtain ⟨⟨first, last⟩, -, h⟩ := Fallible.result_bind_ok h
    obtain ⟨comment, -, h⟩ := Fallible.result_bind_ok h
    split at h
    · cases h
    · obtain ⟨hstate, comments, rfl⟩ := PlanArtifact.requestRevision_ok h
      exact ⟨⟨rfl, rfl, rfl⟩, nofun, fun _ => ⟨hstate, hdecision⟩⟩
  · cases h

theorem createPlan_keeps (args : CreatePlanArgs) :
    Keeps (createPlan args) (fun _ _ => True) {} := by
  refine planTasks.keeps_effect_bind.mpr ⟨trivial, fun id _ => ?_⟩
  apply keeps_saved
  · rintro plan ⟨⟩
    exact ⟨.inl ⟨rfl, by simp⟩, nofun, nofun⟩
  · exact fun _ _ => trivial
  · exact fun _ _ => trivial

theorem revisePlan_keeps (args : RevisePlanArgs) :
    Keeps (revisePlan args) (fun _ _ => True) {} := by
  refine planTasks.keeps_bind.mpr (keeps_load nofun (fun old _ _ => ?_) fun _ _ => trivial)
  refine keeps_saved ?_ (fun _ _ => trivial) fun _ _ => trivial
  intro plan hrevise
  obtain ⟨-, rfl⟩ := PlanArtifact.revise_ok hrevise
  exact ⟨.inr ⟨old, rfl, by simp [PlanArtifact.Follows]⟩, nofun, nofun⟩

theorem proposePlan_keeps {args : PlanIdArgs} {Q : PlanOutcome → PlanTask → Prop}
    (hok : ∀ old plan, old.id = args.planId → plan.SameRevision old →
      Q (.ok { plan
               events := [.planProposed plan.id plan.revision plan.markdown]
               questions := some (reviewRequest plan) }) { loaded := some old })
    (herror : ∀ error φ, Q (.error error) φ) : Keeps (proposePlan args) Q {} := by
  refine planTasks.keeps_bind.mpr (keeps_load nofun (fun old hid _ => ?_) fun _ _ => herror _ _)
  have hsame (plan : PlanArtifact) (h : old.propose = .ok plan) : plan.SameRevision old := by
    cases PlanArtifact.transition_ok h
    exact ⟨rfl, rfl, rfl⟩
  refine keeps_saved (fun plan h => ?_) (fun plan h => hok old plan hid (hsame plan h))
    fun _ _ => herror _ _
  have hstate : plan.state = .proposed := congrArg PlanArtifact.state (PlanArtifact.transition_ok h)
  refine ⟨.inr ⟨old, rfl, hsame plan h⟩, ?_, ?_⟩ <;> simp [hstate]

/-- **A review is completed** on the revision that it was about. -/
theorem completeInteraction_keeps {args : PlanIdArgs} {old : PlanArtifact} (review : PlanReview)
    (hid : old.id = args.planId) (hloaded : φ.loaded = some old) (hreview : φ.review = some review)
    (habout : review.About old) :
    Keeps (completeInteraction args review.answers) (fun _ _ => True) φ := by
  refine planTasks.keeps_bind.mpr (keeps_load ?_ (fun plan _ hadmits => ?_) fun _ _ => trivial)
  · intro loaded hsome
    rw [hloaded] at hsome
    cases hsome
    exact hid
  · refine planTasks.keeps_effect_bind.mpr ⟨trivial, fun commentId _ => ?_⟩
    refine keeps_saved (fun plan' h => ?_) (fun _ _ => trivial) fun _ _ => trivial
    obtain ⟨hsame, happroved, hrequested⟩ := reviewed_ok h
    have habout' (hdecides : review.decides = true) (hstate : plan.state = .proposed) :
        review.About plan' :=
      (habout.of_same (hadmits review old hreview hloaded hdecides hstate)).of_same hsame
    refine ⟨.inr ⟨plan, rfl, hsame⟩, fun hstate => ?_, fun hstate => ?_⟩
    · obtain ⟨hproposed, hdecision⟩ := happroved hstate
      exact ⟨review, hreview, habout' (PlanReview.decides_of_ok hdecision (.inl rfl)) hproposed,
        hdecision⟩
    · obtain ⟨hproposed, hdecision⟩ := hrequested hstate
      exact ⟨review, hreview, habout' (PlanReview.decides_of_ok hdecision (.inr rfl)) hproposed,
        hdecision⟩

theorem interact_keeps {args : PlanIdArgs} {old plan : PlanArtifact} (hid : old.id = args.planId)
    (hsame : plan.SameRevision old) :
    Keeps (interact args
      { plan
        events := [.planProposed plan.id plan.revision plan.markdown]
        questions := some (reviewRequest plan) }) (fun _ _ => True) { loaded := some old } := by
  refine planTasks.keeps_bind.mpr (keeps_sendAll ?_)
  refine planTasks.keeps_effect_bind.mpr ⟨trivial, ?_⟩
  rintro (error | answers) -
  · trivial
  · dsimp only
    split
    · trivial
    · next hanswers =>
      cases validateAnswers_ok hanswers
      have hback : old.SameRevision plan := ⟨hsame.1.symm, hsame.2.1.symm, hsame.2.2.symm⟩
      refine planTasks.keeps_bind.mpr (Protocol.Keeps.mono planTasks
        (completeInteraction_keeps ⟨_, _, _⟩ hid rfl rfl ?_) fun outcome ψ _ => ?_)
      · exact PlanReview.About.of_same ⟨List.mem_cons_self, rfl⟩ hback
      · cases outcome with
        | error error => trivial
        | ok completed => exact keeps_sendAll trivial

/-- **Every call keeps to the protocol.** -/
theorem call_keeps (operation : PlanOperation) :
    Keeps operation.call (fun _ _ => True) {} := by
  cases operation with
  | create args =>
    exact planTasks.keeps_bind.mpr (Protocol.Keeps.mono planTasks (createPlan_keeps args)
      fun _ _ _ => trivial)
  | revise args =>
    exact planTasks.keeps_bind.mpr (Protocol.Keeps.mono planTasks (revisePlan_keeps args)
      fun _ _ _ => trivial)
  | propose args =>
    exact planTasks.keeps_bind.mpr
      (proposePlan_keeps (fun _ _ hid hsame => interact_keeps hid hsame) fun _ _ => trivial)

end PlanTask

/-! ## The plans of a workspace -/

theorem PlanArtifact.SameRevision.trans {plan mid old : PlanArtifact} (h : plan.SameRevision mid)
    (h' : mid.SameRevision old) : plan.SameRevision old :=
  ⟨h.1.trans h'.1, h.2.1.trans h'.2.1, h.2.2.trans h'.2.2⟩

/-- What a call knows is so: the UUID it has drawn is no plan's, and the plan it has loaded is
stored in the same revision, unless `plan_revise` has come in between. -/
structure PlanTask.Holds (w : PlanWorld) (i : Nat) (φ : PlanTask) : Prop where
  fresh : ∀ id, φ.created = some id → id ∈ w.drawn ∧ w.plans id = none
  loaded : ∀ old, φ.loaded = some old → ∃ plan, w.plans old.id = some plan ∧
    (revisedSince i old.id w.log = false → plan.SameRevision old)
  sent : w.sent i = φ.sent
  review : w.reviews i = φ.review

/-- What all calls know is so. -/
structure PlanWorld.Holds (w : PlanWorld) (φ : Nat → PlanTask) : Prop where
  plans : ∀ id plan, w.plans id = some plan → plan.id = id ∧ id ∈ w.drawn
  unique : ∀ i j id, (φ i).created = some id → (φ j).created = some id → i = j
  tasks : ∀ i, (φ i).Holds w i
  log : ∀ r ∈ w.log, r.AsReviewed

namespace PlanWorld.Holds

variable {w : PlanWorld} {φ : Nat → PlanTask} {i : Nat}

/-- The calls other than one know what they knew. -/
theorem update {w' : PlanWorld} {ψ : PlanTask} (h : w.Holds φ)
    (hplans : ∀ id plan, w'.plans id = some plan → plan.id = id ∧ id ∈ w'.drawn)
    (hcreated : ∀ id, ψ.created = some id → ∀ j, j ≠ i → (φ j).created ≠ some id)
    (hothers : ∀ j, j ≠ i → (φ j).Holds w j → (φ j).Holds w' j) (hi : ψ.Holds w' i)
    (hlog : ∀ r ∈ w'.log, r.AsReviewed) : w'.Holds (Function.update φ i ψ) := by
  have hother (j : Nat) (hj : j ≠ i) : Function.update φ i ψ j = φ j := Function.update_of_ne hj _ _
  have hself : Function.update φ i ψ i = ψ := Function.update_self _ _ _
  refine ⟨hplans, fun j k id hj hk => ?_, fun j => ?_, hlog⟩
  · by_cases hji : j = i <;> by_cases hki : k = i
    · rw [hji, hki]
    · subst hji
      rw [hself] at hj
      rw [hother k hki] at hk
      exact absurd hk (hcreated id hj k hki)
    · subst hki
      rw [hself] at hk
      rw [hother j hji] at hj
      exact absurd hj (hcreated id hk j hji)
    · rw [hother j hji] at hj
      rw [hother k hki] at hk
      exact h.unique j k id hj hk
  · by_cases hj : j = i
    · subst hj
      rwa [hself]
    · rw [hother j hj]
      exact hothers j hj (h.tasks j)

theorem uuid {id : String} (h : w.Holds φ) (hid : id ∉ w.drawn) :
    ({ w with drawn := id :: w.drawn } : PlanWorld).Holds
      (Function.update φ i { φ i with created := some id }) := by
  have hdrawn {x : String} (hx : x ∈ w.drawn) : x ∈ id :: w.drawn := List.mem_cons_of_mem _ hx
  have hnone : w.plans id = none := by
    by_contra hsome
    obtain ⟨plan, hplan⟩ := Option.ne_none_iff_exists'.mp hsome
    exact hid (h.plans id plan hplan).2
  refine h.update (fun x plan hx => ?_) ?_ (fun j _ hj => ?_) ?_ h.log
  · exact ⟨(h.plans x plan hx).1, hdrawn (h.plans x plan hx).2⟩
  · rintro _ ⟨⟩ j - hj
    exact hid ((h.tasks j).fresh id hj).1
  · exact ⟨fun x hx => ⟨hdrawn (hj.fresh x hx).1, (hj.fresh x hx).2⟩, hj.loaded, hj.sent, hj.review⟩
  · refine ⟨?_, (h.tasks i).loaded, (h.tasks i).sent, (h.tasks i).review⟩
    rintro _ ⟨⟩
    exact ⟨List.mem_cons_self, hnone⟩

theorem read {id : String} {plan : PlanArtifact} (h : w.Holds φ) (hplan : w.plans id = some plan) :
    ({ w with log := .loaded i plan :: w.log } : PlanWorld).Holds
      (Function.update φ i { φ i with loaded := some plan }) := by
  refine h.update h.plans (fun x hx j hj hjx => ?_) (fun j hj hold => ?_) ?_ ?_
  · exact hj (h.unique j i x hjx hx)
  · refine ⟨hold.fresh, fun old hloaded => ?_, hold.sent, hold.review⟩
    obtain ⟨stored, hstored, hsame⟩ := hold.loaded old hloaded
    refine ⟨stored, hstored, fun hrevised => hsame ?_⟩
    simpa [revisedSince, Ne.symm hj] using hrevised
  · refine ⟨(h.tasks i).fresh, ?_, (h.tasks i).sent, (h.tasks i).review⟩
    rintro _ ⟨⟩
    refine ⟨plan, ?_, fun _ => ⟨rfl, rfl, rfl⟩⟩
    rw [(h.plans id plan hplan).1]
    exact hplan
  · intro r hr
    rcases List.mem_cons.mp hr with rfl | hr
    · exact ⟨trivial, trivial, trivial⟩
    · exact h.log r hr

/-- A plan takes the place of the revision that it is made from. -/
theorem follows {author : PlanAuthor} {plan : PlanArtifact} (h : w.Holds φ)
    (hreplaces : (φ i).Replaces author plan) (hrevised : revisedSince i plan.id w.log = false) :
    ∀ old, w.plans plan.id = some old → plan.Follows author old := by
  intro old hold
  rcases hreplaces.made with ⟨hcreated, -⟩ | ⟨base, hloaded, hfollows⟩
  · rw [((h.tasks i).fresh _ hcreated).2] at hold
    cases hold
  · have hid : plan.id = base.id := by
      unfold PlanArtifact.Follows at hfollows
      split at hfollows <;> exact hfollows.1
    obtain ⟨stored, hstored, hsame⟩ := (h.tasks i).loaded base hloaded
    rw [← hid] at hstored hsame
    rw [hold] at hstored
    cases hstored
    obtain ⟨hid', hrevision, hmarkdown⟩ := hsame hrevised
    unfold PlanArtifact.Follows PlanArtifact.SameRevision at hfollows ⊢
    rw [hid', hrevision, hmarkdown]
    exact hfollows

theorem drawn {author : PlanAuthor} {plan : PlanArtifact} (h : w.Holds φ)
    (hreplaces : (φ i).Replaces author plan) : plan.id ∈ w.drawn := by
  rcases hreplaces.made with ⟨hcreated, -⟩ | ⟨base, hloaded, hfollows⟩
  · exact ((h.tasks i).fresh _ hcreated).1
  · obtain ⟨stored, hstored, -⟩ := (h.tasks i).loaded base hloaded
    exact hfollows.id_eq ▸ (h.plans _ _ hstored).2

/-- **A save** that no revision has come before. -/
theorem replace {author : PlanAuthor} {plan : PlanArtifact} (h : w.Holds φ)
    (hreplaces : (φ i).Replaces author plan) (hrevised : revisedSince i plan.id w.log = false) :
    ({ w with
      plans := Function.update w.plans plan.id (some plan)
      log := .replaced i author plan (w.plans plan.id) (w.reviews i) :: w.log } : PlanWorld).Holds
        (Function.update φ i { φ i with created := none }) := by
  have hfollows := h.follows hreplaces hrevised
  -- what a call has loaded is still stored, in the same revision unless this is a `plan_revise`
  have hloaded (j : Nat) (old : PlanArtifact) (hold : (φ j).loaded = some old) :
      ∃ stored, Function.update w.plans plan.id (some plan) old.id = some stored ∧
        (revisedSince j old.id
          (.replaced i author plan (w.plans plan.id) (w.reviews i) :: w.log) = false →
            stored.SameRevision old) := by
    obtain ⟨stored, hstored, hsame⟩ := (h.tasks j).loaded old hold
    simp only [revisedSince, Bool.or_eq_false_iff, Bool.and_eq_false_iff, decide_eq_false_iff_not]
    by_cases hid : old.id = plan.id
    · rw [hid] at hstored hsame ⊢
      refine ⟨plan, Function.update_self _ _ _, fun ⟨hauthor, hrevised⟩ => ?_⟩
      have hauthor : author ≠ .revise := by simpa using hauthor
      have hplan := hfollows stored hstored
      rw [PlanArtifact.Follows, if_neg hauthor] at hplan
      exact hplan.trans (hsame hrevised)
    · refine ⟨stored, ?_, fun ⟨_, hrevised⟩ => hsame hrevised⟩
      rw [Function.update_of_ne hid]
      exact hstored
  refine h.update (fun id stored hid => ?_) nofun (fun j hj hold => ?_) ?_ ?_
  · by_cases hplan : id = plan.id
    · subst hplan
      cases Option.some.inj
        ((Function.update_self plan.id (some plan) w.plans).symm.trans hid)
      exact ⟨rfl, h.drawn hreplaces⟩
    · exact h.plans id stored ((Function.update_of_ne hplan _ _).symm.trans hid)
  · refine ⟨fun id hid => ⟨(hold.fresh id hid).1, ?_⟩, hloaded j, hold.sent, hold.review⟩
    have hother : id ≠ plan.id := by
      rintro rfl
      rcases hreplaces.made with ⟨hcreated, -⟩ | ⟨base, hbase, hfollowed⟩
      · exact hj (h.unique j i _ hid hcreated)
      · obtain ⟨stored, hstored, -⟩ := (h.tasks i).loaded base hbase
        rw [← hfollowed.id_eq, (hold.fresh _ hid).2] at hstored
        cases hstored
    exact (Function.update_of_ne hother _ _).trans (hold.fresh id hid).2
  · exact ⟨nofun, hloaded i, (h.tasks i).sent, (h.tasks i).review⟩
  · intro r hr
    rcases List.mem_cons.mp hr with rfl | hr
    · rw [(h.tasks i).review]
      exact ⟨hreplaces.approved, hreplaces.requested, hfollows⟩
    · exact h.log r hr

theorem send {event : AppEvent} (h : w.Holds φ) :
    ({ w with sent := Function.update w.sent i (event :: w.sent i) } : PlanWorld).Holds
      (Function.update φ i { φ i with sent := event :: (φ i).sent }) := by
  refine h.update h.plans (fun x hx j hj hjx => ?_) (fun j hj hold => ?_) ?_ h.log
  · exact hj (h.unique j i x hjx hx)
  · exact ⟨hold.fresh, hold.loaded, (Function.update_of_ne hj _ _).trans hold.sent, hold.review⟩
  · refine ⟨(h.tasks i).fresh, (h.tasks i).loaded, ?_, (h.tasks i).review⟩
    show Function.update w.sent i _ i = _
    rw [Function.update_self, (h.tasks i).sent]

theorem question {request : QuestionRequest} {answers : Except AxiomError Answers}
    (h : w.Holds φ) :
    ({ w with
      reviews := Function.update w.reviews i
        (answers.toOption.map fun answers => ⟨w.sent i, request, answers⟩) } : PlanWorld).Holds
          (Function.update φ i
            { φ i with
              review := answers.toOption.map fun answers => ⟨(φ i).sent, request, answers⟩ }) := by
  refine h.update h.plans (fun x hx j hj hjx => ?_) (fun j hj hold => ?_) ?_ h.log
  · exact hj (h.unique j i x hjx hx)
  · exact ⟨hold.fresh, hold.loaded, hold.sent, (Function.update_of_ne hj _ _).trans hold.review⟩
  · refine ⟨(h.tasks i).fresh, (h.tasks i).loaded, (h.tasks i).sent, ?_⟩
    show Function.update w.reviews i _ i = _
    rw [Function.update_self, (h.tasks i).sent]

end PlanWorld.Holds

/-! ## All calls -/

/-- **What the calls know stays so**, in the runs that no revision disturbs. -/
theorem planTasks_sound :
    TaskSystem.Sound planSystem planTasks PlanWorld.Holds {} (fun _ => True)
      (fun pool step => Undisturbed pool step = true) := by
  constructor
  case exec =>
    intro pool φ i e k choice w r h hi hC hrequires hexec
    cases e with
    | uuid =>
      cases choice with
      | uuid id =>
        simp only [planSystem, planExec] at hexec
        split at hexec
        · cases hexec
        · next hid =>
          cases hexec
          exact ⟨trivial, h.uuid hid⟩
      | _ => cases hexec
    | read id =>
      cases choice with
      | go =>
        simp only [planSystem, planExec] at hexec
        split at hexec
        · next plan hplan =>
          cases hexec
          refine ⟨fun review old hreview hloaded hdecides hstate => ?_, h.read hplan⟩
          have hid : old.id = id := hrequires old hloaded
          subst hid
          obtain ⟨stored, hstored, hsame⟩ := (h.tasks i).loaded old hloaded
          rw [hplan] at hstored
          cases hstored
          have hreview : pool.shared.reviews i = some review := by rw [(h.tasks i).review, hreview]
          refine hsame ?_
          simpa [Undisturbed, hi, PlanWorld.decides, hreview, hplan, hdecides, hstate] using hC
        · cases hexec
          exact ⟨trivial, by simpa [planTasks] using h⟩
      | failed error =>
        cases hexec
        exact ⟨trivial, by simpa [planTasks] using h⟩
      | _ => cases hexec
    | replace author plan =>
      cases choice with
      | go =>
        cases hexec
        exact ⟨trivial, h.replace hrequires (by simpa [Undisturbed, hi] using hC)⟩
      | failed error =>
        cases hexec
        refine ⟨trivial, h.update h.plans nofun (fun _ _ hold => hold) ?_ h.log⟩
        exact ⟨nofun, (h.tasks i).loaded, (h.tasks i).sent, (h.tasks i).review⟩
      | _ => cases hexec
    | send event =>
      cases choice with
      | go =>
        cases hexec
        exact ⟨trivial, h.send⟩
      | _ => cases hexec
    | question request =>
      cases choice with
      | answered answers =>
        cases hexec
        exact ⟨trivial, h.question⟩
      | _ => cases hexec
  case event => exact fun _ _ e => e.elim
  case start =>
    rintro pool φ operation w p h - - ⟨⟩
    exact ⟨PlanTask.call_keeps operation, h⟩

/-- The state a run of the calls reaches. -/
def planRun (steps : List PlanStep) : PlanWorld :=
  (planSystem.machine.run { shared := {} } steps).1.shared

/-- **A plan is approved as reviewed**, a revision request stands at the revision it was made on,
and no revision is overwritten by what was not made from it, in every run in which `plan_revise`
does not come in between. -/
theorem plans_are_approved_as_reviewed (steps : List PlanStep)
    (h : planSystem.machine.Meets (fun pool step => Undisturbed pool step = true)
      { shared := {} } steps) :
    ∀ r ∈ (planRun steps).log, r.AsReviewed := by
  have hstart : PlanWorld.Holds {} fun _ => {} :=
    ⟨nofun, nofun, fun _ => ⟨nofun, nofun, rfl, rfl⟩, nofun⟩
  obtain ⟨φ, hφ⟩ := planTasks_sound.run hstart h
  exact hφ.inv.log

/-- A plan with the text "a", proposed by the second call, which has put its questions. -/
def proposedSteps : List PlanStep :=
  [.start (.create ⟨"a"⟩), .run 0 (.uuid "p"), .run 0 .go,
    .start (.propose ⟨"p"⟩), .run 1 .go, .run 1 .go, .run 1 .go]

/-- The user answers the questions, and the review is completed. -/
def answeredSteps (answers : Answers) : List PlanStep :=
  [.run 1 (.answered (.ok answers)), .run 1 .go, .run 1 (.uuid "c"), .run 1 .go]

/-- The plan is revised, and proposed in another session. -/
def revisedSteps : List PlanStep :=
  [.start (.revise ⟨"p", 1, "b"⟩), .run 2 .go, .run 2 .go, .start (.propose ⟨"p"⟩), .run 3 .go,
    .run 3 .go]

theorem plans_are_approved_as_reviewed_once :
    (planRun (proposedSteps ++ answeredSteps [("decision", ["approve"])])).plans "p" =
      some ⟨"p", 1, .approved, "a", []⟩ ∧
    ∀ r ∈ (planRun (proposedSteps ++ answeredSteps [("decision", ["approve"])])).log,
      r.AsReviewed :=
  ⟨rfl, plans_are_approved_as_reviewed _ (by decide +kernel)⟩

/-- **A revision is approved that was never shown**, and one is sent back with a comment on the
revision before; and a revision is lost to a proposal that was loaded before it. -/
theorem plan_approved_unseen :
    (¬ ∀ steps, ∀ r ∈ (planRun steps).log, r.Reviewed .approved "approve") ∧
    (¬ ∀ steps, ∀ r ∈ (planRun steps).log, r.Reviewed .revisionRequested "request_revision") ∧
    ¬ ∀ steps, ∀ r ∈ (planRun steps).log, r.Newest := by
  have hunseen {review : PlanReview} {plan : PlanArtifact} (hmarkdown : plan.markdown ≠ "a")
      (hevents : review.events = [.planProposed "p" 1 "a"]) : ¬ review.About plan := by
    rintro ⟨hproposed, -⟩
    rw [hevents, List.mem_singleton, AppEvent.planProposed.injEq] at hproposed
    exact hmarkdown hproposed.2.2
  refine ⟨fun h => ?_, fun h => ?_, fun h => ?_⟩
  · have hreviewed := h (proposedSteps ++ revisedSteps ++ answeredSteps [("decision", ["approve"])])
      (.replaced 1 .complete ⟨"p", 2, .approved, "b", []⟩ (some ⟨"p", 2, .proposed, "b", []⟩)
        (some ⟨[.planProposed "p" 1 "a"], reviewRequest ⟨"p", 1, .proposed, "a", []⟩,
          [("decision", ["approve"])]⟩)) (List.mem_of_mem_head? rfl)
    obtain ⟨_, ⟨⟩, habout, -⟩ := hreviewed rfl
    exact hunseen (by decide) rfl habout
  · have hreviewed := h (proposedSteps ++ revisedSteps ++ answeredSteps
        [("decision", ["request_revision"]), ("line_range", ["all"]), ("comment", ["why"])])
      (.replaced 1 .complete ⟨"p", 2, .revisionRequested, "b", [⟨"c", 1, 1, "why"⟩]⟩
        (some ⟨"p", 2, .proposed, "b", []⟩)
        (some ⟨[.planProposed "p" 1 "a"], reviewRequest ⟨"p", 1, .proposed, "a", []⟩,
          [("decision", ["request_revision"]), ("line_range", ["all"]), ("comment", ["why"])]⟩))
      (List.mem_of_mem_head? rfl)
    obtain ⟨_, ⟨⟩, habout, -⟩ := hreviewed rfl
    exact hunseen (by decide) rfl habout
  · have hnewest := h
      [.start (.create ⟨"a"⟩), .run 0 (.uuid "p"), .run 0 .go, .start (.propose ⟨"p"⟩), .run 1 .go,
        .start (.revise ⟨"p", 1, "b"⟩), .run 2 .go, .run 2 .go, .run 1 .go]
      (.replaced 1 .propose ⟨"p", 1, .proposed, "a", []⟩ (some ⟨"p", 2, .draft, "b", []⟩) none)
      (List.mem_of_mem_head? rfl)
    obtain ⟨-, hrevision, -⟩ := hnewest _ rfl
    cases hrevision

end AxiomDesktop
