import AxiomDesktop.Session.Effects

/-!
# The history of a store

`recorder` is the store with a record of what it did: every event it persisted, with the tables
before and after, and every other write. `Write.chain`: the steps of an operation lead one by one
from the tables it found to those it left, each as `Moved` says, and `history_induction` is
induction over the steps of a run.
-/

namespace AxiomDesktop.Store

open Fallible

/-- One step of the store: an event that was persisted, or another write. -/
structure Step where
  before : Database
  event : Option EventEnvelope
  after : Database

/-- The steps of the loop of a batch. -/
def loopSteps (threadId : String) : Option String → List EventEnvelope → Transaction → List Step
  | _, [], _ => []
  | c, e :: rest, tx =>
    match (persistEnvelope threadId c e).exec tx with
    | (.ok c', tx') => ⟨tx.db, some e, tx'.db⟩ :: loopSteps threadId c' rest tx'
    | (.error _, _) => []

/-- The steps of a batch that commits: its truncation, its events, and the revision it counts. -/
def batchSteps (env : Environment) (first : EventEnvelope) (envelopes : List EventEnvelope)
    (c : Option String) (preferences : Option (String × ThinkingLevel))
    (replacement : Option PromptRevision) (s : Database) : List Step :=
  match (batch first envelopes c preferences replacement).exec { db := s, env },
      (cut first.sessionId.toString replacement).exec { db := s, env } with
  | (.ok _, tx'), (.ok _, tx₁) =>
    ⟨s, none, tx₁.db⟩ :: (loopSteps first.sessionId.toString c envelopes tx₁ ++
      [⟨((persistEnvelopes first.sessionId.toString c envelopes).exec tx₁).2.db, none, tx'.db⟩])
  | _, _ => []

/-- The steps of an operation. -/
def Write.steps (env : Environment) (op : Write) (s : Database) : List Step :=
  match op with
  | .appendBatch envelopes clientItemId preferences replacement =>
    match checkBatch envelopes clientItemId preferences with
    | .ok (first, c, preferences) => batchSteps env first envelopes c preferences replacement s
    | .error _ => []
  | op => [⟨s, none, op.run env s⟩]

/-- The store with its history. -/
def recorder : Machine Database (Environment × Write) Step where
  step s op := (op.2.run op.1 s, op.2.steps op.1 s)

/-- The recorder runs the store. -/
theorem recorder_run (s : Database) (ops : List (Environment × Write)) :
    (recorder.run s ops).1 = (store.run s ops).1 := by
  induction ops generalizing s with
  | nil => rfl
  | cons op rest ih => exact ih (op.2.run op.1 s)

/-! ## What a step did -/

/-- Whether an operation is a batch of events. -/
def Write.isBatch : Write → Bool
  | .appendBatch .. => true
  | _ => false

/-- The events of an operation. -/
def Write.envelopes : Write → List EventEnvelope
  | .appendBatch envelopes _ _ _ => envelopes
  | _ => []

/-- What the end of a batch leaves of a thread. -/
structure KeepsCounters (r r' : StoredThread) : Prop where
  id : r'.id = r.id
  nextTimelineSequence : r'.nextTimelineSequence = r.nextTimelineSequence
  lifecycle : r'.lifecycle = r.lifecycle

/-- An event was persisted between two states of the tables. -/
def Persists (e : EventEnvelope) (s s' : Database) : Prop :=
  ∃ (c : Option String) (tx tx' : Transaction), tx.db = s ∧ tx'.db = s' ∧
    (persistEvent e c).exec tx = (.ok ⟨⟩, tx')

/-- What a step of an operation did. -/
inductive Moved (op : Write) : Step → Prop where
  | event (s s₁ s' : Database) (e : EventEnvelope) (c : Option String) (he : e ∈ op.envelopes)
      (hrun : Persists e s s₁) (hitems : s'.timelineItems = s₁.timelineItems)
      (hevent : Persisted e.event e.sessionId.toString c e.occurredAt.rfc3339 s s₁)
      (htimes : Annotations e.sessionId.toString (fun _ => False) (fun _ => False) s₁ s') :
      Moved op ⟨s, some e, s'⟩
  | cut (s s' : Database) (t : String) (r : PromptRevision) (h : Truncated t r s s') :
      Moved op ⟨s, none, s'⟩
  | columns (s s' : Database) (p : StoredThread → Bool) (f : StoredThread → StoredThread)
      (hf : ∀ r, KeepsCounters r (f r))
      (hthreads : s'.threads.rows = s.threads.rows.map (Rows.edit p f)) (hturns : s'.turns = s.turns)
      (hitems : s'.timelineItems = s.timelineItems) (husage : s'.requestUsage = s.requestUsage) :
      Moved op ⟨s, none, s'⟩
  | other (s s' : Database) (hop : op.isBatch = false) (h : Wrote op s s') : Moved op ⟨s, none, s'⟩

/-- Steps that lead from one state to another. -/
inductive Chain (P : Step → Prop) : Database → List Step → Database → Prop where
  | nil (s : Database) : Chain P s [] s
  | cons (e : Step) (rest : List Step) (s' : Database) (he : P e)
      (hrest : Chain P e.after rest s') : Chain P e.before (e :: rest) s'

theorem Chain.append {P : Step → Prop} {s s' s'' : Database} {es es' : List Step}
    (h : Chain P s es s') (h' : Chain P s' es' s'') : Chain P s (es ++ es') s'' := by
  induction h with
  | nil => exact h'
  | cons e rest s' he _ ih => exact .cons e (rest ++ es') s'' he (ih h')

theorem loopSteps_chain {op : Write} {t : String} {envelopes : List EventEnvelope}
    {c : Option String} {tx tx' : Transaction} {u : PUnit}
    (hop : ∀ e ∈ envelopes, e ∈ op.envelopes) (ht : ∀ e ∈ envelopes, e.sessionId.toString = t)
    (h : (persistEnvelopes t c envelopes).exec tx = (.ok u, tx')) :
    Chain (Moved op) tx.db (loopSteps t c envelopes tx) tx'.db := by
  induction envelopes generalizing c tx with
  | nil =>
    obtain ⟨-, rfl⟩ := Prod.mk.inj h
    exact .nil _
  | cons e rest ih =>
    rw [persistEnvelopes, exec_bind_ok] at h
    obtain ⟨c', tx₁, hfirst, hrest⟩ := h
    have het := ht e List.mem_cons_self
    subst het
    obtain ⟨-, tx₂, hrun, hitems, -, htimes⟩ := persistEnvelope_run hfirst
    unfold loopSteps
    rw [hfirst]
    refine .cons ⟨tx.db, some e, tx₁.db⟩ _ _ ?_ (ih ?_ ?_ hrest)
    · exact .event _ tx₂.db _ e c (hop e List.mem_cons_self) ⟨c, tx, tx₂, rfl, rfl, hrun⟩ hitems
        (persistEvent_ok hrun) htimes
    · exact fun e' he' => hop e' (List.mem_cons_of_mem e he')
    · exact fun e' he' => ht e' (List.mem_cons_of_mem e he')

/-- **The steps of an operation** lead from the tables it found to those it left. -/
theorem Write.chain (env : Environment) (op : Write) (s : Database) :
    Chain (Moved op) s (op.steps env s) (op.run env s) := by
  cases hop : op.isBatch with
  | false =>
    have hsteps : op.steps env s = [⟨s, none, op.run env s⟩] := by
      cases op with
      | appendBatch => cases hop
      | _ => rfl
    rw [hsteps]
    exact .cons ⟨s, none, op.run env s⟩ [] _ (.other _ _ hop (op.wrote env s)) (.nil _)
  | true =>
    cases op with
    | appendBatch envelopes clientItemId preferences replacement =>
      show Chain _ s _ (Store.appendBatch env envelopes clientItemId preferences replacement s).2
      unfold Write.steps Store.appendBatch
      dsimp only
      cases hcheck : checkBatch envelopes clientItemId preferences with
      | error e => exact .nil s
      | ok checked =>
        obtain ⟨first, c, preferences'⟩ := checked
        obtain ⟨-, hsame⟩ := checkBatch_ok hcheck
        dsimp only
        unfold batchSteps transaction
        cases hbatch : (batch first envelopes c preferences' replacement).exec { db := s, env } with
        | mk result tx' =>
          cases result with
          | error e => exact .nil s
          | ok out =>
            obtain ⟨-, tx₁, tx₂, hcut, happend, -, now, preferences'', hdb⟩ := batch_run hbatch
            rw [hcut]
            dsimp only
            rw [happend]
            refine .cons ⟨s, none, tx₁.db⟩ _ _ ?_ (Chain.append (loopSteps_chain ?_ ?_ happend) ?_)
            · obtain ⟨-, rfl⟩ | ⟨r, -, htruncated⟩ := cut_ok hcut
              · refine .columns _ _ (fun _ => false) id (fun _ => ⟨rfl, rfl, rfl⟩) ?_ rfl rfl rfl
                exact (Rows.map_edit_false id _).symm
              · exact .cut _ _ _ r htruncated
            · exact fun e he => he
            · exact fun e he => by rw [hsame e he]
            · refine .cons ⟨tx₂.db, none, tx'.db⟩ [] _ ?_ (.nil _)
              refine .columns _ _ (fun r => r.id = first.sessionId.toString)
                (fun r => { r with revision := r.revision + 1, updatedAt := now }) ?_ ?_ ?_ ?_ ?_
              · exact fun _ => ⟨rfl, rfl, rfl⟩
              · rw [hdb]
                rfl
              · rw [hdb]
                rfl
              · rw [hdb]
                rfl
              · rw [hdb]
                rfl
    | _ => cases hop

/-- **Induction over a history.** What holds of the empty store and is kept by every step, beside
the steps before it, holds of every run; and so does what every step has beside those before it. -/
theorem history_induction {I : List Step → Database → Prop} {Q : Step → Prop} {C : Write → Prop}
    (start : I [] {})
    (step : ∀ op, C op → ∀ os e, I os e.before → Moved op e → I (os ++ [e]) e.after ∧ Q e)
    (ops : List (Environment × Write)) (hops : ∀ op ∈ ops, C op.2) :
    I (recorder.run {} ops).2 (recorder.run {} ops).1 ∧ ∀ e ∈ (recorder.run {} ops).2, Q e := by
  have chain : ∀ op, C op → ∀ s es s', Chain (Moved op) s es s' → ∀ os, I os s →
      I (os ++ es) s' ∧ ∀ e ∈ es, Q e := by
    intro op hop s es s' h
    induction h with
    | nil s => exact fun os hI => ⟨by rwa [List.append_nil], fun _ h => nomatch h⟩
    | cons e rest s' he _ ih =>
      intro os hI
      obtain ⟨hI', hQ⟩ := step op hop os e hI he
      obtain ⟨hI'', hQ'⟩ := ih (os ++ [e]) hI'
      rw [List.append_assoc] at hI''
      exact ⟨hI'', List.forall_mem_cons.mpr ⟨hQ, hQ'⟩⟩
  refine recorder.run_induction (C := fun _ op => C op.2)
    (motive := fun _ os s => I os s ∧ ∀ e ∈ os, Q e) ⟨start, fun _ h => nomatch h⟩ ?_ ops
    (recorder.meets_of_forall (fun op hop _ => hops op hop) {})
  rintro _ os s op ⟨hI, hQ⟩ hop
  obtain ⟨hI', hQ'⟩ := chain op.2 hop s _ _ (op.2.chain op.1 s) os hI
  refine ⟨hI', ?_⟩
  intro e he
  obtain he | he := List.mem_append.mp he
  · exact hQ e he
  · exact hQ' e he

end AxiomDesktop.Store
