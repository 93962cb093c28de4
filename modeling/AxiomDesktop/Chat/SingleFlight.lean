import AxiomDesktop.Chat.NothingStuck

/-!
# One prompt of a thread at a time

A prompt of a thread is under way while a task waits for its answer (`prompted`). In every run no
two are of one thread, and what an earlier generation waits for changes nothing any more
(`single_flight`).
-/

namespace AxiomDesktop.MessageQueue

variable {host : QueueHost} {q q' : MessageQueue}

/-- The thread of the prompt that a task of a generation waits for. -/
def Task.prompts (generation : Nat) : Task → Option String
  | .dispatch g item _ .prompting => if g = generation then some item.threadId else none
  | _ => none

/-- The threads of the prompts that are under way. -/
def prompted (q : MessageQueue) : List String := q.pending.filterMap (Task.prompts q.generation)

/-- A task that waits for a prompt sends a message of the thread. -/
theorem Task.prompts_some {g : Nat} {task : Task} {threadId : String}
    (h : task.prompts g = some threadId) : ∃ id, task.sends g = some (id, threadId) := by
  unfold Task.prompts at h
  split at h
  · rename_i generation item api
    obtain ⟨rfl, hthread⟩ := Option.ite_none_right_eq_some.mp h
    cases hthread
    exact ⟨item.id, if_pos rfl⟩
  · cases h

theorem prompted_sublist (g : Nat) (tasks : List Task) :
    (tasks.filterMap (Task.prompts g)).Sublist ((tasks.filterMap (Task.sends g)).map (·.2)) := by
  induction tasks with
  | nil => exact .slnil
  | cons task tasks ih =>
    rw [List.filterMap_cons, List.filterMap_cons]
    cases hprompts : task.prompts g with
    | none =>
      cases task.sends g with
      | none => exact ih
      | some sent => exact ih.cons sent.2
    | some threadId =>
      obtain ⟨id, hsends⟩ := Task.prompts_some hprompts
      rw [hsends]
      exact ih.cons_cons threadId

/-- What an earlier generation waits for, but for the restoration, leaves the queue. -/
theorem resume_past {task : Task} (hpast : task.generation ≠ q.generation)
    (hrestoring : ∀ generation stage, task ≠ .restoring generation stage) (answer : Answer) :
    (resume host q task answer).getD q = q := by
  cases task with
  | dispatch generation item api stage =>
    have hne : generation ≠ q.generation := hpast
    cases stage <;> cases answer <;> simp [resume, hne]
  | interrupt generation threadId token api stage =>
    have hne : generation ≠ q.generation := hpast
    cases stage <;> cases answer <;> simp [resume, current, hne]
  | restoring generation stage => exact absurd rfl (hrestoring generation stage)

theorem step_past {n : Nat} {task : Task} (hn : q.pending[n]? = some task)
    (hpast : task.generation ≠ q.generation)
    (hrestoring : ∀ generation stage, task ≠ .restoring generation stage) (answer : Answer) :
    ∃ pending, step host q (.resume n answer) = { q with pending } := by
  obtain ⟨q₁, hq₁⟩ : ∃ q₁ : MessageQueue, q₁ = { q with pending := q.pending.eraseIdx n } :=
    ⟨_, rfl⟩
  have hgeneration : q₁.generation = q.generation := by rw [hq₁]
  have hresume : (resume host q₁ task answer).getD q₁ = q₁ :=
    resume_past (hgeneration ▸ hpast) hrestoring answer
  rw [step, hn]
  dsimp only
  rw [← hq₁]
  cases hresumed : resume host q₁ task answer with
  | none => exact ⟨q.pending, rfl⟩
  | some q' =>
    rw [hresumed] at hresume
    exact ⟨_, hresume.trans hq₁⟩

/-- **One prompt of a thread at a time.** In every state of a run of a new queue in which given ids
are new: a thread has one operation at most; of the prompts that are under way, no two are of one
thread, and the thread of each has an operation; what a dispatch or an interruption of another
generation still waits for changes nothing but the list of what is waited for; and the storage
names each message once again, for the next run. -/
theorem single_flight {storage : String → Option (List (Option SavedMessage))}
    (hsaved : Distinct storage) (inputs : List Input)
    (hfresh : (machine host).Meets Fresh { storage } inputs) :
    let q := ((machine host).run { storage } inputs).1
    (q.operations.map (·.2)).Nodup ∧ q.prompted.Nodup ∧
      (∀ threadId ∈ q.prompted, threadId ∈ q.operations.map (·.2)) ∧
      (∀ n task answer, q.pending[n]? = some task → task.generation ≠ q.generation →
        (∀ generation stage, task ≠ .restoring generation stage) →
          ∃ pending, step host q (.resume n answer) = { q with pending }) ∧
      Distinct q.storage := by
  intro q
  have hcompletes : ∀ (q : MessageQueue) input, Completes host Set.univ q input := by
    intro q input
    cases input with
    | enqueue => exact .inr trivial
    | _ => trivial
  have h : Ordered Set.univ [] none q := by
    refine run_ordered hsaved (Machine.Meets.and _ hfresh ?_)
    exact (machine host).meets_of_forall (fun input _ q => hcompletes q input) _
  have htasks : (q.sent.map (·.2)).Perm (q.operations.map (·.2)) := h.tasks.map _
  have hsub := prompted_sublist q.generation q.pending
  refine ⟨h.apart, hsub.nodup (htasks.nodup_iff.mpr h.apart), fun threadId hthread => ?_, ?_,
    h.stored⟩
  · exact htasks.subset (hsub.subset hthread)
  · exact fun n task answer hn hpast hrestoring => step_past hn hpast hrestoring answer

/-- While a message is prompted, the next one of its thread is not sent. -/
theorem single_flight_two :
    let q := ((machine plainHost).run {} [.sync connectedState (some ⟨false, false⟩),
      .enqueue "thread" "hi" false "first", .enqueue "thread" "you" false "second"]).1
    q.prompted = ["thread"] ∧ q.items.map (·.status) = [.sending, .queued] ∧ q.prompted.Nodup := by
  intro q
  have hfresh : (machine plainHost).Meets Fresh {} [.sync connectedState (some ⟨false, false⟩),
      .enqueue "thread" "hi" false "first", .enqueue "thread" "you" false "second"] := by
    refine ⟨trivial, ⟨?_, ⟨?_, ?_⟩, ?_⟩, ⟨?_, ⟨?_, ?_⟩, ?_⟩, trivial⟩ <;> decide
  obtain ⟨-, hnodup, -⟩ := single_flight distinct_empty _ hfresh
  exact ⟨by decide, by decide, hnodup⟩

end AxiomDesktop.MessageQueue
