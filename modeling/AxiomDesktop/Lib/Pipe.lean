import AxiomDesktop.Lib.Machine

/-!
# A bounded channel between a producer and a loop

A producer sends a list of values through a channel of bounded size. A loop receives them, updates
its own state with each and passes it on; when it sees that the producer has returned it drains the
channel. Either the update or the passing on may fail, and then the loop stops.

`Pipe.passed` is the law of the component: under every interleaving, what was passed on is a prefix
of what the producer sends, in its order, and all of it once the channel is drained.
-/

namespace AxiomDesktop

universe u

namespace Pipe

/-- Where the loop stands. -/
inductive Phase (ε : Type u) where
  | looping
  | draining
  | drained
  | failed (error : ε)

/-- A step of the producer or of the loop. -/
inductive Move (ε : Type u) where
  | send
  /-- The loop sees that the producer has returned. -/
  | returns
  /-- The loop takes the next value, and passes it on as far as its receiver allows. -/
  | receive (passed : Except ε PUnit)
  /-- The loop finds the channel empty. -/
  | empty

end Pipe

/-- The producer's values, the channel, and the loop. -/
structure Pipe (α σ ε : Type u) where
  remaining : List α
  queue : List α := []
  state : σ
  phase : Pipe.Phase ε := .looping

namespace Pipe

variable {α σ ε : Type u}

/-- The loop takes a value. -/
def receiving (update : σ → α → Except ε σ) (s : Pipe α σ ε) (passed : Except ε PUnit) :
    Pipe α σ ε × List α :=
  match s.queue with
  | [] => (s, [])
  | a :: queue =>
    match update s.state a, passed with
    | .ok state, .ok _ => ({ s with queue, state }, [a])
    | .ok _, .error error | .error error, _ => ({ s with queue, phase := .failed error }, [])

/-- One move. A move that is not possible changes nothing. -/
def step (capacity : Nat) (update : σ → α → Except ε σ) (s : Pipe α σ ε) :
    Move ε → Pipe α σ ε × List α
  | .send =>
    match s.phase, s.remaining with
    | .looping, a :: remaining =>
      if s.queue.length < capacity then ({ s with remaining, queue := s.queue ++ [a] }, [])
      else (s, [])
    | _, _ => (s, [])
  | .returns =>
    match s.phase, s.remaining with
    | .looping, [] => ({ s with phase := .draining }, [])
    | _, _ => (s, [])
  | .receive passed =>
    match s.phase with
    | .looping | .draining => s.receiving update passed
    | _ => (s, [])
  | .empty =>
    match s.phase, s.queue with
    | .draining, [] => ({ s with phase := .drained }, [])
    | _, _ => (s, [])

/-- The component over its moves; what it passes on are its outputs. -/
def machine (capacity : Nat) (update : σ → α → Except ε σ) : Machine (Pipe α σ ε) (Move ε) α where
  step := step capacity update

variable {capacity : Nat} {update : σ → α → Except ε σ} {values out : List α} {start : σ}
  {s : Pipe α σ ε}

/-- What a run keeps. -/
structure Kept (update : σ → α → Except ε σ) (values : List α) (start : σ) (out : List α)
    (s : Pipe α σ ε) : Prop where
  conserve : (∀ error, s.phase ≠ .failed error) → out ++ s.queue ++ s.remaining = values
  inOrder : out <+: values
  updated : out.foldlM update start = .ok s.state
  returned : s.phase = .draining → s.remaining = []
  drained : s.phase = .drained → s.remaining = [] ∧ s.queue = []

theorem Kept.receiving (h : Kept update values start out s)
    (hphase : s.phase = .looping ∨ s.phase = .draining) (passed : Except ε PUnit) :
    Kept update values start (out ++ (s.receiving update passed).2)
      (s.receiving update passed).1 := by
  have hconserve := h.conserve fun error hfailed => by
    rcases hphase with hphase | hphase <;> cases hphase.symm.trans hfailed
  unfold Pipe.receiving
  split
  · rw [List.append_nil]
    exact h
  · next a queue hqueue =>
    rw [hqueue] at hconserve
    have hfailed (error : ε) : Kept update values start (out ++ [])
        { s with queue, phase := .failed error } := by
      rw [List.append_nil]
      exact ⟨fun hsound => absurd rfl (hsound error), h.inOrder, h.updated, nofun, nofun⟩
    split
    · next state _ _ hstate =>
      refine ⟨fun _ => ?_, ?_, ?_, h.returned, fun hdrained => ?_⟩
      · simpa using hconserve
      · exact ⟨queue ++ s.remaining, by simpa using hconserve⟩
      · rw [List.foldlM_append, h.updated]
        show [a].foldlM update s.state = _
        rw [List.foldlM_cons, hstate]
        rfl
      · rcases hphase with hphase | hphase <;> cases hphase.symm.trans hdrained
    · exact hfailed _
    · exact hfailed _

theorem Kept.step (h : Kept update values start out s) (move : Move ε) :
    Kept update values start (out ++ (step capacity update s move).2)
      (step capacity update s move).1 := by
  have hidle : Kept update values start (out ++ []) s := by
    rw [List.append_nil]
    exact h
  cases move with
  | send =>
    simp only [Pipe.step]
    split
    · next a remaining hphase hremaining =>
      split
      · have hconserve := h.conserve fun error hfailed => by cases hphase.symm.trans hfailed
        rw [hremaining] at hconserve
        rw [List.append_nil]
        refine ⟨fun _ => ?_, h.inOrder, h.updated, fun hdraining => ?_, fun hdrained => ?_⟩
        · simpa using hconserve
        · cases hphase.symm.trans hdraining
        · cases hphase.symm.trans hdrained
      · exact hidle
    · exact hidle
  | returns =>
    simp only [Pipe.step]
    split
    · next hphase hremaining =>
      rw [List.append_nil]
      have hsound (error : ε) : s.phase ≠ .failed error := by simp [hphase]
      exact ⟨fun _ => h.conserve hsound, h.inOrder, h.updated, fun _ => hremaining, nofun⟩
    · exact hidle
  | receive passed =>
    simp only [Pipe.step]
    split
    · next hphase => exact h.receiving (.inl hphase) passed
    · next hphase => exact h.receiving (.inr hphase) passed
    · exact hidle
  | empty =>
    simp only [Pipe.step]
    split
    · next hphase hqueue =>
      rw [List.append_nil]
      have hsound (error : ε) : s.phase ≠ .failed error := by simp [hphase]
      exact ⟨fun _ => h.conserve hsound, h.inOrder, h.updated, nofun,
        fun _ => ⟨h.returned hphase, hqueue⟩⟩
    · exact hidle

/-- What every run keeps. -/
theorem kept (capacity : Nat) (update : σ → α → Except ε σ) (values : List α) (start : σ)
    (moves : List (Move ε)) :
    let run := (machine capacity update).run { remaining := values, state := start } moves
    Kept update values start run.2 run.1 :=
  (machine capacity update).run_induction (C := fun _ _ => True)
    (motive := fun _ out s => Kept update values start out s)
    (s := { remaining := values, state := start })
    ⟨fun _ => rfl, List.nil_prefix, rfl, nofun, nofun⟩ (fun _ _ _ move h _ => h.step move) moves
    ((machine capacity update).meets_of_forall (fun _ _ _ => trivial) _)

/-- **What is passed on.** A prefix of the producer's values, in their order; all of them once the
channel is drained, and the loop's state is then the one that all of them make. -/
theorem passed (capacity : Nat) (update : σ → α → Except ε σ) (values : List α) (start : σ)
    (moves : List (Move ε)) :
    let run := (machine capacity update).run { remaining := values, state := start } moves
    run.2 <+: values ∧ (run.1.phase = .drained →
      run.2 = values ∧ values.foldlM update start = .ok run.1.state) := by
  have hkept := kept capacity update values start moves
  refine ⟨hkept.inOrder, fun hdrained => ?_⟩
  obtain ⟨hremaining, hqueue⟩ := hkept.drained hdrained
  have hconserve := hkept.conserve fun error hfailed => by cases hdrained.symm.trans hfailed
  rw [hremaining, hqueue, List.append_nil, List.append_nil] at hconserve
  refine ⟨hconserve, ?_⟩
  rw [← hkept.updated, hconserve]

end Pipe

end AxiomDesktop
