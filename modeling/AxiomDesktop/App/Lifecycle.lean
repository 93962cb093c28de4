import AxiomDesktop.App.SessionStep

/-!
# The lifecycle invariant of the kernel

In every state the kernel reaches, the turn and the pending requests of a session agree with its
lifecycle, and no active turn has already ended (`SessionState.WellFormed`). The sequence numbers
of a run increase strictly as long as the 64-bit counter does not pass its largest value
(`Kernel.CounterFits`): the guard is needed, because a journal may carry any sequence number and
`wrapped_sequence_repeats` restores one whose last number is the largest but one.
-/

namespace AxiomDesktop

open Fallible

/-- The fields of a session that describe its turn agree. -/
structure SessionState.WellFormed (s : SessionState) : Prop where
  active : s.activeTurn.isSome ↔ s.lifecycle = .running ∨ s.lifecycle = .waitingForApproval ∨
    s.lifecycle = .waitingForAnswer
  permission : s.pendingPermission.isSome ↔ s.lifecycle = .waitingForApproval
  question : s.pendingQuestion.isSome ↔ s.lifecycle = .waitingForAnswer
  live : ∀ turnId, s.activeTurn = some turnId → turnId ∉ s.terminalTurns

/-! ## Sessions -/

theorem SessionState.wellFormed_opened (id : SessionId) (cwd : PathBuf) (origin : Origin)
    (profile : PermissionProfile) : (SessionState.opened id cwd origin profile).WellFormed := by
  constructor <;> simp [SessionState.opened]

theorem SessionState.wellFormed_resumed (s : SessionState) : s.resumed.WellFormed := by
  constructor <;> simp [SessionState.resumed]

theorem SessionState.wellFormed_finished (s : SessionState) (turnId : TurnId) :
    (s.finished turnId).WellFormed := by
  constructor <;> simp [SessionState.finished, SessionState.resumed]

/-- Every step of a session keeps its fields in agreement. -/
theorem SessionStep.wellFormed {id : SessionId} {before : Option SessionState}
    {events : List AppEvent} {s' : SessionState} (h : SessionStep id before events s')
    (hbefore : ∀ s, before = some s → s.WellFormed) : s'.WellFormed := by
  cases h with
  | created cwd origin profile | resumed cwd origin profile =>
    exact SessionState.wellFormed_opened id cwd origin profile
  | started s turnId events hready hfresh hsilent =>
    obtain ⟨_, hperm, hquest, _⟩ := hbefore s rfl
    exact
      { active := by simp
        permission := by rw [hperm, hready]; simp
        question := by rw [hquest, hready]; simp
        live := by rintro _ ⟨⟩; exact hfresh }
  | finished s turnId e hactive hflight hends => exact SessionState.wellFormed_finished s turnId
  | configured s settings hready | reprofiled s profile hready =>
    obtain ⟨hact, hperm, hquest, hlive⟩ := hbefore s rfl
    exact ⟨hact, hperm, hquest, hlive⟩
  | closed s hready =>
    obtain ⟨hact, hperm, hquest, hlive⟩ := hbefore s rfl
    exact
      { active := by rw [hact, hready]; simp
        permission := by rw [hperm, hready]; simp
        question := by rw [hquest, hready]; simp
        live := hlive }
  | permission s requestId explanation effect choices hrunning =>
    obtain ⟨hact, hperm, hquest, hlive⟩ := hbefore s rfl
    exact
      { active := by rw [hact, hrunning]; simp
        permission := by simp
        question := by rw [hquest, hrunning]; simp
        live := hlive }
  | permitted s requestId allowed choice hwaiting =>
    obtain ⟨hact, hperm, hquest, hlive⟩ := hbefore s rfl
    exact
      { active := by rw [hact, hwaiting]; simp
        permission := by simp
        question := by rw [hquest, hwaiting]; simp
        live := hlive }
  | asked s questionId e hrunning hasks =>
    obtain ⟨hact, hperm, hquest, hlive⟩ := hbefore s rfl
    exact
      { active := by rw [hact, hrunning]; simp
        permission := by rw [hperm, hrunning]; simp
        question := by simp
        live := hlive }
  | answered s e hwaiting hanswers =>
    obtain ⟨hact, hperm, hquest, hlive⟩ := hbefore s rfl
    exact
      { active := by rw [hact, hwaiting]; simp
        permission := by rw [hperm, hwaiting]; simp
        question := by simp
        live := hlive }
  | reported s events hsilent => exact hbefore _ rfl

/-- A completed restoration is of a session that resumes ready. -/
theorem RestoreProjection.project_resumed {events : List EventEnvelope}
    {restored : CompletedRestore} (h : project events = .ok restored) :
    ∃ s : SessionState, restored.state = s.resumed := by
  simp only [project, bind, Except.bind] at h
  split at h <;> try contradiction
  split at h <;> try contradiction
  rename_i p _
  simp only [finish] at h
  split at h
  · contradiction
  · cases h
    exact ⟨_, rfl⟩

namespace Kernel

/-- Every loaded session is well formed. -/
def WellFormed (k : Kernel) : Prop :=
  ∀ id s, k.sessions id = some s → s.WellFormed

theorem wellFormed_withServices (now : Nat → DateTime) : (withServices now).WellFormed := by
  intro id s h
  cases h

theorem WellFormed.withSession {k : Kernel} (hk : k.WellFormed) {id : SessionId}
    {s : SessionState} (hs : s.WellFormed) : (k.withSession id s).WellFormed := by
  intro other t h
  by_cases ho : other = id
  · subst ho
    simp only [Kernel.withSession, Function.update_self, Option.some.injEq] at h
    exact h ▸ hs
  · simp only [Kernel.withSession, Function.update_of_ne ho] at h
    exact hk other t h

theorem WellFormed.congr {k k' : Kernel} (hk : k.WellFormed) (h : k'.sessions = k.sessions) :
    k'.WellFormed := by
  intro id s hs
  exact hk id s (h ▸ hs)

/-- Every call keeps the loaded sessions well formed. -/
theorem WellFormed.step {k : Kernel} (hk : k.WellFormed) (call : KernelCall) :
    (machine.step k call).1.WellFormed := by
  rcases step_cases k call with h | ⟨request, rfl, h⟩ | ⟨id, _, _, e, recorded, rfl, h, _⟩ |
    ⟨events, s, rfl, h, _⟩
  · rw [h]
    exact hk
  · obtain ⟨s', events, hstep, hemit⟩ := apply_ok h
    exact (hk.withSession (hstep.wellFormed (hk _))).congr hemit.sessions
  · obtain ⟨s, s', hs, hstep, hemit⟩ := record_ok h
    refine WellFormed.congr (hk.withSession ?_) hemit.sessions
    rcases hstep with hstep | ⟨_, rfl⟩
    · exact hstep.wellFormed fun _ h => hk id _ (hs.trans h)
    · exact hk id _ hs
  · obtain ⟨restored, hproject, rfl, hk'⟩ := restoreFromEvents_ok h
    obtain ⟨s, hs⟩ := RestoreProjection.project_resumed hproject
    rw [hk', hs]
    exact (hk.withSession s.wellFormed_resumed).congr rfl

/-! ## Sequence numbers -/

/-- The envelopes a call emits take the counter no further than its largest value. -/
def CounterFits (k : Kernel) (call : KernelCall) : Prop :=
  k.nextSequence.toNat + (machine.step k call).2.length < 2 ^ 64

instance (k : Kernel) (call : KernelCall) : Decidable (CounterFits k call) :=
  inferInstanceAs (Decidable (_ < _))

theorem toNat_succ {n : UInt64} (h : n.toNat + 1 < 2 ^ 64) : (n + 1).toNat = n.toNat + 1 := by
  rw [UInt64.toNat_add, UInt64.toNat_one, Nat.mod_eq_of_lt h]

/-- Numbers that follow a counter that does not wrap increase strictly, above the counter's old
value and up to its new one. -/
theorem Follows.increasing {n m : UInt64} {xs : List UInt64} (h : Follows n xs m)
    (hfits : n.toNat + xs.length < 2 ^ 64) :
    xs.Pairwise (· < ·) ∧ (∀ x ∈ xs, n < x ∧ x ≤ m) ∧ n ≤ m := by
  induction xs generalizing n with
  | nil =>
    cases h
    simp
  | cons x xs ih =>
    obtain ⟨rfl, h⟩ := h
    rw [List.length_cons] at hfits
    have hsucc : (n + 1).toNat = n.toNat + 1 := toNat_succ (by omega)
    have hlt : n < n + 1 := by rw [UInt64.lt_iff_toNat_lt]; omega
    obtain ⟨hsorted, hbounds, hle⟩ := ih h (by omega)
    refine ⟨List.pairwise_cons.mpr ⟨fun y hy => (hbounds y hy).1, hsorted⟩, ?_,
      UInt64.le_of_lt (UInt64.lt_of_lt_of_le hlt hle)⟩
    intro y hy
    rcases List.mem_cons.mp hy with rfl | hy
    · exact ⟨hlt, hle⟩
    · exact ⟨UInt64.lt_trans hlt (hbounds y hy).1, (hbounds y hy).2⟩

theorem le_max_counter (n m : UInt64) : n ≤ max n m := by
  show n ≤ if n ≤ m then m else n
  split
  · assumption
  · exact UInt64.le_refl n

/-- A call numbers what it emits from the counter on, or emits nothing and does not take the
counter back. -/
theorem step_numbered (k : Kernel) (call : KernelCall) :
    Follows k.nextSequence ((machine.step k call).2.map (·.sequence))
        (machine.step k call).1.nextSequence ∨
      (machine.step k call).2 = [] ∧ k.nextSequence ≤ (machine.step k call).1.nextSequence := by
  rcases step_cases k call with h | ⟨request, rfl, h⟩ | ⟨id, _, _, e, recorded, rfl, h, hout⟩ |
    ⟨events, s, rfl, h, hout⟩
  · rw [h]
    exact .inl rfl
  · obtain ⟨s', events, _, hemit⟩ := apply_ok h
    exact .inl hemit.numbered
  · obtain ⟨s, s', _, _, hemit⟩ := record_ok h
    rw [hout]
    exact .inl hemit.numbered
  · obtain ⟨restored, _, _, hk'⟩ := restoreFromEvents_ok h
    refine .inr ⟨hout, ?_⟩
    rw [hk']
    exact le_max_counter _ _

/-- The numbers emitted so far increase strictly and the counter is at or above all of them. -/
theorem sequences_increasing (k : Kernel) (calls : List KernelCall)
    (hfits : machine.Meets CounterFits k calls) :
    ((machine.run k calls).2.map (·.sequence)).Pairwise (· < ·) ∧
      ∀ x ∈ (machine.run k calls).2.map (·.sequence), x ≤ (machine.run k calls).1.nextSequence := by
  refine machine.run_induction
    (motive := fun _ emitted k' => (emitted.map (·.sequence)).Pairwise (· < ·) ∧
      ∀ x ∈ emitted.map (·.sequence), x ≤ k'.nextSequence) ⟨by simp, by simp⟩ ?_ calls hfits
  intro _ emitted k' call ⟨hsorted, hbelow⟩ hfit
  rcases step_numbered k' call with hnew | ⟨hnone, hle⟩
  · obtain ⟨hnew, hbounds, hle⟩ := hnew.increasing (by simpa [CounterFits] using hfit)
    rw [List.map_append, List.pairwise_append]
    refine ⟨⟨hsorted, hnew, fun x hx y hy => ?_⟩, fun x hx => ?_⟩
    · exact UInt64.lt_of_le_of_lt (hbelow x hx) (hbounds y hy).1
    · rcases List.mem_append.mp hx with hx | hx
      · exact UInt64.le_trans (hbelow x hx) hle
      · exact (hbounds x hx).2
  · rw [hnone, List.append_nil]
    exact ⟨hsorted, fun x hx => UInt64.le_trans (hbelow x hx) hle⟩

/-- **The lifecycle invariant.** At the end of every run of the kernel the loaded sessions are
well formed and a call that is rejected leaves the kernel as it was; the numbers the run emitted
increase strictly, if the counter never passed its largest value. -/
theorem lifecycle_invariant (now : Nat → DateTime) (calls : List KernelCall) :
    (machine.run (withServices now) calls).1.WellFormed ∧
      (∀ (call : KernelCall) e k',
        call.run.exec (machine.run (withServices now) calls).1 = (.error e, k') →
        k' = (machine.run (withServices now) calls).1) ∧
      (machine.Meets CounterFits (withServices now) calls →
        ((machine.run (withServices now) calls).2.map (·.sequence)).Pairwise (· < ·)) :=
  ⟨machine.run_invariant' (P := Kernel.WellFormed) (fun _ call hk => WellFormed.step hk call)
      (wellFormed_withServices now) calls,
    fun call e k' h => call.clean_run _ e k' h,
    fun hfits => (sequences_increasing _ calls hfits).1⟩

/-- A clock that always reads the same instant. -/
def stillClock : Nat → DateTime := fun _ => ⟨"", "", ""⟩

/-- A session restored from a journal that ends with the largest number but one, and two changes
of its thinking level. -/
def wrappingCalls : List KernelCall :=
  let change := AppCommand.changeThinkingLevel ⟨1⟩ .high
  [ .restoreFromEvents
      [⟨1, 0xfffffffffffffffe, stillClock 0, ⟨0⟩, .test, ⟨1⟩, .sessionCreated "/w" .test .confirm⟩],
    .apply ⟨⟨0⟩, .test, false, change⟩,
    .apply ⟨⟨0⟩, .test, false, change⟩ ]

/-- Without the guard the numbers do not increase: the second change is emitted with number
zero. -/
theorem wrapped_sequence_repeats :
    ¬(((machine.run (withServices stillClock) wrappingCalls).2.map
        (·.sequence)).Pairwise (· < ·)) := by
  decide

/-- The invariant of a run that starts a turn. -/
theorem lifecycle_invariant_turn :
    ((machine.run (withServices stillClock)
      [.apply ⟨⟨0⟩, .test, false, .createSession ⟨1⟩ "/w" .test .confirm⟩,
       .apply ⟨⟨0⟩, .test, false, .submitPrompt ⟨1⟩ ⟨2⟩ "hi" []⟩]).2.map
        (·.sequence)).Pairwise (· < ·) :=
  (lifecycle_invariant stillClock _).2.2 (by decide)

end Kernel

end AxiomDesktop
