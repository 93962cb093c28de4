import AxiomDesktop.Desktop.ProxySupervisor
import AxiomDesktop.Lib.Table

/-!
# The local proxy has the account it was launched for

What a supervisor keeps in every order of calls, launches and events of children
(`ProxySupervisor.Holds`): the one child that it has is of its generation, and every other child was
asked to terminate or has exited. A call of `stop`, of `dispose`, or of `setAccount` with another
context begins a generation, so that no child before it is owned again (`proxy_owned`).
-/

namespace AxiomDesktop

/-- What becomes of a child: what it was launched with stays, and it is not taken back what was
asked of it, or what it did. -/
structure ProxyChild.Later (c c' : ProxyChild) : Prop where
  port : c'.port = c.port
  account : c'.accountId = c.accountId
  runtime : c'.runtimeId = c.runtimeId
  token : c'.token = c.token
  generation : c'.generation = c.generation
  attached : c'.attached = c.attached
  asked : c.asked → c'.asked
  exited : c.exited → c'.exited
  ready : c.ready → c'.ready

/-- The child that an input is an event of. -/
def ProxyInput.child? : ProxyInput → Option Nat
  | .stdout child _ | .stderr child _ _ | .failed child | .timer child | .exited child |
    .closed child => some child
  | _ => none

/-- What is known of the past: which child reported that it is ready on which port, and a generation
that was reached, with the children that were launched before it. -/
structure ProxyPast where
  reported : Nat → Nat → Prop
  generation : Nat := 0
  launched : Nat := 0

namespace ProxySupervisor

variable {host : ProxyHost} {past : ProxyPast} {s s' : ProxySupervisor} {i : Nat}
  {c c' : ProxyChild} {task : StartTask} {input : ProxyInput}

/-- What a supervisor keeps in whatever context. -/
structure Kept (past : ProxyPast) (s : ProxySupervisor) : Prop where
  fresh : ∀ i, s.launched ≤ i → s.children i = none
  current : ∀ i, s.child = some i → ∃ c, s.children i = some c ∧ c.attached ∧
    c.generation = s.generation
  earlier : ∀ i c, s.children i = some c → c.generation ≤ s.generation
  left : ∀ i c, s.children i = some c → s.child = some i ∨ c.asked ∨ c.exited
  ready : ∀ i c, s.children i = some c → c.ready → past.reported i c.port
  running : s.state.status = .running → ∃ i c, s.child = some i ∧ s.children i = some c ∧ c.ready
  started : ∀ task, s.pendingStart = some task → task.generation ≤ s.generation
  reached : past.generation ≤ s.generation
  launched : past.launched ≤ s.launched
  before : ∀ i c, s.children i = some c → i < past.launched → c.generation < past.generation

/-- What a supervisor keeps. -/
structure Holds (past : ProxyPast) (s : ProxySupervisor) : Prop extends Kept past s where
  token : ∀ t, s.token = some t → ∃ i c, s.child = some i ∧ s.children i = some c ∧ c.token = t ∧
    c.asked = false ∧ c.closed = false ∧ s.context = some (c.accountId, c.runtimeId)
  account : ∀ task, s.pendingStart = some task → task.generation = s.generation →
    s.HasAccount task.accountId task.runtimeId
  unlaunched : ∀ task, s.pendingStart = some task → task.generation = s.generation →
    (∀ child, task.stage ≠ .waiting child) → s.child = none

/-! ## What the parts of a callback keep -/

theorem Holds.mono {more : Nat → Nat → Prop} (h : s.Holds past)
    (hmore : ∀ i port, past.reported i port → more i port) :
    s.Holds { past with reported := more } :=
  { h with ready := fun i c hc hready => hmore i c.port (h.ready i c hc hready) }

theorem Holds.publish {state : ProxyState} (h : s.Holds past)
    (hrunning : state.status = .running → ∃ i c, s.child = some i ∧ s.children i = some c ∧ c.ready) :
    (s.publish state).1.Holds past :=
  { h with running := hrunning }

theorem holds_initial (reported : Nat → Nat → Prop) :
    ({} : ProxySupervisor).Holds { reported } where
  fresh _ _ := rfl
  current _ hi := by cases hi
  earlier _ _ hc := by cases hc
  left _ _ hc := by cases hc
  ready _ _ hc := by cases hc
  running hrunning := by cases hrunning
  started _ htask := by cases htask
  reached := Nat.le_refl 0
  launched := Nat.le_refl 0
  before _ _ hc := by cases hc
  token _ ht := by cases ht
  account _ htask := by cases htask
  unlaunched _ htask := by cases htask

theorem Holds.dropToken (h : s.Holds past) : { s with token := none }.Holds past :=
  { h with token := fun _ ht => (by cases ht) }

theorem Holds.dropStart (h : s.Holds past) : { s with pendingStart := none }.Holds past :=
  { h with
    started := fun _ htask => (by cases htask)
    account := fun _ htask => (by cases htask)
    unlaunched := fun _ htask => (by cases htask) }

/-- The child is gone. -/
theorem Holds.dropChild {state : ProxyState} (h : s.Holds past)
    (hleft : ∀ i c, s.child = some i → s.children i = some c → c.asked ∨ c.exited)
    (hstatus : state.status ≠ .running) :
    ({ s with child := none, token := none }.publish state).1.Holds past :=
  { h with
    current := fun _ hi => (by cases hi)
    left := fun i c hc => .inr ((h.left i c hc).elim (fun hi => hleft i c hi hc) id)
    running := fun hrunning => absurd hrunning hstatus
    token := fun _ ht => (by cases ht)
    unlaunched := fun _ _ _ _ => rfl }

/-- A child becomes what it is later. -/
theorem Kept.update (h : s.Kept past) (hc : s.children i = some c) (hlater : c.Later c')
    (hready : c'.ready → past.reported i c'.port) :
    { s with children := Function.update s.children i (some c') }.Kept past where
  fresh := by
    intro j hj
    have hne : j ≠ i := by
      rintro rfl
      cases (h.fresh j hj).symm.trans hc
    dsimp only
    rw [Function.update_of_ne hne]
    exact h.fresh j hj
  current := by
    intro j hj
    obtain ⟨cj, hcj, hattached, hgeneration⟩ := h.current j hj
    dsimp only
    by_cases hji : j = i
    · subst hji
      cases hc.symm.trans hcj
      exact ⟨c', Function.update_self .., hlater.attached.trans hattached,
        hlater.generation.trans hgeneration⟩
    · exact ⟨cj, (Function.update_of_ne hji ..).trans hcj, hattached, hgeneration⟩
  earlier := Table.forall_update h.earlier (by rw [hlater.generation]; exact h.earlier i c hc)
  left := Table.forall_update h.left
    ((h.left i c hc).imp_right (Or.imp hlater.asked hlater.exited))
  ready := Table.forall_update h.ready hready
  running := by
    intro hrunning
    obtain ⟨j, cj, hj, hcj, hjready⟩ := h.running hrunning
    dsimp only
    by_cases hji : j = i
    · subst hji
      cases hc.symm.trans hcj
      exact ⟨j, c', hj, Function.update_self .., hlater.ready hjready⟩
    · exact ⟨j, cj, hj, (Function.update_of_ne hji ..).trans hcj, hjready⟩
  started := h.started
  reached := h.reached
  launched := h.launched
  before := Table.forall_update h.before (by rw [hlater.generation]; exact h.before i c hc)

/-- A child becomes what it is later, and is not asked to terminate or closed where there is a token
of it. -/
theorem Holds.update (h : s.Holds past) (hc : s.children i = some c) (hlater : c.Later c')
    (hready : c'.ready → past.reported i c'.port)
    (hkept : s.child = some i → s.token ≠ none → c'.asked = c.asked ∧ c'.closed = c.closed) :
    { s with children := Function.update s.children i (some c') }.Holds past where
  toKept := h.toKept.update hc hlater hready
  token := by
    intro t ht
    obtain ⟨j, cj, hj, hcj, htoken, hasked, hclosed, hcontext⟩ := h.token t ht
    dsimp only
    by_cases hji : j = i
    · subst hji
      cases hc.symm.trans hcj
      obtain ⟨hsame, hsame'⟩ := hkept hj (by rw [ht]; exact Option.some_ne_none t)
      refine ⟨j, c', hj, Function.update_self .., hlater.token.trans htoken, hsame.trans hasked,
        hsame'.trans hclosed, ?_⟩
      rw [hlater.account, hlater.runtime]
      exact hcontext
    · exact ⟨j, cj, hj, (Function.update_of_ne hji ..).trans hcj, htoken, hasked, hclosed, hcontext⟩
  account := h.account
  unlaunched := h.unlaunched

/-- A child that is asked to terminate. -/
theorem later_asked (c : ProxyChild) : c.Later { c with asked := true } :=
  ⟨rfl, rfl, rfl, rfl, rfl, rfl, fun _ => rfl, id, id⟩

/-- What `terminate` leaves. -/
structure Terminated (child : Nat) (s s' : ProxySupervisor) : Prop where
  children : ∀ i c', s'.children i = some c' → ∃ c, s.children i = some c ∧ c.Later c' ∧
    c'.ready = c.ready ∧ (i ≠ child → c' = c) ∧ (i = child → c'.asked ∨ c'.exited)
  absent : ∀ i, s.children i = none → s'.children i = none
  rest : s' = { s with children := s'.children }

theorem later_refl (c : ProxyChild) : c.Later c := ⟨rfl, rfl, rfl, rfl, rfl, rfl, id, id, id⟩

theorem terminated_terminate (s : ProxySupervisor) (child : Nat) :
    Terminated child s (s.terminate child).1 := by
  unfold terminate
  split
  · next hnone =>
    refine ⟨fun i c' hc' => ⟨c', hc', later_refl c', rfl, fun _ => rfl, ?_⟩, fun _ h => h, rfl⟩
    rintro rfl
    cases hnone.symm.trans hc'
  · next c hc =>
    split
    · next hexited =>
      refine ⟨fun i c' hc' => ⟨c', hc', later_refl c', rfl, fun _ => rfl, ?_⟩, fun _ h => h, rfl⟩
      rintro rfl
      cases hc.symm.trans hc'
      exact .inr hexited
    · refine ⟨?_, fun i hi => ?_, rfl⟩
      · intro i c' hc'
        dsimp only at hc'
        by_cases hi : i = child
        · subst hi
          rw [Function.update_self] at hc'
          cases hc'
          exact ⟨c, hc, later_asked c, rfl, fun h => absurd rfl h, fun _ => .inl rfl⟩
        · rw [Function.update_of_ne hi] at hc'
          exact ⟨c', hc', later_refl c', rfl, fun _ => rfl, fun h => absurd h hi⟩
      · dsimp only
        rw [Function.update_of_ne]
        · exact hi
        · rintro rfl
          cases hi.symm.trans hc

/-- What a call of `stop` leaves before it waits. -/
structure Stopped (s s' : ProxySupervisor) : Prop where
  children : ∀ i c', s'.children i = some c' → ∃ c, s.children i = some c ∧ c.Later c' ∧
    c'.ready = c.ready ∧ (s.child = some i → c'.asked ∨ c'.exited)
  absent : ∀ i, s.children i = none → s'.children i = none
  generation : s'.generation = s.generation + 1
  child : s'.child = none
  token : s'.token = none
  status : s'.state.status = .running → s.child = none ∧ s.state.status = .running
  context : s'.context = s.context
  disposed : s'.disposed = s.disposed
  pendingStart : s'.pendingStart = s.pendingStart
  launched : s'.launched = s.launched

theorem stopped_stopNow (s : ProxySupervisor) : Stopped s s.stopNow.1 := by
  unfold stopNow
  split
  · next hnone =>
    refine ⟨fun i c' hc' => ⟨c', hc', later_refl c', rfl, ?_⟩, fun _ h => h, rfl, rfl, rfl,
      fun h => ⟨hnone, h⟩, rfl, rfl, rfl, rfl⟩
    rintro h
    cases hnone.symm.trans h
  · next child hchild =>
    dsimp only
    generalize hcleared : publish _ _ = cleared
    have ht := terminated_terminate cleared.1 child
    subst hcleared
    refine ⟨?_, ht.absent, ?_, ?_, ?_, ?_, ?_, ?_, ?_, ?_⟩
    · intro i c' hc'
      obtain ⟨c, hc, hlater, hready, -, hasked⟩ := ht.children i c' hc'
      refine ⟨c, hc, hlater, hready, fun h => hasked ?_⟩
      exact Option.some.inj (h.symm.trans hchild)
    · rw [ht.rest]; rfl
    · rw [ht.rest]; rfl
    · rw [ht.rest]; rfl
    · rw [ht.rest]
      intro h
      cases h
    all_goals rw [ht.rest]; rfl

theorem Stopped.kept (h : Stopped s s') (hs : s.Kept past) :
    s'.Kept past where
  fresh i hi := h.absent i (hs.fresh i (h.launched ▸ hi))
  current i hi := by cases h.child.symm.trans hi
  earlier := by
    intro i c' hc'
    obtain ⟨c, hc, hlater, -⟩ := h.children i c' hc'
    rw [hlater.generation, h.generation]
    exact Nat.le_succ_of_le (hs.earlier i c hc)
  left := by
    intro i c' hc'
    obtain ⟨c, hc, hlater, -, hasked⟩ := h.children i c' hc'
    rcases hs.left i c hc with hcurrent | hleft
    · exact .inr (hasked hcurrent)
    · exact .inr (hleft.imp hlater.asked hlater.exited)
  ready := by
    intro i c' hc' hready
    obtain ⟨c, hc, hlater, hsame, -⟩ := h.children i c' hc'
    rw [hlater.port]
    exact hs.ready i c hc (hsame ▸ hready)
  running := by
    intro hrunning
    obtain ⟨hnone, hrunning⟩ := h.status hrunning
    obtain ⟨i, c, hi, -⟩ := hs.running hrunning
    cases hnone.symm.trans hi
  started task htask := by
    rw [h.pendingStart] at htask
    rw [h.generation]
    exact Nat.le_succ_of_le (hs.started task htask)
  reached := h.generation ▸ Nat.le_succ_of_le hs.reached
  launched := h.launched ▸ hs.launched
  before := by
    intro i c' hc' hi
    obtain ⟨c, hc, hlater, -⟩ := h.children i c' hc'
    rw [hlater.generation]
    exact hs.before i c hc hi

theorem Stopped.holds (h : Stopped s s') (hs : s.Kept past) :
    s'.Holds past where
  toKept := h.kept hs
  token t ht := by cases h.token.symm.trans ht
  account task htask hgeneration := by
    have := hs.started task (h.pendingStart ▸ htask)
    rw [h.generation] at hgeneration
    omega
  unlaunched _ _ _ _ := h.child

theorem Kept.stopNow (h : s.Kept past) : s.stopNow.1.Holds past :=
  (stopped_stopNow s).holds h

theorem Holds.rejectStart (h : s.Holds past) (htask : s.pendingStart = some task) :
    (s.rejectStart task).1.Holds past := by
  unfold ProxySupervisor.rejectStart
  split
  · next hgeneration =>
    have hstopped := stopped_stopNow s
    have hnext := hstopped.holds h.toKept
    refine { hnext with started := ?_, account := ?_, unlaunched := fun _ _ _ _ => hstopped.child }
    · rintro task' ⟨⟩
      exact Nat.le_refl _
    · rintro task' ⟨⟩ -
      obtain ⟨hdisposed, hcontext⟩ := h.account task htask hgeneration
      exact ⟨hstopped.disposed.trans hdisposed, hstopped.context.trans hcontext⟩
  · exact h.dropStart

/-! ## What the events of a child keep -/

theorem Holds.failChild (h : s.Holds past) (hc : s.children i = some c) (out err message : String) :
    (s.failChild i { c with stdout := out, stderr := err } message).1.Holds past := by
  unfold ProxySupervisor.failChild
  dsimp only
  split
  · have hfailed : ({ s with token := none }.publish
        { s.state with status := .failed, baseUrl := none, error := some message }).1.Holds past :=
      h.dropToken.publish (fun hrunning => (by cases hrunning))
    have hlater : c.Later { c with
        stdout := out
        stderr := err
        timing := false
        settled := some (c.settled.getD false)
        asked := true } :=
      ⟨rfl, rfl, rfl, rfl, rfl, rfl, fun _ => rfl, id, id⟩
    exact hfailed.update hc hlater (fun hready => h.ready i c hc hready)
      (fun _ htoken => absurd rfl htoken)
  · exact h.update hc ⟨rfl, rfl, rfl, rfl, rfl, rfl, id, id, id⟩
      (fun hready => h.ready i c hc hready) (fun _ _ => ⟨rfl, rfl⟩)

/-- What a child has written begins with the line that it is ready. -/
def ReadyLine (host : ProxyHost) (c : ProxyChild) (chunk : String) : Prop :=
  ∃ line rest data, splitLine (c.stdout ++ chunk).toList = some (line, rest) ∧
    host.parse (String.ofList line) = some data ∧ reportsReady c.port data = true

theorem Holds.readStdout {chunk : String} (h : s.Holds past) (hc : s.children i = some c)
    (howns : s.Owns i c) (hreported : ReadyLine host c chunk → past.reported i c.port) :
    (s.readStdout host i c chunk).1.Holds past := by
  unfold ProxySupervisor.readStdout
  dsimp only
  split
  · exact h.failChild hc _ _ _
  · split
    · exact h.update hc ⟨rfl, rfl, rfl, rfl, rfl, rfl, id, id, id⟩
        (fun hready => h.ready i c hc hready) (fun _ _ => ⟨rfl, rfl⟩)
    · next line rest hline =>
      split
      · exact h.failChild hc _ _ _
      · next data hdata =>
        split
        · exact h.failChild hc _ _ _
        · next hrejected =>
          have hready : reportsReady c.port data = true := by
            by_contra hnot
            exact hrejected (.inr (.inl hnot))
          refine Holds.publish (h.update hc ⟨rfl, rfl, rfl, rfl, rfl, rfl, id, id, fun _ => rfl⟩
            (fun _ => hreported ⟨line, rest, data, hline, hdata, hready⟩) (fun _ _ => ⟨rfl, rfl⟩)) ?_
          exact fun _ => ⟨i, _, howns.1, Function.update_self .., rfl⟩

theorem acceptMetadata_status {now : Nat} {data : Json} {state state' : ProxyState}
    (h : acceptMetadata host now data state = some state') : state'.status = state.status := by
  unfold acceptMetadata at h
  dsimp only at h
  split at h
  · obtain ⟨evidence, -, rfl⟩ := Option.map_eq_some_iff.mp h
    rfl
  · obtain ⟨⟨requestId, tokens⟩, -, rfl⟩ := Option.map_eq_some_iff.mp h
    rfl
  · obtain ⟨kind, -, rfl⟩ := Option.map_eq_some_iff.mp h
    rfl
  · obtain ⟨kind, -, rfl⟩ := Option.map_eq_some_iff.mp h
    rfl
  · cases h

theorem Holds.readLines {now : Nat} {lines : List (List Char)} (h : s.Holds past) :
    (readLines host now lines s).1.Holds past := by
  induction lines generalizing s with
  | nil => exact h
  | cons line lines ih =>
    rw [ProxySupervisor.readLines]
    refine ih ?_
    split
    · next state hstate =>
      obtain ⟨data, -, haccepted⟩ := Option.bind_eq_some_iff.mp hstate
      refine h.publish fun hrunning => h.running ?_
      rw [← acceptMetadata_status haccepted]
      exact hrunning
    · exact h

theorem Holds.readStderr {chunk : String} {now : Nat} (h : s.Holds past)
    (hc : s.children i = some c) : (s.readStderr host i c chunk now).1.Holds past := by
  unfold ProxySupervisor.readStderr
  dsimp only
  split
  · exact h.failChild hc _ _ _
  · refine Holds.readLines (h.update hc ⟨rfl, rfl, rfl, rfl, rfl, rfl, id, id, id⟩
      (fun hready => h.ready i c hc hready) (fun _ _ => ⟨rfl, rfl⟩))

theorem Holds.closeChild (h : s.Holds past) (hc : s.children i = some c) (hexited : c.exited) :
    (s.closeChild i c).1.Holds past := by
  unfold ProxySupervisor.closeChild
  dsimp only
  split
  · next howns =>
    have hlater : c.Later { c with
        closed := true
        timing := false
        settled := if c.ready then c.settled else some (c.settled.getD false) } :=
      ⟨rfl, rfl, rfl, rfl, rfl, rfl, id, id, id⟩
    refine Holds.dropChild (h.dropToken.update hc hlater (fun hready => h.ready i c hc hready)
      (fun _ htoken => absurd rfl htoken)) ?_ ProxyStatus.noConfusion
    intro j cj hj hcj
    obtain rfl : i = j := Option.some.inj (howns.1.symm.trans hj)
    cases (Function.update_self ..).symm.trans hcj
    exact .inr hexited
  · next hnot =>
    refine h.update hc ⟨rfl, rfl, rfl, rfl, rfl, rfl, id, id, id⟩
      (fun hready => h.ready i c hc hready) (fun hchild _ => ?_)
    obtain ⟨c₀, hc₀, -, hgeneration⟩ := h.current i hchild
    cases hc.symm.trans hc₀
    exact absurd ⟨hchild, hgeneration⟩ hnot

/-! ## What a callback keeps -/

theorem Holds.call (h : s.Holds past) : (s.call input).1.Holds past := by
  cases input with
  | setAccount accountId runtimeId =>
    dsimp only [ProxySupervisor.call]
    split
    · exact h
    · have hkept : { s with context := contextOf accountId runtimeId }.Kept past :=
        { h.toKept with }
      exact hkept.stopNow.publish (fun hrunning => (by cases hrunning))
  | copyToken accountId runtimeId =>
    dsimp only [ProxySupervisor.call]
    split
    · split <;> exact h
    · exact h
  | start port accountId runtimeId =>
    dsimp only [ProxySupervisor.call]
    split
    · next hstart =>
      have hstopped := stopped_stopNow s
      refine { hstopped.holds h.toKept with
        started := ?_, account := ?_, unlaunched := fun _ _ _ _ => hstopped.child }
      · rintro task ⟨⟩
        exact Nat.le_refl _
      · rintro task ⟨⟩ -
        obtain ⟨hdisposed, hcontext⟩ := hstart.1
        exact ⟨hstopped.disposed.trans hdisposed, hstopped.context.trans hcontext⟩
    · exact h
  | stop => exact h.toKept.stopNow
  | dispose =>
    have hkept : { s with disposed := true }.Kept past := { h.toKept with }
    exact hkept.stopNow
  | _ => exact h

theorem Kept.launched_ne (h : s.Kept past) (hc : s.children i = some c) : i ≠ s.launched := by
  rintro rfl
  cases (h.fresh s.launched (Nat.le_refl _)).symm.trans hc

/-- A child that is launched is none of those that are there. -/
theorem Kept.update_launched (h : s.Kept past) (hc : s.children i = some c) :
    Function.update s.children s.launched (some c') i = some c := by
  rw [Function.update_of_ne (h.launched_ne hc)]
  exact hc

theorem Kept.fresh_launched (h : s.Kept past) (hi : s.launched + 1 ≤ i) :
    Function.update s.children s.launched (some c) i = none := by
  rw [Function.update_of_ne (by omega)]
  exact h.fresh i (by omega)

/-- A child is launched that the supervisor does not take. -/
theorem Holds.launchLeft (h : s.Holds past) (hgeneration : c.generation ≤ s.generation)
    (hready : c.ready = false) (hleft : c.asked ∨ c.exited) :
    { s with
      launched := s.launched + 1
      children := Function.update s.children s.launched (some c) }.Holds past :=
  { h with
    fresh := fun i hi => h.fresh_launched hi
    current := fun i hi => by
      obtain ⟨ci, hci, hrest⟩ := h.current i hi
      exact ⟨ci, h.update_launched hci, hrest⟩
    earlier := Table.forall_update h.earlier hgeneration
    left := Table.forall_update h.left (.inr hleft)
    ready := Table.forall_update h.ready (fun hc => (by rw [hready] at hc; cases hc))
    running := fun hrunning => by
      obtain ⟨i, ci, hi, hci, hciready⟩ := h.running hrunning
      exact ⟨i, ci, hi, h.update_launched hci, hciready⟩
    launched := Nat.le_succ_of_le h.launched
    before := Table.forall_update h.before (fun hlt => absurd h.launched (Nat.not_le_of_lt hlt))
    token := fun t ht => by
      obtain ⟨i, ci, hi, hci, hrest⟩ := h.token t ht
      exact ⟨i, ci, hi, h.update_launched hci, hrest⟩ }

/-- A child is launched that the supervisor takes. -/
theorem Holds.launchTaken (h : s.Holds past) (htask : s.pendingStart = some task)
    (haccount : s.context = some (c.accountId, c.runtimeId)) (hgeneration : c.generation = s.generation)
    (hattached : c.attached) (hready : c.ready = false) (hasked : c.asked = false)
    (hclosed : c.closed = false) {token : String} (htoken : c.token = token)
    (hnone : s.child = none) :
    { s with
      launched := s.launched + 1
      children := Function.update s.children s.launched (some c)
      child := some s.launched
      token := some token
      pendingStart := some { task with stage := .waiting s.launched } }.Holds past where
  fresh := fun i hi => h.fresh_launched hi
  current := by
    rintro i ⟨⟩
    exact ⟨c, Function.update_self .., hattached, hgeneration⟩
  earlier := Table.forall_update h.earlier (Nat.le_of_eq hgeneration)
  left := by
    refine Table.forall_update (fun i ci hci => ?_) (.inl rfl)
    rcases h.left i ci hci with hi | hleft
    · cases hnone.symm.trans hi
    · exact .inr hleft
  ready := Table.forall_update h.ready (fun hc => (by rw [hready] at hc; cases hc))
  running hrunning := by
    obtain ⟨i, ci, hi, -⟩ := h.running hrunning
    cases hnone.symm.trans hi
  started := by
    rintro task' ⟨⟩
    exact h.started task htask
  reached := h.reached
  launched := Nat.le_succ_of_le h.launched
  before := Table.forall_update h.before (fun hlt => absurd h.launched (Nat.not_le_of_lt hlt))
  token := by
    rintro t ⟨⟩
    exact ⟨s.launched, c, rfl, Function.update_self .., htoken, hasked, hclosed, haccount⟩
  account := by
    rintro task' ⟨⟩ hsame
    exact h.account task htask hsame
  unlaunched := by
    rintro task' ⟨⟩ - hstage
    exact absurd rfl (hstage s.launched)

/-- The start goes on, and has no child yet. -/
theorem Holds.stage (h : s.Holds past) (htask : s.pendingStart = some task) {stage : StartStage}
    (hstage : ∀ child, task.stage ≠ .waiting child) :
    { s with pendingStart := some { task with stage } }.Holds past :=
  { h with
    started := by
      rintro task' ⟨⟩
      exact h.started task htask
    account := by
      rintro task' ⟨⟩ hsame
      exact h.account task htask hsame
    unlaunched := by
      rintro task' ⟨⟩ hsame -
      exact h.unlaunched task htask hsame hstage }

theorem terminate_update (s : ProxySupervisor) (i : Nat) (c : ProxyChild) :
    ({ s with children := Function.update s.children i (some c) }.terminate i).1 =
      { s with
        children := Function.update s.children i
          (some (if c.exited then c else { c with asked := true })) } := by
  unfold terminate
  dsimp only
  rw [Function.update_self]
  dsimp only
  split
  · rfl
  · dsimp only
    rw [Function.update_idem]

theorem Holds.goOn (h : s.Holds past) (htask : s.pendingStart = some task) :
    (s.goOn task input).1.Holds past := by
  unfold ProxySupervisor.goOn
  split
  · next token ticket hstage =>
    split
    · exact h
    · split
      · exact h.dropStart
      · exact (h.stage htask (by simp [hstage])).publish (fun hrunning => (by cases hrunning))
  · exact h.rejectStart htask
  · next exited token hstage =>
    have hnotWaiting : ∀ child, task.stage ≠ .waiting child := by simp [hstage]
    dsimp only
    split
    · have hterminated := terminate_update
        { s with
          launched := s.launched + 1
          pendingStart := some { task with stage := .terminating s.launched } } s.launched
        { port := task.port, accountId := task.accountId, runtimeId := task.runtimeId, token
          generation := task.generation, attached := false, exited }
      refine hterminated ▸ (h.stage htask hnotWaiting).launchLeft ?_ ?_ ?_
      · split <;> exact h.started task htask
      · split <;> rfl
      · split
        · next hexited => exact .inr hexited
        · exact .inl rfl
    · next hkept =>
      obtain ⟨hgeneration, hdisposed⟩ := not_or.mp hkept
      have hgeneration : task.generation = s.generation := not_not.mp hgeneration
      split
      · next hnot => exact absurd (h.account task htask hgeneration) hnot
      · next haccount =>
        refine Holds.launchTaken h htask ?_ ?_ ?_ ?_ ?_ ?_ ?_
          (h.unlaunched task htask hgeneration hnotWaiting)
        · exact (not_not.mp haccount).2
        · exact hgeneration
        all_goals rfl
  · split
    · exact h.rejectStart htask
    · exact h
  · split
    · exact h
    · split
      · exact h.dropStart
      · exact h.rejectStart htask
    · exact h.rejectStart htask
  · split
    · exact h
    · dsimp only
      split
      · exact h.dropStart.publish (fun hrunning => (by cases hrunning))
      · exact h.dropStart
  · exact h

theorem Holds.childEvent (h : s.Holds past) (hc : s.children i = some c)
    (hreported : ∀ chunk, input = .stdout i chunk → s.Owns i c → ReadyLine host c chunk →
      past.reported i c.port) (hchild : input.child? = some i) :
    (s.childEvent host i c input).1.Holds past := by
  cases input with
  | stdout child chunk =>
    cases hchild
    dsimp only [ProxySupervisor.childEvent]
    split
    · next howns => exact h.readStdout hc howns (hreported chunk rfl howns)
    · exact h
  | stderr child chunk now =>
    dsimp only [ProxySupervisor.childEvent]
    split
    · exact h.readStderr hc
    · exact h
  | failed child => exact h.failChild hc c.stdout c.stderr _
  | timer child =>
    dsimp only [ProxySupervisor.childEvent]
    split
    · exact h.failChild hc c.stdout c.stderr _
    · exact h
  | _ => exact h

/-- **Every callback keeps what a supervisor keeps.** -/
theorem Holds.step (h : s.Holds past)
    (hreported : ∀ i chunk c, input = .stdout i chunk → s.children i = some c → s.Owns i c →
      ReadyLine host c chunk → past.reported i c.port) : (s.step host input).1.Holds past := by
  cases input with
  | setAccount | copyToken | start | stop | dispose => exact h.call
  | stopped ticket =>
    dsimp only [ProxySupervisor.step]
    split
    · exact h
    · next task _ =>
      split
      · have hnext : { s with stops := Function.update s.stops ticket none }.Holds past :=
          { h with }
        split
        · exact hnext.publish (fun hrunning => (by cases hrunning))
        · exact hnext
      · exact h
  | prepare | launch | terminated | settle | giveUp =>
    dsimp only [ProxySupervisor.step]
    split
    · exact h
    · next task htask => exact h.goOn htask
  | exited child =>
    dsimp only [ProxySupervisor.step]
    split
    · exact h
    · next c hc =>
      exact h.update hc ⟨rfl, rfl, rfl, rfl, rfl, rfl, id, fun _ => rfl, id⟩
        (fun hready => h.ready child c hc hready) (fun _ _ => ⟨rfl, rfl⟩)
  | closed child =>
    dsimp only [ProxySupervisor.step]
    split
    · exact h
    · next c hc =>
      split
      · exact h
      · next hexited =>
        have hexited : c.exited := by
          by_contra hnot
          exact hexited (.inl (Bool.not_eq_true _ ▸ hnot))
        split
        · exact h.closeChild hc hexited
        · next hattached =>
          refine h.update hc ⟨rfl, rfl, rfl, rfl, rfl, rfl, id, id, id⟩
            (fun hready => h.ready child c hc hready) (fun hchild _ => ?_)
          obtain ⟨c₀, hc₀, hattached₀, -⟩ := h.current child hchild
          cases hc.symm.trans hc₀
          exact absurd hattached₀ hattached
  | stdout child chunk =>
    dsimp only [ProxySupervisor.step]
    split
    · exact h
    · next c hc =>
      split
      · exact h.childEvent hc (fun chunk hinput => hreported child chunk c hinput hc) rfl
      · exact h
  | stderr child | failed child | timer child =>
    dsimp only [ProxySupervisor.step]
    split
    · exact h
    · next c hc =>
      split
      · exact h.childEvent hc (fun chunk hinput => hreported child chunk c hinput hc) rfl
      · exact h

/-! ## What is ended -/

/-- An input ends whatever was launched or is being launched. -/
def Ends (s : ProxySupervisor) : ProxyInput → Prop
  | .setAccount accountId runtimeId => contextOf accountId runtimeId ≠ s.context
  | .stop | .dispose => True
  | _ => False

theorem Stopped.ended (h : Stopped s s') (hs : s.Kept past) :
    s'.Holds { past with generation := s.generation + 1, launched := s.launched } :=
  { h.holds hs with
    reached := Nat.le_of_eq h.generation.symm
    launched := Nat.le_of_eq h.launched.symm
    before := by
      intro i c' hc' _
      obtain ⟨c, hc, hlater, -⟩ := h.children i c' hc'
      rw [hlater.generation]
      exact Nat.lt_succ_of_le (hs.earlier i c hc) }

theorem Kept.ends (h : s.Kept past) (hends : s.Ends input) :
    (s.step host input).1.Holds
      { past with generation := s.generation + 1, launched := s.launched } := by
  cases input with
  | setAccount accountId runtimeId =>
    have hkept : { s with context := contextOf accountId runtimeId }.Kept past := { h with }
    dsimp only [ProxySupervisor.step, ProxySupervisor.call]
    rw [if_neg hends]
    exact ((stopped_stopNow _).ended hkept).publish (fun hrunning => (by cases hrunning))
  | stop => exact (stopped_stopNow s).ended h
  | dispose =>
    have hkept : { s with disposed := true }.Kept past := { h with }
    exact (stopped_stopNow _).ended hkept
  | _ => exact hends.elim

/-- What a child does that the supervisor does not have leaves what is published. -/
theorem state_of_not_owns {event : ProxyInput} (hc : s.children i = some c) (hnot : ¬ s.Owns i c)
    (hchild : event.child? = some i) : (s.step host event).1.state = s.state := by
  have hfail : ∀ message, (s.failChild i c message).1.state = s.state := by
    intro message
    have hnot' : ¬ s.Owns i { c with timing := false, settled := some (c.settled.getD false) } :=
      hnot
    unfold ProxySupervisor.failChild
    dsimp only
    rw [if_neg hnot']
  cases event with
  | stdout child chunk =>
    cases hchild
    simp [ProxySupervisor.step, ProxySupervisor.childEvent, hc, hnot]
  | stderr child chunk now =>
    cases hchild
    simp [ProxySupervisor.step, ProxySupervisor.childEvent, hc, hnot]
  | failed child =>
    cases hchild
    dsimp only [ProxySupervisor.step]
    rw [hc]
    dsimp only [ProxySupervisor.childEvent]
    split
    · exact hfail _
    · rfl
  | timer child =>
    cases hchild
    dsimp only [ProxySupervisor.step]
    rw [hc]
    dsimp only [ProxySupervisor.childEvent]
    split
    · split
      · exact hfail _
      · rfl
    · rfl
  | exited child =>
    cases hchild
    dsimp only [ProxySupervisor.step]
    rw [hc]
  | closed child =>
    cases hchild
    dsimp only [ProxySupervisor.step]
    rw [hc]
    dsimp only [ProxySupervisor.closeChild]
    split
    · rfl
    · split <;> rfl
  | _ => cases hchild

theorem terminate_state (s : ProxySupervisor) (i : Nat) : (s.terminate i).1.state = s.state := by
  rw [(terminated_terminate s i).rest]

theorem rejectStart_state (h : task.generation ≠ s.generation) :
    (s.rejectStart task).1.state = s.state := by
  unfold ProxySupervisor.rejectStart
  rw [if_neg h]

/-- A start that was cancelled leaves what is published. -/
theorem goOn_state (h : task.generation ≠ s.generation) :
    (s.goOn task input).1.state = s.state := by
  unfold ProxySupervisor.goOn
  split
  · split
    · rfl
    · rw [if_pos (.inl h)]
  · exact rejectStart_state h
  · dsimp only
    rw [if_pos (.inl h)]
    exact terminate_state _ _
  · split
    · exact rejectStart_state h
    · rfl
  · split
    · rfl
    · rw [if_neg (fun hsame => h hsame.2)]
      exact rejectStart_state h
    · exact rejectStart_state h
  · split <;> rfl
  · rfl

end ProxySupervisor

/-! ## Whole runs -/

section Runs

variable (host : ProxyHost) (inputs : List ProxyInput)

/-- What a run leaves. -/
abbrev proxyRun : ProxySupervisor := ((proxyMachine host).run {} inputs).1

/-- A child reported in the run that it is ready on the port. -/
def ReportedReady (i port : Nat) : Prop :=
  ∃ before chunk after c, inputs = before ++ .stdout i chunk :: after ∧
    (proxyRun host before).children i = some c ∧ c.port = port ∧
    ProxySupervisor.ReadyLine host c chunk

theorem holds_proxyRun : (proxyRun host inputs).Holds { reported := ReportedReady host inputs } := by
  induction inputs using List.reverseRecOn with
  | nil => exact ProxySupervisor.holds_initial _
  | append_singleton inputs input ih =>
    rw [proxyRun, Machine.run_snoc]
    refine ProxySupervisor.Holds.step (ih.mono ?_) ?_
    · rintro i port ⟨before, chunk, after, c, rfl, hrest⟩
      exact ⟨before, chunk, after ++ [input], c, by simp, hrest⟩
    · rintro i chunk c rfl hc - hready
      exact ⟨inputs, chunk, [], c, rfl, hc, rfl, hready⟩

/-- A child was launched before, or by the start that was under way. -/
def Earlier (s : ProxySupervisor) (i : Nat) (c : ProxyChild) : Prop :=
  i < s.launched ∨ ∃ task, s.pendingStart = some task ∧ c.generation = task.generation

/-- The local proxy does not outlive its account. -/
structure ProxyOwned : Prop where
  /-- At most one child that has not exited was not asked to terminate. -/
  one : ∀ i j c c', (proxyRun host inputs).children i = some c →
    (proxyRun host inputs).children j = some c' → ¬ (c.asked ∨ c.exited) → ¬ (c'.asked ∨ c'.exited) →
    i = j
  /-- A token that is copied is that of the child there is, launched for the account and the
  runtime, which reported that it is ready. -/
  token : ∀ accountId runtimeId token,
    .copied token ∈ ((proxyRun host inputs).step host (.copyToken accountId runtimeId)).2 →
    ∃ i c, (proxyRun host inputs).child = some i ∧ (proxyRun host inputs).children i = some c ∧
      c.token = token ∧ c.accountId = accountId ∧ c.runtimeId = runtimeId ∧
      ReportedReady host inputs i c.port ∧ c.asked = false ∧ c.closed = false
  /-- A child that was launched, or was being launched, before the account was changed or the proxy
  stopped is asked to terminate, and nothing that it does is published. -/
  ended : ∀ before input after, inputs = before ++ input :: after →
    (proxyRun host before).Ends input → ∀ i c, (proxyRun host inputs).children i = some c →
    Earlier (proxyRun host before) i c → (c.asked ∨ c.exited) ∧
      ∀ event : ProxyInput, event.child? = some i →
        ((proxyRun host inputs).step host event).1.state = (proxyRun host inputs).state
  /-- The start that was under way publishes nothing. -/
  cancelled : ∀ before input after, inputs = before ++ input :: after →
    (proxyRun host before).Ends input → ∀ task task', (proxyRun host before).pendingStart = some task →
    (proxyRun host inputs).pendingStart = some task' → task'.generation = task.generation →
      ∀ event, ((proxyRun host inputs).goOn task' event).1.state = (proxyRun host inputs).state

variable {host} {inputs} {before after : List ProxyInput} {input : ProxyInput}

/-- What holds behind an input that ends what was launched. -/
theorem holds_of_ends (hinputs : inputs = before ++ input :: after)
    (hends : (proxyRun host before).Ends input) :
    (proxyRun host inputs).Holds
      { reported := fun _ _ => True
        generation := (proxyRun host before).generation + 1
        launched := (proxyRun host before).launched } := by
  have hbefore : (proxyRun host before).Holds { reported := fun _ _ => True } :=
    (holds_proxyRun host before).mono (fun _ _ _ => trivial)
  subst hinputs
  have hrun : proxyRun host (before ++ input :: after) =
      ((proxyMachine host).run ((proxyRun host before).step host input).1 after).1 := by
    rw [proxyRun, Machine.run_append]
    rfl
  rw [hrun]
  exact (proxyMachine host).run_invariant'
    (fun s event hs => hs.step (fun _ _ _ _ _ _ _ => trivial)) (hbefore.toKept.ends hends) after

/-- **The local proxy does not outlive its account.** -/
theorem proxy_owned (host : ProxyHost) (inputs : List ProxyInput) : ProxyOwned host inputs where
  one := by
    intro i j c c' hc hc' hi hj
    have h := holds_proxyRun host inputs
    have hcurrent := (h.left i c hc).resolve_right hi
    have hcurrent' := (h.left j c' hc').resolve_right hj
    exact Option.some.inj (hcurrent.symm.trans hcurrent')
  token := by
    intro accountId runtimeId token hcopied
    have h := holds_proxyRun host inputs
    dsimp only [ProxySupervisor.step, ProxySupervisor.call] at hcopied
    split at hcopied
    · next hasked =>
      obtain ⟨⟨-, hcontext⟩, hrunning⟩ := hasked
      split at hcopied
      · next t ht =>
        obtain rfl : token = t := by
          split at hcopied
          · cases hcopied
          · cases List.mem_singleton.mp hcopied
            rfl
        obtain ⟨i, c, hi, hc, htoken, hnotAsked, hclosed, hcontext'⟩ := h.token token ht
        obtain ⟨j, cj, hj, hcj, hready⟩ := h.running hrunning
        obtain rfl : i = j := Option.some.inj (hi.symm.trans hj)
        cases hc.symm.trans hcj
        obtain ⟨haccount, hruntime⟩ := Prod.mk.inj (Option.some.inj (hcontext'.symm.trans hcontext))
        exact ⟨i, c, hi, hc, htoken, haccount, hruntime, h.ready i c hc hready, hnotAsked, hclosed⟩
      · cases hcopied
    · cases hcopied
  ended := by
    intro before input after hinputs hends i c hc hearlier
    have h := holds_of_ends hinputs hends
    have hgeneration : c.generation < (proxyRun host inputs).generation := by
      have hreached := h.reached
      dsimp only at hreached
      rcases hearlier with hlaunched | ⟨task, htask, hsame⟩
      · exact Nat.lt_of_lt_of_le (h.before i c hc hlaunched) hreached
      · have hstarted := (holds_proxyRun host before).started task htask
        omega
    refine ⟨(h.left i c hc).resolve_left fun hi => ?_, fun event hchild => ?_⟩
    · obtain ⟨c', hc', -, hsame⟩ := h.current i hi
      cases hc.symm.trans hc'
      omega
    · exact ProxySupervisor.state_of_not_owns hc (fun howns => by have := howns.2; omega) hchild
  cancelled := by
    intro before input after hinputs hends task task' htask htask' hsame event
    have hreached := (holds_of_ends hinputs hends).reached
    have hstarted := (holds_proxyRun host before).started task htask
    dsimp only at hreached
    exact ProxySupervisor.goOn_state (by omega)

end Runs

/-- A proxy that exits is not asked to terminate, and another one can be started then. -/
theorem unasked_not_one : ¬ ∀ host inputs i j c c', (proxyRun host inputs).children i = some c →
    (proxyRun host inputs).children j = some c' → c.asked = false → c'.asked = false → i = j := by
  intro h
  let host : ProxyHost := ⟨fun _ => none, fun _ => none⟩
  let inputs : List ProxyInput :=
    [.setAccount (some "a") (some "r"), .start 8484 "a" "r", .stopped 1, .prepare "t",
      .launch (some false), .exited 0, .closed 0, .settle, .stopped 2, .giveUp, .start 8484 "a" "r",
      .stopped 3, .prepare "u", .launch (some false)]
  have hasked : ((proxyRun host inputs).children 0).map (·.asked) = some false ∧
      ((proxyRun host inputs).children 1).map (·.asked) = some false := by decide
  obtain ⟨⟨c, hc, hfirst⟩, c', hc', hsecond⟩ :=
    hasked.imp Option.map_eq_some_iff.mp Option.map_eq_some_iff.mp
  exact absurd (h host inputs 0 1 c c' hc hc' hfirst hsecond) Nat.zero_ne_one

end AxiomDesktop
