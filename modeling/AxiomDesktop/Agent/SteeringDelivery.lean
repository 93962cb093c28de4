import AxiomDesktop.Agent.Steering
import AxiomDesktop.Lib.Table

/-!
# Steering input is delivered once, in order

What every interleaving of the operations of `TurnSteering` delivers, read off the events alone:
`steering_delivers_once`. The inbox is behind its events by what is pending (`Delivered`): the IDs
taken followed by the pending ones are the accepted ones, in order, without those a `close`
dropped.
-/

namespace AxiomDesktop.TurnSteering

/-! ## What the events say -/

/-- The IDs whose submission was given a channel, retries included. -/
def submittedIds (events : List SteeringEvent) : List String :=
  events.filterMap fun
    | .submitted id _ => some id
    | _ => none

/-- The accepted IDs, in the order of their first acceptance. -/
def acceptedIds (events : List SteeringEvent) : List String := (submittedIds events).eraseDups

/-- The IDs taken, in order. -/
def takenIds (events : List SteeringEvent) : List String :=
  events.flatMap fun
    | .took messages => messages.map (·.id)
    | _ => []

/-- A `close` found the ID accepted and not taken. -/
def Dropped (events : List SteeringEvent) (id : String) : Prop :=
  ∃ before after, events = before ++ .closed :: after ∧
    id ∈ acceptedIds before ∧ id ∉ takenIds before

variable {events : List SteeringEvent} {e : SteeringEvent} {id : String} {w : Waiter}

@[simp] theorem submittedIds_append (events' : List SteeringEvent) :
    submittedIds (events ++ events') = submittedIds events ++ submittedIds events' :=
  List.filterMap_append

@[simp] theorem takenIds_append (events' : List SteeringEvent) :
    takenIds (events ++ events') = takenIds events ++ takenIds events' :=
  List.flatMap_append

theorem mem_submittedIds : id ∈ submittedIds events ↔ ∃ w, .submitted id w ∈ events := by
  simp only [submittedIds, List.mem_filterMap]
  constructor
  · rintro ⟨e, he, h⟩
    cases e with
    | submitted id' w =>
      cases h
      exact ⟨w, he⟩
    | _ => cases h
  · rintro ⟨w, hw⟩
    exact ⟨_, hw, rfl⟩

/-- Events that submit nothing accept nothing. -/
theorem acceptedIds_append_of_nil {events' : List SteeringEvent} (h : submittedIds events' = []) :
    acceptedIds (events ++ events') = acceptedIds events := by
  simp [acceptedIds, h]

/-- The submission of an ID accepts it if it is new. -/
theorem acceptedIds_snoc (id : String) (w : Waiter) :
    acceptedIds (events ++ [.submitted id w]) =
      acceptedIds events ++ if id ∈ acceptedIds events then [] else [id] := by
  have h : submittedIds [.submitted id w] = [id] := rfl
  rw [acceptedIds, submittedIds_append, h, List.eraseDups_append, ← acceptedIds]
  congr 1
  by_cases hid : id ∈ submittedIds events
  · rw [if_pos (by rwa [acceptedIds, List.mem_eraseDups])]
    simp [List.removeAll, hid]
  · rw [if_neg (by rwa [acceptedIds, List.mem_eraseDups])]
    simp [List.removeAll, hid, List.eraseDups_cons]

theorem Dropped.append (h : Dropped events id) (events' : List SteeringEvent) :
    Dropped (events ++ events') id := by
  obtain ⟨before, after, rfl, hid⟩ := h
  exact ⟨before, after ++ events', by simp, hid⟩

theorem Dropped.closed_mem (h : Dropped events id) : .closed ∈ events := by
  obtain ⟨before, after, rfl, -⟩ := h
  simp

/-! ## The inbox and its events -/

/-- The IDs taken, and behind them those still pending. -/
def delivery (events : List SteeringEvent) (s : TurnSteering) : List String :=
  takenIds events ++ s.pending.map (·.id)

/-- The turn takes no further input: it was closed, or it finished with an empty inbox. -/
def Over (events : List SteeringEvent) : Prop :=
  .closed ∈ events ∨ .finished true ∈ events

/-- The invariant: what the inbox holds, beside the events so far. -/
structure Delivered (events : List SteeringEvent) (s : TurnSteering) : Prop where
  ordered : (delivery events s).Sublist (acceptedIds events)
  nodup : (delivery events s).Nodup
  accounted : ∀ id ∈ acceptedIds events, id ∈ delivery events s ∨ Dropped events id
  known : ∀ id, (s.submissions id).isSome ↔ id ∈ delivery events s
  shut : Over events → s.closed = true
  empty : s.closed = true → s.pending = []
  applied : ∀ id input, s.submissions id = some input → input.applied = true →
    .acknowledged id ∈ events
  waiting : ∀ id input, s.submissions id = some input → ∀ w ∈ input.waiters,
    .submitted id w ∈ events
  fresh : ∀ id w, .submitted id w ∈ events → w < s.channels

/-- What an event may be beside the events before it. -/
def Allowed (before : List SteeringEvent) : SteeringEvent → Prop
  | .submitted id w =>
    (Over before → id ∈ takenIds before ∧ id ∈ acceptedIds before) ∧
      ∀ id', .submitted id' w ∉ before
  | .signalled w =>
    ∃ id, .submitted id w ∈ before ∧ .acknowledged id ∈ before ∧
      (Over before → id ∈ takenIds before)
  | .took messages => Over before → messages = []
  | .acknowledged id => Over before → id ∈ takenIds before
  | .finished true => ∀ id ∈ acceptedIds before, id ∈ takenIds before ∨ Dropped before id
  | .finished false | .refused .. | .closed => True

variable {s : TurnSteering}

/-- What is known once the turn is over was taken. -/
theorem Delivered.taken_of_known (h : Delivered events s) (hid : (s.submissions id).isSome)
    (ho : Over events) : id ∈ takenIds events := by
  have hmem := (h.known id).mp hid
  rw [delivery, h.empty (h.shut ho)] at hmem
  simpa using hmem

theorem Delivered.accepted_of_known (h : Delivered events s)
    (hid : (s.submissions id).isSome) : id ∈ acceptedIds events :=
  h.ordered.subset ((h.known id).mp hid)

theorem over_append (events' : List SteeringEvent) :
    Over (events ++ events') ↔ Over events ∨ Over events' := by
  simp only [Over, List.mem_append]
  tauto

/-- Events that neither submit nor take nor end the turn. -/
def Quiet (events : List SteeringEvent) : Prop :=
  submittedIds events = [] ∧ takenIds events = [] ∧ ¬ Over events

theorem Quiet.not_submitted (h : Quiet events) : .submitted id w ∉ events := by
  intro hmem
  have : id ∈ submittedIds events := mem_submittedIds.mpr ⟨w, hmem⟩
  rw [h.1] at this
  cases this

/-- Quiet events can follow while the lists of the inbox stay, if what is applied in it was
acknowledged and what waits in it was submitted. -/
theorem Delivered.quiet {s' : TurnSteering} {quiet : List SteeringEvent}
    (h : Delivered events s) (hq : Quiet quiet)
    (hp : s'.pending = s.pending) (hc : s'.closed = s.closed) (hn : s'.channels = s.channels)
    (hk : ∀ id, (s'.submissions id).isSome = (s.submissions id).isSome)
    (ha : ∀ id input, s'.submissions id = some input → input.applied = true →
      .acknowledged id ∈ events ++ quiet)
    (hw : ∀ id input, s'.submissions id = some input → ∀ w ∈ input.waiters,
      .submitted id w ∈ events) :
    Delivered (events ++ quiet) s' := by
  have hacc : acceptedIds (events ++ quiet) = acceptedIds events := acceptedIds_append_of_nil hq.1
  have hdel : delivery (events ++ quiet) s' = delivery events s := by
    rw [delivery, takenIds_append, hq.2.1, List.append_nil, hp, delivery]
  refine
    { ordered := by rw [hdel, hacc]; exact h.ordered
      nodup := by rw [hdel]; exact h.nodup
      accounted := ?_
      known := by intro id; rw [hk, hdel]; exact h.known id
      shut := ?_
      empty := by rw [hc, hp]; exact h.empty
      applied := ha
      waiting := fun id input hi w hw' => List.mem_append_left _ (hw id input hi w hw')
      fresh := ?_ }
  · intro id hid
    rw [hacc] at hid
    rw [hdel]
    exact (h.accounted id hid).imp_right (·.append quiet)
  · intro ho
    rw [over_append] at ho
    rw [hc]
    exact h.shut (ho.resolve_right hq.2.2)
  · intro id w hmem
    rw [hn]
    exact h.fresh id w ((List.mem_append.mp hmem).resolve_right hq.not_submitted)

/-- Quiet events can follow while the inbox stays. -/
theorem Delivered.quiet_same {quiet : List SteeringEvent} (h : Delivered events s)
    (hq : Quiet quiet) : Delivered (events ++ quiet) s :=
  h.quiet hq rfl rfl rfl (fun _ => rfl)
    (fun id input hi ha => List.mem_append_left _ (h.applied id input hi ha)) h.waiting

/-- What a step has to show: the inbox is behind the events it emits, and each may come there. -/
def StepOk (events : List SteeringEvent) (r : TurnSteering × List SteeringEvent) : Prop :=
  Delivered (events ++ r.2) r.1 ∧ Always (fun before => Allowed (events ++ before)) r.2

theorem stepOk_refused (h : Delivered events s) (id : String) (error : AxiomError) :
    StepOk events (s, [.refused id error]) :=
  ⟨h.quiet_same ⟨rfl, rfl, by simp [Over]⟩, by simp [Allowed]⟩

/-- A retry of a known ID gets a channel. -/
theorem Delivered.resubmitted {s' : TurnSteering} (h : Delivered events s)
    (hid : (s.submissions id).isSome) (hp : s'.pending = s.pending) (hc : s'.closed = s.closed)
    (hn : s'.channels = s.channels + 1)
    (hk : ∀ id, (s'.submissions id).isSome = (s.submissions id).isSome)
    (ha : ∀ id input, s'.submissions id = some input → input.applied = true →
      .acknowledged id ∈ events)
    (hw : ∀ id' input, s'.submissions id' = some input → ∀ w ∈ input.waiters,
      .submitted id' w ∈ events ++ [.submitted id s.channels]) :
    Delivered (events ++ [.submitted id s.channels]) s' := by
  have hacc : acceptedIds (events ++ [.submitted id s.channels]) = acceptedIds events := by
    rw [acceptedIds_snoc, if_pos (h.accepted_of_known hid), List.append_nil]
  have hdel : delivery (events ++ [.submitted id s.channels]) s' = delivery events s := by
    rw [delivery, takenIds_append, hp, delivery]
    simp [takenIds]
  refine
    { ordered := by rw [hdel, hacc]; exact h.ordered
      nodup := by rw [hdel]; exact h.nodup
      accounted := ?_
      known := by intro id; rw [hk, hdel]; exact h.known id
      shut := ?_
      empty := by rw [hc, hp]; exact h.empty
      applied := fun id input hi happ => List.mem_append_left _ (ha id input hi happ)
      waiting := hw
      fresh := ?_ }
  · intro id hid
    rw [hacc] at hid
    rw [hdel]
    exact (h.accounted id hid).imp_right (·.append _)
  · intro ho
    rw [hc]
    refine h.shut ?_
    simpa [Over] using ho
  · intro id' w hmem
    rw [hn]
    rw [List.mem_append, List.mem_singleton] at hmem
    obtain hmem | hmem := hmem
    · exact Nat.lt_succ_of_lt (h.fresh id' w hmem)
    · cases hmem
      exact Nat.lt_succ_self _

/-- The channel of a submission is new, and a known ID is taken once the turn is over. -/
theorem Delivered.allowed_submitted (h : Delivered events s)
    (hid : Over events → (s.submissions id).isSome) : Allowed events (.submitted id s.channels) := by
  constructor
  · intro ho
    have hk := hid ho
    exact ⟨h.taken_of_known hk ho, h.accepted_of_known hk⟩
  · intro id' hmem
    exact Nat.lt_irrefl _ (h.fresh id' _ hmem)

theorem stepOk_resubmit (h : Delivered events s) {previous : Submission}
    (hprev : s.submissions id = some previous) (text : String) :
    StepOk events (s.resubmit previous id text) := by
  have hid : (s.submissions id).isSome := by rw [hprev]; rfl
  unfold resubmit
  split
  · exact stepOk_refused h id _
  · split
    · next happ =>
      have hack := h.applied id previous hprev happ
      have hres : Delivered (events ++ [.submitted id s.channels])
          { s with channels := s.channels + 1 } :=
        h.resubmitted hid rfl rfl rfl (fun _ => rfl) h.applied
          fun id' input hi w hw => List.mem_append_left _ (h.waiting id' input hi w hw)
      constructor
      · have hquiet : Quiet [.signalled s.channels] := ⟨rfl, rfl, by simp [Over]⟩
        simpa using hres.quiet_same hquiet
      · rw [always_cons, always_cons]
        refine ⟨?_, ⟨id, ?_, ?_, ?_⟩, always_nil⟩
        · rw [List.append_nil]
          exact h.allowed_submitted fun _ => hid
        · simp
        · simp [hack]
        · intro ho
          have := h.taken_of_known hid (by simpa [Over] using ho)
          simp [this]
    · split
      · constructor
        · refine h.resubmitted hid rfl rfl rfl (Table.isSome_update_of_isSome hid) ?_ ?_
          · exact Table.forall_update h.applied (h.applied id previous hprev)
          · refine Table.forall_update ?_ ?_
            · exact fun id' input hi w hw => List.mem_append_left _ (h.waiting id' input hi w hw)
            · intro w hw
              obtain hw | hw := List.mem_append.mp hw
              · exact List.mem_append_left _ (h.waiting id previous hprev w hw)
              · rw [List.mem_singleton] at hw
                simp [hw]
        · rw [always_cons, List.append_nil]
          exact ⟨h.allowed_submitted fun _ => hid, always_nil⟩
      · exact stepOk_refused h id _

/-- A new ID is not among the accepted ones while the turn goes on. -/
theorem Delivered.not_accepted (h : Delivered events s) (hopen : s.closed = false)
    (hid : s.submissions id = none) : id ∉ acceptedIds events := by
  intro hmem
  obtain hk | hd := h.accounted id hmem
  · have := (h.known id).mpr hk
    rw [hid] at this
    cases this
  · have := h.shut (Or.inl hd.closed_mem)
    rw [hopen] at this
    cases this

theorem stepOk_accept (h : Delivered events s) (hid : s.submissions id = none) (text : String) :
    StepOk events (s.accept id text) := by
  unfold accept
  split
  · exact stepOk_refused h id _
  · next hopen =>
    split
    · exact stepOk_refused h id _
    · rw [Bool.not_eq_true] at hopen
      have hnew := h.not_accepted hopen hid
      have hdel : id ∉ delivery events s := by
        intro hmem
        have := (h.known id).mpr hmem
        rw [hid] at this
        cases this
      have hdel' : ∀ a ∈ delivery events s, ¬ a = id := by
        rintro a ha rfl
        exact hdel ha
      have hacc : acceptedIds (events ++ [.submitted id s.channels]) = acceptedIds events ++ [id] := by
        rw [acceptedIds_snoc, if_neg hnew]
      have hlist : ∀ s' : TurnSteering, s'.pending = s.pending ++ [⟨id, text⟩] →
          delivery (events ++ [.submitted id s.channels]) s' = delivery events s ++ [id] := by
        intro s' hs'
        rw [delivery, hs', takenIds_append, delivery]
        simp [takenIds]
      constructor
      · refine
          { ordered := by rw [hlist _ rfl, hacc]; exact h.ordered.append (.refl _)
            nodup := ?_
            accounted := ?_
            known := ?_
            shut := ?_
            empty := ?_
            applied := ?_
            waiting := ?_
            fresh := ?_ }
        · rw [hlist _ rfl]
          exact List.nodup_append.mpr ⟨h.nodup, by simp, by simpa using hdel'⟩
        · intro id' hid'
          rw [hacc, List.mem_append] at hid'
          rw [hlist _ rfl]
          obtain hid' | hid' := hid'
          · obtain hd | hd := h.accounted id' hid'
            · exact Or.inl (List.mem_append_left _ hd)
            · exact Or.inr (hd.append _)
          · exact Or.inl (List.mem_append_right _ hid')
        · intro id'
          rw [hlist _ rfl, Table.isSome_update, h.known]
          simp [or_comm]
        · intro ho
          exact h.shut (by simpa [Over] using ho)
        · intro hc
          rw [show s.closed = true from hc] at hopen
          cases hopen
        · refine Table.forall_update ?_ ?_
          · exact fun id' input hi ha => List.mem_append_left _ (h.applied id' input hi ha)
          · intro ha
            cases ha
        · refine Table.forall_update ?_ ?_
          · exact fun id' input hi w hw => List.mem_append_left _ (h.waiting id' input hi w hw)
          · intro w hw
            rw [List.mem_singleton] at hw
            simp [hw]
        · intro id' w hmem
          obtain hmem | hmem := List.mem_append.mp hmem
          · exact Nat.lt_succ_of_lt (h.fresh id' w hmem)
          · rw [List.mem_singleton] at hmem
            cases hmem
            exact Nat.lt_succ_self _
      · rw [always_cons, List.append_nil]
        refine ⟨h.allowed_submitted ?_, always_nil⟩
        intro ho
        rw [h.shut ho] at hopen
        cases hopen

theorem stepOk_submit (h : Delivered events s) (expected : TurnId) (id text : String) :
    StepOk events (s.submit expected id text) := by
  unfold submit
  split
  · exact stepOk_refused h id _
  · split
    · next previous hprev => exact stepOk_resubmit h hprev text
    · next hnone => exact stepOk_accept h hnone text

theorem stepOk_takePending (h : Delivered events s) : StepOk events s.takePending := by
  have hacc : acceptedIds (events ++ [.took s.pending]) = acceptedIds events :=
    acceptedIds_append_of_nil rfl
  have hdel : delivery (events ++ [.took s.pending]) { s with pending := [] } =
      delivery events s := by
    rw [delivery, takenIds_append, delivery]
    simp [takenIds]
  have hover : Over (events ++ [.took s.pending]) ↔ Over events := by simp [Over]
  constructor
  · refine
      { ordered := by rw [takePending, hdel, hacc]; exact h.ordered
        nodup := by rw [takePending, hdel]; exact h.nodup
        accounted := ?_
        known := by rw [takePending, hdel]; exact h.known
        shut := fun ho => h.shut (hover.mp ho)
        empty := fun _ => rfl
        applied := fun id input hi ha => List.mem_append_left _ (h.applied id input hi ha)
        waiting := fun id input hi w hw => List.mem_append_left _ (h.waiting id input hi w hw)
        fresh := ?_ }
    · intro id hid
      rw [takePending, hacc] at hid
      rw [takePending, hdel]
      exact (h.accounted id hid).imp_right (·.append _)
    · intro id w hmem
      exact h.fresh id w (by simpa [takePending] using hmem)
  · rw [takePending, always_cons, List.append_nil]
    exact ⟨fun ho => h.empty (h.shut ho), always_nil⟩

/-- The signals of an acknowledged submission. -/
theorem quiet_signals (ws : List Waiter) : Quiet (ws.map .signalled) := by
  simp [Quiet, submittedIds, takenIds, Over]

theorem stepOk_acknowledge (h : Delivered events s) (id : String) :
    StepOk events (s.acknowledge id) := by
  unfold acknowledge
  split
  · refine ⟨?_, always_nil⟩
    rw [List.append_nil]
    exact h
  · next input hinput =>
    have hid : (s.submissions id).isSome := by rw [hinput]; rfl
    have hsignals := quiet_signals input.waiters
    have hquiet : Quiet (.acknowledged id :: input.waiters.map .signalled) :=
      ⟨hsignals.1, hsignals.2.1, by simp [Over]⟩
    constructor
    · refine h.quiet hquiet rfl rfl rfl (Table.isSome_update_of_isSome hid) ?_ ?_
      · refine Table.forall_update ?_ ?_
        · exact fun id' input' hi ha => List.mem_append_left _ (h.applied id' input' hi ha)
        · exact fun _ => by simp
      · refine Table.forall_update h.waiting ?_
        intro w hw
        cases hw
    · rw [always_cons, List.append_nil]
      refine ⟨h.taken_of_known hid, ?_⟩
      intro before e after hsplit
      have he : e ∈ input.waiters.map .signalled := by rw [hsplit]; simp
      obtain ⟨w, hw, rfl⟩ := List.mem_map.mp he
      have hsub := h.waiting id input hinput w hw
      refine ⟨id, List.mem_append_left _ hsub, by simp, ?_⟩
      intro ho
      rw [takenIds_append, List.mem_append]
      refine Or.inl (h.taken_of_known hid ?_)
      rw [over_append] at ho
      refine ho.resolve_right fun ho' => hquiet.2.2 ?_
      rw [hsplit, ← List.cons_append, over_append]
      exact Or.inl ho'

theorem stepOk_finishIfEmpty (h : Delivered events s) : StepOk events s.finishIfEmpty := by
  unfold finishIfEmpty
  split
  · exact ⟨h.quiet_same ⟨rfl, rfl, by simp [Over]⟩, by simp [Allowed]⟩
  · next hpending =>
    rw [not_not] at hpending
    have hacc : acceptedIds (events ++ [.finished true]) = acceptedIds events :=
      acceptedIds_append_of_nil rfl
    have hdel : delivery (events ++ [.finished true]) { s with closed := true } =
        delivery events s := by
      rw [delivery, takenIds_append, delivery]
      simp [takenIds]
    constructor
    · show Delivered (events ++ [.finished true]) { s with closed := true }
      refine
        { ordered := by rw [hdel, hacc]; exact h.ordered
          nodup := by rw [hdel]; exact h.nodup
          accounted := ?_
          known := by intro id; rw [hdel]; exact h.known id
          shut := fun _ => rfl
          empty := fun _ => hpending
          applied := fun id input hi ha => List.mem_append_left _ (h.applied id input hi ha)
          waiting := fun id input hi w hw => List.mem_append_left _ (h.waiting id input hi w hw)
          fresh := ?_ }
      · intro id hid
        rw [hacc] at hid
        rw [hdel]
        exact (h.accounted id hid).imp_right (·.append _)
      · intro id w hmem
        exact h.fresh id w (by simpa using hmem)
    · rw [always_cons, List.append_nil]
      refine ⟨?_, always_nil⟩
      intro id hid
      simpa [delivery, hpending] using h.accounted id hid

theorem stepOk_close (h : Delivered events s) : StepOk events s.close := by
  have hacc : acceptedIds (events ++ [.closed]) = acceptedIds events := acceptedIds_append_of_nil rfl
  have hdel : delivery (events ++ [.closed]) s.close.1 = takenIds events := by
    rw [delivery, takenIds_append, close]
    simp [takenIds]
  have hpend : ∀ id, s.pending.any (·.id = id) = true ↔ id ∈ s.pending.map (·.id) := by
    intro id
    simp
  have hnodup := h.nodup
  rw [delivery, List.nodup_append] at hnodup
  have hsome : ∀ id input, s.close.1.submissions id = some input →
      s.submissions id = some input := by
    intro id input hi
    simp only [close] at hi
    split at hi
    · cases hi
    · exact hi
  constructor
  · show Delivered (events ++ [.closed]) s.close.1
    refine
      { ordered := ?_
        nodup := by rw [hdel]; exact hnodup.1
        accounted := ?_
        known := ?_
        shut := fun _ => rfl
        empty := fun _ => rfl
        applied := fun id input hi ha =>
          List.mem_append_left _ (h.applied id input (hsome id input hi) ha)
        waiting := fun id input hi w hw =>
          List.mem_append_left _ (h.waiting id input (hsome id input hi) w hw)
        fresh := ?_ }
    · rw [hdel]
      exact hacc ▸ (List.sublist_append_left _ _).trans h.ordered
    · intro id hid
      have hid' : id ∈ acceptedIds events := hacc ▸ hid
      rw [hdel]
      by_cases ht : id ∈ takenIds events
      · exact Or.inl ht
      · exact Or.inr ⟨events, [], rfl, hid', ht⟩
    · intro id
      rw [hdel]
      have hk := h.known id
      rw [delivery, List.mem_append] at hk
      show (if s.pending.any (·.id = id) then none else s.submissions id).isSome ↔ _
      split
      · next hp =>
        have hp' := (hpend id).mp hp
        simp only [Option.isSome_none, Bool.false_eq_true, false_iff]
        intro ht
        exact hnodup.2.2 id ht id hp' rfl
      · next hp =>
        rw [hk, or_iff_left]
        exact fun hp' => hp ((hpend id).mpr hp')
    · intro id w hmem
      exact h.fresh id w (by simpa [close] using hmem)
  · simp [close, Allowed]

theorem stepOk_step (h : Delivered events s) (op : SteeringOp) :
    StepOk events (machine.step s op) := by
  cases op with
  | submit expected id text => exact stepOk_submit h expected id text
  | takePending => exact stepOk_takePending h
  | acknowledge id => exact stepOk_acknowledge h id
  | finishIfEmpty => exact stepOk_finishIfEmpty h
  | close => exact stepOk_close h

/-- The invariant over a run. -/
theorem delivered_run (turnId : TurnId) (ops : List SteeringOp) :
    Delivered (machine.run (new turnId) ops).2 (machine.run (new turnId) ops).1 ∧
      Always Allowed (machine.run (new turnId) ops).2 := by
  have hnew : Delivered [] (new turnId) :=
    { ordered := .refl _
      nodup := by simp [delivery, takenIds, new]
      accounted := fun id hid => by simp [acceptedIds, submittedIds] at hid
      known := fun id => by simp [delivery, takenIds, new]
      shut := fun ho => by simp [Over] at ho
      empty := fun _ => rfl
      applied := fun id input hi => by cases hi
      waiting := fun id input hi => by cases hi
      fresh := fun id w hmem => by cases hmem }
  exact machine.run_always (I := Delivered) hnew (fun events s op h => stepOk_step h op) ops

/-! ## What is delivered -/

section Delivery

variable {before after : List SteeringEvent}

/-- A channel belongs to one submission. -/
theorem submitted_unique {id' : String} (h : Always Allowed events)
    (hid : .submitted id w ∈ events) (hid' : .submitted id' w ∈ events) : id' = id := by
  obtain ⟨before, after, rfl⟩ := List.append_of_mem hid
  rw [List.mem_append, List.mem_cons] at hid'
  obtain hid' | hid' | hid' := hid'
  · exact absurd hid' ((h before _ after rfl).2 id')
  · cases hid'
    rfl
  · obtain ⟨between, rest, rfl⟩ := List.append_of_mem hid'
    have hlater : Allowed (before ++ .submitted id w :: between) (.submitted id' w) :=
      h _ _ rest (by simp)
    exact absurd (by simp) (hlater.2 id)

/-- Once the turn is over nothing more is accepted or taken. -/
theorem unchanged_of_over (h : Always Allowed (before ++ after)) (ho : Over before) :
    acceptedIds (before ++ after) = acceptedIds before ∧
      takenIds (before ++ after) = takenIds before := by
  have hover : ∀ more, Over (before ++ more) := fun more => (over_append more).mpr (Or.inl ho)
  constructor
  · refine h.unchanged ?_
    intro more e he
    rw [← List.append_assoc]
    cases e with
    | submitted id w => rw [acceptedIds_snoc, if_pos (he.1 (hover more)).2, List.append_nil]
    | _ => exact acceptedIds_append_of_nil rfl
  · refine h.unchanged ?_
    intro more e he
    rw [← List.append_assoc, takenIds_append]
    cases e with
    | took messages =>
      rw [he (hover more)]
      simp [takenIds]
    | _ => simp [takenIds]

/-- **Steering input is delivered once, in order.** In every interleaving of the operations: the
IDs taken are accepted ones, each at most once and in the order of their acceptance; a channel is
signalled only after its submission's ID was acknowledged; once `finish_if_empty` answers true
nothing more is accepted, and every accepted ID was taken or was dropped by an earlier `close`;
and what a `close` drops is never taken, acknowledged or signalled later. -/
theorem steering_delivers_once (turnId : TurnId) (ops : List SteeringOp) :
    let events := (machine.run (new turnId) ops).2
    (takenIds events).Nodup ∧ (takenIds events).Sublist (acceptedIds events) ∧
    (∀ before w after, events = before ++ .signalled w :: after →
      ∃ id, .submitted id w ∈ before ∧ .acknowledged id ∈ before ∧
        ∀ id', .submitted id' w ∈ events → id' = id) ∧
    (∀ before after, events = before ++ .finished true :: after →
      acceptedIds events = acceptedIds before ∧
      ∀ id ∈ acceptedIds before, id ∈ takenIds before ∨ Dropped before id) ∧
    ∀ before after id, events = before ++ .closed :: after →
      id ∈ acceptedIds before → id ∉ takenIds before →
      id ∉ takenIds events ∧ .acknowledged id ∉ after ∧
        ∀ w, .submitted id w ∈ events → .signalled w ∉ after := by
  intro events
  obtain ⟨hd, ha⟩ : Delivered events _ ∧ Always Allowed events := delivered_run turnId ops
  clear_value events
  refine ⟨?_, ?_, ?_, ?_, ?_⟩
  · exact (List.nodup_append.mp hd.nodup).1
  · exact (List.sublist_append_left _ _).trans hd.ordered
  · intro before w after hsplit
    obtain ⟨id, hsub, hack, -⟩ := ha before _ after hsplit
    refine ⟨id, hsub, hack, ?_⟩
    intro id' hid'
    exact submitted_unique ha (by rw [hsplit]; simp [hsub]) hid'
  · intro before after hsplit
    have hsplit' : events = (before ++ [.finished true]) ++ after := by simp [hsplit]
    have hunchanged := (unchanged_of_over (hsplit' ▸ ha) (Or.inr (by simp))).1
    refine ⟨?_, ha before _ after hsplit⟩
    rw [hsplit', hunchanged]
    exact acceptedIds_append_of_nil rfl
  · intro before after id hsplit hacc htaken
    have hsplit' : events = (before ++ [.closed]) ++ after := by simp [hsplit]
    have hnever : ∀ more rest, after = more ++ rest →
        Over (before ++ .closed :: more) ∧ id ∉ takenIds (before ++ .closed :: more) := by
      rintro more rest rfl
      have hprefix : Always Allowed ((before ++ [.closed]) ++ more) := by
        rw [hsplit', ← List.append_assoc, always_append] at ha
        exact ha.1
      have hunchanged := (unchanged_of_over hprefix (Or.inl (by simp))).2
      have hclosed : takenIds (before ++ [.closed]) = takenIds before := by simp [takenIds]
      refine ⟨Or.inl (by simp), ?_⟩
      rw [List.append_cons, hunchanged, hclosed]
      exact htaken
    refine ⟨?_, ?_, ?_⟩
    · rw [hsplit]
      exact (hnever after [] (by simp)).2
    · intro hack
      obtain ⟨more, rest, hmore⟩ := List.append_of_mem hack
      obtain ⟨hover, hnot⟩ := hnever more _ hmore
      have hallowed : Allowed (before ++ .closed :: more) (.acknowledged id) :=
        ha _ _ rest (by simp [hsplit, hmore])
      exact hnot (hallowed hover)
    · intro w hsub hsig
      obtain ⟨more, rest, hmore⟩ := List.append_of_mem hsig
      obtain ⟨hover, hnot⟩ := hnever more _ hmore
      have hallowed : Allowed (before ++ .closed :: more) (.signalled w) :=
        ha _ _ rest (by simp [hsplit, hmore])
      obtain ⟨id', hsub', -, hid'⟩ := hallowed
      have hmem : .submitted id' w ∈ events := by
        have hevents : events = (before ++ .closed :: more) ++ .signalled w :: rest := by
          simp [hsplit, hmore]
        rw [hevents]
        exact List.mem_append_left _ hsub'
      rw [← submitted_unique ha hsub hmem] at hnot
      exact hnot (hid' hover)

end Delivery

/-- A `close` between the acceptance of an input and the end of the turn: `finish_if_empty`
answers true though the accepted input was never taken. -/
theorem finished_without_taking :
    let turn : TurnId := ⟨0⟩
    let events := (machine.run (new turn) [.submit turn "one" "change", .close, .finishIfEmpty]).2
    .finished true ∈ events ∧ "one" ∈ acceptedIds events ∧ "one" ∉ takenIds events := by
  decide +kernel

end AxiomDesktop.TurnSteering
