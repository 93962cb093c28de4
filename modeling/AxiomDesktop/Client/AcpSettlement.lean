import AxiomDesktop.Client.AcpFraming
import AxiomDesktop.Data.JsonReader

/-!
# How a request is settled

The response promise of a request is settled by the first response with its id since it was issued,
by its timer or by the end of the process, and it waits as long as there was none of them
(`CallHolds`, `run_holds`). What the caller got does not change any more (`run_outcome`).
-/

namespace AxiomDesktop.Client

/-! ## Calls -/

/-- The write of the request failed. -/
def Call.Failed (c : Call) : Prop := ∃ error, c.write = .failed error

/-- A write is over once, and a promise is settled once. -/
def Call.Follows (c d : Call) : Prop :=
  (d.write = c.write ∨ c.write = .waiting) ∧ (c.response = none ∨ d.response = c.response)

theorem Call.Follows.refl (c : Call) : Call.Follows c c := ⟨.inl rfl, .inr rfl⟩

theorem Call.Follows.trans {c d e : Call} (h : Call.Follows c d) (h' : Call.Follows d e) :
    Call.Follows c e := by
  refine ⟨?_, ?_⟩
  · obtain hwrite | hwaiting := h.1
    · rw [← hwrite]
      exact h'.1
    · exact .inr hwaiting
  · obtain hnone | hresponse := h.2
    · exact .inl hnone
    · rw [← hresponse]
      exact h'.2

theorem Call.Follows.outcome {c d : Call} (h : Call.Follows c d) {settlement : Settlement}
    (hc : c.outcome = some settlement) : d.outcome = some settlement := by
  obtain ⟨hwrite, hresponse⟩ := h
  unfold Call.outcome at hc ⊢
  cases hstate : c.write with
  | waiting =>
    rw [hstate] at hc
    cases hc
  | failed error =>
    rw [hwrite.resolve_right (by rw [hstate]; simp), hstate]
    rwa [hstate] at hc
  | done =>
    rw [hwrite.resolve_right (by rw [hstate]; simp), hstate]
    rw [hstate] at hc
    obtain hnone | hsame := hresponse
    · rw [hnone] at hc
      cases hc
    · rwa [hsame]

theorem Call.follows_settle (c : Call) (cause : Cause) (settlement : Settlement) :
    Call.Follows c (c.settle cause settlement) := by
  refine ⟨.inl rfl, ?_⟩
  unfold Call.settle
  cases hresponse : c.response with
  | none => exact .inl rfl
  | some r => exact .inr rfl

namespace AcpProcess

variable {J : JavaScript} {p q : AcpProcess} {os more : List Happening} {id : Nat} {c : Call}

/-! ## What settles a request -/

/-- The events that settle a request, beside the end of the process. -/
def Answers (id : Nat) : Happening → Prop
  | .response other _ => other = id
  | .timedOut other => other = id
  | _ => False

/-- Since the request was issued nothing has answered it. -/
abbrev Unanswered (id : Nat) (os : List Happening) : Prop :=
  Since (· = .issued id) (Answers id) os

/-- The first answer since the request was issued. -/
def FirstAnswer (os : List Happening) (id : Nat) (o : Happening) : Prop :=
  ∃ before after, os = before ++ o :: after ∧ Unanswered id before

/-- What a response promise was settled with, and why. -/
def Settled (os : List Happening) (p : AcpProcess) (id : Nat) : Option (Cause × Settlement) → Prop
  | none => Unanswered id os ∧ p.terminalError = none
  | some (.response, settlement) => FirstAnswer os id (.response id settlement)
  | some (.timeout, settlement) => FirstAnswer os id (.timedOut id) ∧
      ∃ method, settlement = .error (.protocol (method ++ " timed out"))
  | some (.termination, settlement) => ∃ error, p.terminalError = some error ∧
      settlement = .error error

/-- A call whose write fails before a response is settled by that; it waits for none any more. -/
structure CallHolds (os : List Happening) (p : AcpProcess) (id : Nat) (c : Call) : Prop where
  settled : c.response ≠ none ∨ ¬Call.Failed c → Settled os p id c.response
  pending : p.pending id ≠ none ↔ c.response = none ∧ ¬Call.Failed c

/-- The calls of a run so far. -/
structure CallsHold (os : List Happening) (p : AcpProcess) : Prop where
  calls : ∀ id c, p.calls id = some c → id < p.nextId ∧ CallHolds os p id c
  pending : ∀ id, p.calls id = none → p.pending id = none

/-! ## Steps -/

@[simp] theorem setCall_self (id : Nat) (f : Call → Call) :
    (p.setCall id f).calls id = (p.calls id).map f := by simp [setCall]

theorem setCall_of_ne {other : Nat} (h : other ≠ id) (f : Call → Call) :
    (p.setCall id f).calls other = p.calls other := by simp [setCall, h]

@[simp] theorem deletePending_self (id : Nat) : (p.deletePending id).pending id = none := by
  simp [deletePending]

theorem deletePending_of_ne {other : Nat} (h : other ≠ id) :
    (p.deletePending id).pending other = p.pending other := by simp [deletePending, h]

@[simp] theorem issue_calls (method : String) (timeoutMs : Nat) :
    (p.issue method timeoutMs).calls p.nextId = some {} := by simp [AcpProcess.issue]

theorem issue_of_ne {other : Nat} (h : other ≠ p.nextId) (method : String) (timeoutMs : Nat) :
    (p.issue method timeoutMs).calls other = p.calls other ∧
      (p.issue method timeoutMs).pending other = p.pending other := by
  simp [AcpProcess.issue, h]

theorem FirstAnswer.append {o : Happening} (h : FirstAnswer os id o) (more : List Happening) :
    FirstAnswer (os ++ more) id o := by
  obtain ⟨before, after, rfl, hbefore⟩ := h
  exact ⟨before, after ++ more, by rw [List.append_assoc, List.cons_append], hbefore⟩

/-- What happens beside a call. -/
theorem Settled.append {r : Option (Cause × Settlement)} (h : Settled os p id r)
    (hmore : ∀ o ∈ more, ¬Answers id o) (hterminal : q.terminalError = p.terminalError) :
    Settled (os ++ more) q id r := by
  match r with
  | none => exact ⟨h.1.append hmore, hterminal.trans h.2⟩
  | some (.response, settlement) => exact FirstAnswer.append h more
  | some (.timeout, settlement) => exact ⟨h.1.append more, h.2⟩
  | some (.termination, settlement) =>
    obtain ⟨error, herror, heq⟩ := h
    exact ⟨error, hterminal.trans herror, heq⟩

theorem Settled.congr {r : Option (Cause × Settlement)} (h : Settled os p id r)
    (hterminal : q.terminalError = p.terminalError) : Settled os q id r := by
  have happend : Settled (os ++ []) q id r :=
    h.append (fun _ h => absurd h List.not_mem_nil) hterminal
  rwa [List.append_nil] at happend

theorem CallHolds.append (h : CallHolds os p id c) (hmore : ∀ o ∈ more, ¬Answers id o)
    (hterminal : q.terminalError = p.terminalError) (hpending : q.pending id = p.pending id) :
    CallHolds (os ++ more) q id c :=
  ⟨fun hc => (h.settled hc).append hmore hterminal, by rw [hpending]; exact h.pending⟩

/-- The calls are as they were. -/
theorem CallsHold.append (h : CallsHold os p) (hmore : ∀ id, ∀ o ∈ more, ¬Answers id o)
    (hterminal : q.terminalError = p.terminalError) (hpending : q.pending = p.pending)
    (hcalls : q.calls = p.calls) (hnext : q.nextId = p.nextId) : CallsHold (os ++ more) q := by
  refine ⟨fun id c hc => ?_, fun id hc => ?_⟩
  · obtain ⟨hlt, hcall⟩ := h.calls id c (hcalls ▸ hc)
    exact ⟨hnext ▸ hlt, hcall.append (hmore id) hterminal (by rw [hpending])⟩
  · rw [hpending]
    exact h.pending id (hcalls ▸ hc)

theorem CallsHold.congr (h : CallsHold os p) (hterminal : q.terminalError = p.terminalError)
    (hpending : q.pending = p.pending) (hcalls : q.calls = p.calls) (hnext : q.nextId = p.nextId) :
    CallsHold os q := by
  have happend : CallsHold (os ++ []) q :=
    h.append (fun _ _ h => absurd h List.not_mem_nil) hterminal hpending hcalls hnext
  rwa [List.append_nil] at happend

/-- One call and what is pending for it change. -/
theorem CallsHold.set (h : CallsHold os p) (id : Nat) (hmore : ∀ other ≠ id, ∀ o ∈ more, ¬Answers other o)
    (hterminal : q.terminalError = p.terminalError) (hnext : q.nextId = p.nextId)
    (hpending : ∀ other ≠ id, q.pending other = p.pending other)
    (hcalls : ∀ other ≠ id, q.calls other = p.calls other)
    (hcall : ∀ c, q.calls id = some c → id < p.nextId ∧ CallHolds (os ++ more) q id c)
    (hnone : q.calls id = none → q.pending id = none) : CallsHold (os ++ more) q := by
  refine ⟨fun other c hc => ?_, fun other hc => ?_⟩
  · by_cases hother : other = id
    · subst hother
      exact ⟨hnext ▸ (hcall c hc).1, (hcall c hc).2⟩
    · obtain ⟨hlt, hholds⟩ := h.calls other c (hcalls other hother ▸ hc)
      exact ⟨hnext ▸ hlt, hholds.append (hmore other hother) hterminal (hpending other hother)⟩
  · by_cases hother : other = id
    · subst hother
      exact hnone hc
    · rw [hpending other hother]
      exact h.pending other (hcalls other hother ▸ hc)

/-- The end of the process settles what is pending. -/
theorem CallsHold.finish (h : CallsHold os p) (error : ProcessError) :
    CallsHold (os ++ (p.finish error).2) (p.finish error).1 := by
  unfold AcpProcess.finish
  cases hterminal : p.terminalError with
  | some e => exact h.append (fun _ _ h => absurd h List.not_mem_nil) rfl rfl rfl rfl
  | none =>
    refine ⟨fun id c hc => ?_, fun id _ => rfl⟩
    have hcalls : (if (p.pending id).isSome then
        (p.calls id).map (·.settle .termination (.error error)) else p.calls id) = some c := hc
    by_cases hpending : p.pending id = none
    · rw [hpending, Option.isSome_none, if_neg Bool.false_ne_true] at hcalls
      obtain ⟨hlt, hholds⟩ := h.calls id c hcalls
      refine ⟨hlt, fun hc => ?_, ?_⟩
      · have hold := hholds.settled hc
        have hnot := mt hholds.pending.mpr (not_not.mpr hpending)
        match hresponse : c.response with
        | none =>
          rw [hresponse] at hnot hc
          exact absurd ⟨rfl, hc.resolve_left (fun h => h rfl)⟩ hnot
        | some (.response, settlement) =>
          rw [hresponse] at hold
          exact FirstAnswer.append hold _
        | some (.timeout, settlement) =>
          rw [hresponse] at hold
          exact ⟨hold.1.append _, hold.2⟩
        | some (.termination, settlement) =>
          rw [hresponse] at hold
          obtain ⟨e, he, -⟩ := hold
          rw [hterminal] at he
          cases he
      · exact iff_of_false (fun h => h rfl) fun hnone =>
          absurd (hholds.pending.mpr hnone) (not_not.mpr hpending)
    · obtain ⟨r, hr⟩ := Option.ne_none_iff_exists'.mp hpending
      rw [hr, Option.isSome_some, if_pos rfl] at hcalls
      obtain ⟨old, hold, rfl⟩ := Option.map_eq_some_iff.mp hcalls
      obtain ⟨hlt, hholds⟩ := h.calls id old hold
      have hwaits := (hholds.pending.mp hpending).1
      refine ⟨hlt, fun _ => ?_, iff_of_false (fun h => h rfl) fun hnone => ?_⟩
      · unfold Call.settle
        rw [hwaits]
        exact ⟨error, rfl, rfl⟩
      · cases hnone.1

/-- A request is issued under a new number. -/
theorem CallsHold.issue (h : CallsHold os p) (hopen : p.terminalError = none) (method : String)
    (timeoutMs : Nat) : CallsHold (os ++ [.issued p.nextId]) (p.issue method timeoutMs) := by
  have hnot : ∀ id, ∀ o ∈ [Happening.issued p.nextId], ¬Answers id o :=
    fun id => List.forall_mem_singleton.mpr fun h => h
  refine ⟨fun id c hc => ?_, fun id hc => ?_⟩
  · by_cases hid : id = p.nextId
    · subst hid
      rw [issue_calls] at hc
      obtain rfl := Option.some.inj hc
      refine ⟨Nat.lt_succ_self _, fun _ => ⟨since_snoc.mpr (.inl rfl), hopen⟩, iff_of_true ?_ ?_⟩
      · simp [AcpProcess.issue]
      · exact ⟨rfl, fun hfailed => nomatch hfailed.choose_spec⟩
    · obtain ⟨hcalls, hpending⟩ := issue_of_ne hid method timeoutMs
      obtain ⟨hlt, hholds⟩ := h.calls id c (hcalls ▸ hc)
      exact ⟨Nat.lt_succ_of_lt hlt, hholds.append (hnot id) rfl hpending⟩
  · by_cases hid : id = p.nextId
    · subst hid
      rw [issue_calls] at hc
      cases hc
    · obtain ⟨hcalls, hpending⟩ := issue_of_ne hid method timeoutMs
      exact hpending.trans (h.pending id (hcalls ▸ hc))

/-- The write of a request fails. -/
theorem CallsHold.failWrite (h : CallsHold os p) (id : Nat) (error : ProcessError) :
    CallsHold os (p.failWrite id error) := by
  have hset : CallsHold (os ++ []) (p.failWrite id error) := h.set id
    (fun _ _ _ h => absurd h List.not_mem_nil) rfl rfl (fun _ hne => deletePending_of_ne hne)
    (fun _ hne => setCall_of_ne hne _) ?_ (fun _ => deletePending_self id)
  · rwa [List.append_nil] at hset
  · intro c hc
    obtain ⟨old, hold, rfl⟩ := Option.map_eq_some_iff.mp ((setCall_self id _).symm.trans hc)
    obtain ⟨hlt, hholds⟩ := h.calls id old hold
    refine ⟨hlt, fun hc => ?_, iff_of_false (fun h => h (deletePending_self id)) fun hnone => ?_⟩
    · rw [List.append_nil]
      obtain hc | hc := hc
      · exact (hholds.settled (.inl hc)).congr rfl
      · exact absurd ⟨error, rfl⟩ hc
    · exact hnone.2 ⟨error, rfl⟩

/-- The write of a request is over. -/
theorem CallsHold.written (h : CallsHold os p) {response : Option (Cause × Settlement)}
    (hc : p.calls id = some ⟨.waiting, response⟩) :
    CallsHold os (p.setCall id fun c => { c with write := .done }) := by
  have hset : CallsHold (os ++ []) (p.setCall id fun c => { c with write := .done }) := h.set id
    (fun _ _ _ h => absurd h List.not_mem_nil) rfl rfl (fun _ _ => rfl)
    (fun _ hne => setCall_of_ne hne _) ?_ ?_
  · rwa [List.append_nil] at hset
  · intro c hnew
    have hnew := (setCall_self id _).symm.trans hnew
    rw [hc] at hnew
    obtain rfl := Option.some.inj hnew
    obtain ⟨hlt, hholds⟩ := h.calls id _ hc
    have hnot : ∀ write : CallWrite, (∀ e, write ≠ .failed e) → ¬Call.Failed ⟨write, response⟩ :=
      fun write hwrite hfailed => hwrite _ hfailed.choose_spec
    rw [List.append_nil]
    refine ⟨hlt, fun _ => ?_, ?_⟩
    · exact (hholds.settled (.inr (hnot .waiting fun _ => nofun))).congr rfl
    · exact hholds.pending.trans (and_congr_right fun _ =>
        iff_of_true (hnot .waiting fun _ => nofun) (hnot .done fun _ => nofun))
  · intro hnone
    have hnone := (setCall_self id _).symm.trans hnone
    rw [hc] at hnone
    cases hnone

/-- An answer settles what is pending, and is the first one. -/
theorem CallsHold.settle (h : CallsHold os p) (hpending : p.pending id ≠ none) {cause : Cause}
    {settlement : Settlement} {o : Happening} (ho : ∀ other ≠ id, ¬Answers other o)
    (hsettled : FirstAnswer (os ++ [o]) id o →
      Settled (os ++ [o]) p id (some (cause, settlement))) :
    CallsHold (os ++ [o]) ((p.deletePending id).setCall id (·.settle cause settlement)) := by
  refine h.set id (fun other hne => List.forall_mem_singleton.mpr (ho other hne)) rfl rfl
    (fun _ hne => deletePending_of_ne hne) (fun _ hne => setCall_of_ne hne _) ?_
    fun _ => deletePending_self id
  intro c hc
  obtain ⟨old, hold, rfl⟩ := Option.map_eq_some_iff.mp ((setCall_self id _).symm.trans hc)
  obtain ⟨hlt, hholds⟩ := h.calls id old hold
  obtain ⟨hwaits, hfailed⟩ := hholds.pending.mp hpending
  have hopen := hholds.settled (.inr hfailed)
  rw [hwaits] at hopen
  refine ⟨hlt, fun _ => ?_, iff_of_false (fun h => h (deletePending_self id)) fun hnone => ?_⟩
  · unfold Call.settle
    rw [hwaits]
    have hfirst := hsettled ⟨os, [], rfl, hopen.1⟩
    exact hfirst.congr rfl
  · cases hnone.1

/-- An answer to what is not pending. -/
theorem CallsHold.late (h : CallsHold os p) (hpending : p.pending id = none) {o : Happening}
    (ho : ∀ other ≠ id, ¬Answers other o) : CallsHold (os ++ [o]) p := by
  refine h.set id (fun other hne => List.forall_mem_singleton.mpr (ho other hne)) rfl rfl
    (fun _ _ => rfl) (fun _ _ => rfl) (fun c hc => ?_) fun _ => hpending
  obtain ⟨hlt, hholds⟩ := h.calls id c hc
  refine ⟨hlt, fun hc => ?_, hholds.pending⟩
  have hold := hholds.settled hc
  have hnot := mt hholds.pending.mpr (not_not.mpr hpending)
  match hresponse : c.response with
  | none =>
    rw [hresponse] at hnot hc
    exact absurd ⟨rfl, hc.resolve_left (fun h => h rfl)⟩ hnot
  | some (.response, settlement) =>
    rw [hresponse] at hold
    exact FirstAnswer.append hold _
  | some (.timeout, settlement) =>
    rw [hresponse] at hold
    exact ⟨hold.1.append _, hold.2⟩
  | some (.termination, settlement) =>
    rw [hresponse] at hold
    exact hold

/-- What is no answer. -/
theorem CallsHold.other (h : CallsHold os p) (hmore : ∀ id, ∀ o ∈ more, ¬Answers id o) :
    CallsHold (os ++ more) p := h.append hmore rfl rfl rfl rfl

theorem CallsHold.cleared (h : CallsHold os p) (remainder : List UInt8) :
    CallsHold os { p with stdoutRemainder := remainder } :=
  h.congr rfl rfl rfl rfl

theorem CallsHold.startWrite (h : CallsHold os p) (write : WriteStart) :
    CallsHold (os ++ (p.startWrite write).1.2) (p.startWrite write).1.1 := by
  have hnone : CallsHold (os ++ []) p := by rwa [List.append_nil]
  unfold AcpProcess.startWrite
  split
  · exact hnone
  · cases write with
    | accepted => exact hnone
    | notWritable => exact h.finish _
    | tooLarge => exact hnone

/-- The timer of a request settles it before anything else does. -/
theorem timeout_settles (p : AcpProcess) (id : Nat) (write : WriteStart) (f : Call → Call) :
    ((p.deletePending id).startWrite write).1.1.setCall id f =
        (((p.deletePending id).setCall id f).startWrite write).1.1 ∧
      ((p.deletePending id).startWrite write).1.2 =
        (((p.deletePending id).setCall id f).startWrite write).1.2 := by
  obtain ⟨nextId, pending, terminalError, stdoutRemainder, calls, framingError⟩ := p
  cases terminalError with
  | some e => exact ⟨rfl, rfl⟩
  | none =>
    cases write with
    | accepted => exact ⟨rfl, rfl⟩
    | tooLarge => exact ⟨rfl, rfl⟩
    | notWritable =>
      refine ⟨?_, rfl⟩
      simp only [AcpProcess.startWrite, deletePending, setCall, AcpProcess.finish, failAll,
        AcpProcess.mk.injEq, true_and, and_true]
      funext other
      by_cases hother : other = id
      · subst hother
        simp
      · simp [Function.update_of_ne hother]

theorem CallsHold.refuse (h : CallsHold os p) (message : String) :
    CallsHold (os ++ (p.refuse message).2) (p.refuse message).1 := by
  have hfinish := h.finish (.protocol message)
  have hflag : CallsHold (os ++ (p.finish (.protocol message)).2) (p.refuse message).1 :=
    hfinish.congr rfl rfl rfl rfl
  unfold AcpProcess.refuse at hflag ⊢
  dsimp only at hflag ⊢
  split
  · exact hflag
  · rw [← List.append_assoc]
    exact hflag.other fun id => List.forall_mem_singleton.mpr fun h => h

theorem CallsHold.acceptValue (h : CallsHold os p) (value : Json) :
    CallsHold (os ++ (acceptValue J p value).2) (acceptValue J p value).1 := by
  have hnone : CallsHold (os ++ []) p := by rwa [List.append_nil]
  unfold AcpProcess.acceptValue
  split
  · split
    · exact hnone
    · next id _ =>
      unfold acceptResponse
      have hlate : p.pending id = none → CallsHold (os ++ if p.terminalError.isSome then [] else
          [.response id (settlementOf J value)]) p := by
        intro hpending
        split
        · exact hnone
        · exact h.late hpending fun other hne heq => hne heq.symm
      cases hpending : p.pending id with
      | none => exact hlate hpending
      | some waiting =>
        -- what is pending is pending in a process that is not closed
        have hpending : p.pending id ≠ none := by
          rw [hpending]
          exact Option.some_ne_none _
        have hopen : p.terminalError = none := by
          cases hcall : p.calls id with
          | none => exact absurd (h.pending id hcall) hpending
          | some c =>
            have hholds := (h.calls id c hcall).2
            obtain ⟨hwaits, hfailed⟩ := hholds.pending.mp hpending
            have hsettled := hholds.settled (.inr hfailed)
            rw [hwaits] at hsettled
            exact hsettled.2
        dsimp only
        rw [hopen, Option.isSome_none, if_neg Bool.false_ne_true]
        exact h.settle hpending (fun other hne heq => hne heq.symm) fun hfirst => hfirst
  · split
    · refine h.other fun id => List.forall_mem_singleton.mpr ?_
      split <;> exact fun h => h
    · exact hnone

theorem CallsHold.acceptChunk (h : CallsHold os p) (chunk : List UInt8) :
    CallsHold (os ++ (acceptChunk J p chunk).2) (acceptChunk J p chunk).1 := by
  have hnone : ∀ {os p}, CallsHold os p → CallsHold (os ++ []) p := fun h => by
    rwa [List.append_nil]
  induction chunk using lines_induction generalizing os p with
  | last segment hsegment =>
    rw [acceptChunk_last hsegment]
    split
    · exact hnone h
    · split
      · exact h.refuse _
      · exact hnone (h.cleared _)
  | line segment rest hsegment ih =>
    rw [acceptChunk_line hsegment]
    split
    · exact h.refuse _
    · split
      · exact ih (h.cleared [])
      · unfold acceptLine
        cases J.parse (lineText (p.stdoutRemainder ++ segment)) with
        | none =>
          have hrefuse := ih ((h.cleared []).refuse "AxiomCLI emitted malformed JSON on stdout")
          rwa [List.append_assoc] at hrefuse
        | some value =>
          have hvalue := ih ((h.cleared []).acceptValue (J := J) value)
          rw [List.append_assoc] at hvalue
          cases value with
          | null => exact hnone (h.cleared [])
          | _ => exact hvalue

/-- One event. -/
theorem CallsHold.step (h : CallsHold os p) (e : ProcessEvent) :
    CallsHold (os ++ ((machine J).step p e).2) ((machine J).step p e).1 := by
  have hnone : CallsHold (os ++ []) p := by rwa [List.append_nil]
  cases e with
  | stdout chunk => exact h.acceptChunk chunk
  | notify write => exact h.startWrite write
  | failed error => exact h.finish error
  | request method timeoutMs write =>
    show CallsHold (os ++ (p.request method timeoutMs write).2) (p.request method timeoutMs write).1
    have hcases := p.request_cases method timeoutMs write
    generalize p.request method timeoutMs write = r at hcases ⊢
    cases hcases with
    | refused _ error => exact h.other fun id => List.forall_mem_singleton.mpr fun h => h
    | sent hopen => exact h.issue hopen method timeoutMs
    | notWritable hopen error =>
      have hfinish := ((h.issue hopen method timeoutMs).finish error).failWrite p.nextId error
      rwa [List.append_assoc] at hfinish
    | tooLarge hopen error => exact (h.issue hopen method timeoutMs).failWrite p.nextId error
  | written id error =>
    show CallsHold (os ++ (p.written id error).2) (p.written id error).1
    unfold AcpProcess.written
    split
    · next hc =>
      rw [List.append_nil]
      exact h.written hc
    · exact (h.finish _).failWrite id _
    · exact hnone
  | timeout id write =>
    show CallsHold (os ++ (p.timeout id write).2) (p.timeout id write).1
    unfold AcpProcess.timeout
    split
    · next method hpending =>
      obtain ⟨hstate, hlog⟩ := timeout_settles p id write
        (·.settle .timeout (.error (.protocol (method ++ " timed out"))))
      dsimp only
      rw [hstate, hlog, ← List.singleton_append, ← List.append_assoc]
      refine CallsHold.startWrite ?_ write
      refine h.settle (by rw [hpending]; exact Option.some_ne_none _)
        (fun other hne heq => hne heq.symm) fun hfirst => ⟨hfirst, method, rfl⟩
    · exact hnone

/-- **Calls.** In every run each call is settled as `CallHolds` says. -/
theorem run_holds (is : List ProcessEvent) :
    CallsHold ((machine J).run {} is).2 ((machine J).run {} is).1 :=
  (machine J).run_induction (C := fun _ _ => True) (motive := fun _ os p => CallsHold os p)
    ⟨fun _ _ h => (by cases h), fun _ _ => rfl⟩ (fun _ _ _ e h _ => h.step e) is
    ((machine J).meets_of_forall (fun _ _ _ => trivial) {})

/-! ## What a caller got -/

/-- Every call is kept, and follows what it was. -/
def Keeps (p q : AcpProcess) : Prop :=
  ∀ id c, p.calls id = some c → ∃ d, q.calls id = some d ∧ Call.Follows c d

theorem Keeps.of_eq (h : q.calls = p.calls) : Keeps p q :=
  fun _ c hc => ⟨c, by rw [h, hc], .refl c⟩

theorem Keeps.trans {r : AcpProcess} (h : Keeps p q) (h' : Keeps q r) : Keeps p r := by
  intro id c hc
  obtain ⟨d, hd, hcd⟩ := h id c hc
  obtain ⟨e, he, hde⟩ := h' id d hd
  exact ⟨e, he, hcd.trans hde⟩

theorem Keeps.setCall {f : Call → Call} (hf : ∀ c, p.calls id = some c → Call.Follows c (f c)) :
    Keeps p (p.setCall id f) := by
  intro other c hc
  by_cases hother : other = id
  · subst hother
    exact ⟨f c, by rw [setCall_self, hc]; rfl, hf c hc⟩
  · exact ⟨c, by rw [setCall_of_ne hother, hc], .refl c⟩

theorem Keeps.finish (error : ProcessError) : Keeps p (p.finish error).1 := by
  unfold AcpProcess.finish
  split
  · exact .of_eq rfl
  · intro id c hc
    by_cases hpending : (p.pending id).isSome
    · exact ⟨_, (if_pos hpending).trans (by rw [hc]; rfl), c.follows_settle _ _⟩
    · exact ⟨c, (if_neg hpending).trans hc, .refl c⟩

theorem finish_write {error : ProcessError} {d : Call} (h : (p.finish error).1.calls id = some d) :
    ∃ c, p.calls id = some c ∧ d.write = c.write := by
  unfold AcpProcess.finish at h
  split at h
  · exact ⟨d, h, rfl⟩
  · have hcalls : (if (p.pending id).isSome then
        (p.calls id).map (·.settle .termination (.error error)) else p.calls id) = some d := h
    split at hcalls
    · obtain ⟨c, hc, rfl⟩ := Option.map_eq_some_iff.mp hcalls
      exact ⟨c, hc, rfl⟩
    · exact ⟨d, hcalls, rfl⟩

theorem Keeps.failWrite (id : Nat) (error : ProcessError)
    (h : ∀ c, p.calls id = some c → c.write = .waiting) : Keeps p (p.failWrite id error) :=
  Keeps.setCall (p := p.deletePending id) fun c hc => ⟨.inr (h c hc), .inr rfl⟩

theorem Keeps.startWrite (write : WriteStart) : Keeps p (p.startWrite write).1.1 := by
  unfold AcpProcess.startWrite
  split
  · exact .of_eq rfl
  · cases write with
    | accepted => exact .of_eq rfl
    | notWritable => exact .finish _
    | tooLarge => exact .of_eq rfl

theorem Keeps.acceptValue (value : Json) : Keeps p (acceptValue J p value).1 := by
  unfold AcpProcess.acceptValue
  split
  · split
    · exact .of_eq rfl
    · unfold acceptResponse
      dsimp only
      split
      · exact .of_eq rfl
      · exact Keeps.setCall (p := p.deletePending _) fun c _ => c.follows_settle _ _
  · split <;> exact .of_eq rfl

theorem Keeps.acceptChunk (chunk : List UInt8) : Keeps p (acceptChunk J p chunk).1 := by
  have hrefuse : ∀ {q : AcpProcess} (message : String), Keeps q (q.refuse message).1 :=
    fun {q} message => (Keeps.finish (p := q) (.protocol message)).trans (.of_eq rfl)
  induction chunk using lines_induction generalizing p with
  | last segment hsegment =>
    rw [acceptChunk_last hsegment]
    split
    · exact .of_eq rfl
    · split
      · exact hrefuse _
      · exact .of_eq rfl
  | line segment rest hsegment ih =>
    rw [acceptChunk_line hsegment]
    have hcleared : Keeps p { p with stdoutRemainder := [] } := .of_eq rfl
    split
    · exact hrefuse _
    · split
      · exact hcleared.trans ih
      · unfold acceptLine
        cases J.parse (lineText (p.stdoutRemainder ++ segment)) with
        | none => exact hcleared.trans ((hrefuse _).trans ih)
        | some value =>
          have hvalue := (hcleared.trans (Keeps.acceptValue (J := J) value)).trans ih
          cases value with
          | null => exact hcleared
          | _ => exact hvalue

theorem Keeps.step (h : CallsHold os p) (e : ProcessEvent) :
    Keeps p ((machine J).step p e).1 := by
  cases e with
  | stdout chunk => exact .acceptChunk chunk
  | notify write => exact .startWrite write
  | failed error => exact .finish error
  | request method timeoutMs write =>
    show Keeps p (p.request method timeoutMs write).1
    have hissue : Keeps p (p.issue method timeoutMs) := by
      intro id c hc
      have hne : id ≠ p.nextId := Nat.ne_of_lt (h.calls id c hc).1
      exact ⟨c, (issue_of_ne hne method timeoutMs).1.trans hc, .refl c⟩
    have hwaiting : ∀ c, (p.issue method timeoutMs).calls p.nextId = some c →
        c.write = .waiting := by
      intro c hc
      rw [issue_calls] at hc
      obtain rfl := Option.some.inj hc
      rfl
    have hcases := p.request_cases method timeoutMs write
    generalize p.request method timeoutMs write = r at hcases ⊢
    cases hcases with
    | refused _ error => exact .of_eq rfl
    | sent _ => exact hissue
    | notWritable hopen error =>
      refine hissue.trans ((Keeps.finish error).trans (.failWrite _ _ fun d hd => ?_))
      obtain ⟨c, hc, hwrite⟩ := finish_write hd
      exact hwrite.trans (hwaiting c hc)
    | tooLarge hopen error => exact hissue.trans (.failWrite _ _ hwaiting)
  | written id error =>
    show Keeps p (p.written id error).1
    unfold AcpProcess.written
    split
    · next hc =>
      refine Keeps.setCall fun c hc' => ⟨.inr ?_, .inr rfl⟩
      obtain rfl := Option.some.inj (hc.symm.trans hc')
      rfl
    · next hc =>
      refine (Keeps.finish _).trans (.failWrite _ _ fun d hd => ?_)
      obtain ⟨c, hc', hwrite⟩ := finish_write hd
      obtain rfl := Option.some.inj (hc.symm.trans hc')
      exact hwrite
    · exact .of_eq rfl
  | timeout id write =>
    show Keeps p (p.timeout id write).1
    unfold AcpProcess.timeout
    split
    · have hstart := Keeps.startWrite (p := p.deletePending id) write
      exact Keeps.trans (q := p.deletePending id) (.of_eq rfl)
        (hstart.trans (Keeps.setCall fun c _ => c.follows_settle _ _))
    · exact .of_eq rfl

/-- **Once.** What a caller got does not change in the rest of a run. -/
theorem run_keeps (is more : List ProcessEvent) :
    Keeps ((machine J).run {} is).1 ((machine J).run {} (is ++ more)).1 := by
  rw [Machine.run_append]
  have hstart := run_holds (J := J) is
  generalize ((machine J).run {} is).1 = p at hstart ⊢
  refine ((machine J).run_invariant' (P := fun q => (∃ os, CallsHold os q) ∧ Keeps p q)
    (fun q e h => ?_) ⟨⟨_, hstart⟩, .of_eq rfl⟩ more).2
  obtain ⟨⟨os, hos⟩, hkeeps⟩ := h
  exact ⟨⟨_, hos.step e⟩, hkeeps.trans (.step hos e)⟩

/-! ## The process -/

/-- **The process of the agent.** A run whose chunks are quiet reads what the framing reads of its
bytes, with the same error, and no message behind one that was refused; so do two runs that differ
in how the bytes are cut. In every run each call is settled once, by the first response with its id,
its timer, its write or the end of the process. Where a line or a frame was refused, a message
behind it is passed on. -/
theorem framing_and_settlement (J : JavaScript) :
    (∀ is, (machine J).Meets (Quiet J) {} is →
      ((framing J).run {} (is.flatMap bytesOf)).2 = ((machine J).run {} is).2 ∧
      ((framing J).run {} (is.flatMap bytesOf)).1.terminalError =
        ((machine J).run {} is).1.terminalError ∧
      Always NoneBehind ((machine J).run {} is).2) ∧
    (∀ is is', (machine J).Meets (Quiet J) {} is → (machine J).Meets (Quiet J) {} is' →
      is.flatMap bytesOf = is'.flatMap bytesOf →
      ((machine J).run {} is).2 = ((machine J).run {} is').2 ∧
      ((machine J).run {} is).1.terminalError = ((machine J).run {} is').1.terminalError) ∧
    (∀ is, CallsHold ((machine J).run {} is).2 ((machine J).run {} is).1 ∧
      ∀ id c settlement, ((machine J).run {} is).1.calls id = some c →
        c.outcome = some settlement → ∀ more, ∃ d,
          ((machine J).run {} (is ++ more)).1.calls id = some d ∧ d.outcome = some settlement) ∧
    ∀ is, ((machine J).run {} is).1.framingError = true → ∀ line value, LF ∉ line →
      line.length ≤ MAX_FRAME_BYTES → lineText line ≠ "" →
      J.parse (lineText line) = some value → Emits value →
      ∃ o ∈ ((machine J).run ((machine J).run {} is).1
        [.stdout [LF], .stdout (line ++ [LF])]).2, o.IsMessage := by
  have hframing : ∀ {is}, (machine J).Meets (Quiet J) {} is →
      ((framing J).run {} (is.flatMap bytesOf)).2 = ((machine J).run {} is).2 ∧
      ((framing J).run {} (is.flatMap bytesOf)).1.terminalError =
        ((machine J).run {} is).1.terminalError := fun h =>
    ⟨(run_framing h).1, (run_framing h).2.1.terminalError⟩
  refine ⟨fun is h => ?_, fun is is' h h' hbytes => ?_, fun is => ⟨run_holds is, ?_⟩, ?_⟩
  · exact ⟨(hframing h).1, (hframing h).2, (hframing h).1 ▸ framing_none_behind is⟩
  · rw [← (hframing h).1, ← (hframing h).2, hbytes]
    exact ⟨(hframing h').1, (hframing h').2⟩
  · intro id c settlement hc houtcome more
    obtain ⟨d, hd, hfollows⟩ := run_keeps (J := J) is more id c hc
    exact ⟨d, hd, hfollows.outcome houtcome⟩
  · intro is _ line value hline hfits hne hparse hemits
    exact message_behind is hline hfits hne hparse hemits

/-- `JSON.parse`, and the numbers that are written as ids are. -/
def engine : JavaScript := ⟨Json.ofText, fun literal => Text.digits? literal.toList⟩

/-- A notification: `{"method":"m"}`. -/
def note : List UInt8 := [123, 34, 109, 101, 116, 104, 111, 100, 34, 58, 34, 109, 34, 125]

theorem parse_note : engine.parse (lineText note) = some (.obj [("method", .str "m")]) := by
  have hline : lineText note = "\x7b\"method\":\"m\"\x7d" := by decide
  have htext : (Json.obj [("method", .str "m")]).toText = "\x7b\"method\":\"m\"\x7d" := by decide
  have hnumbers : Json.Numbers (.obj [("method", .str "m")]) := by
    simp [Json.Numbers, Json.NumbersInFields]
  have hparse : engine.parse = Json.ofText := rfl
  rw [hline, ← htext, hparse]
  exact Json.ofText_toText hnumbers

/-- A line that is no JSON, and a notification in the same chunk. -/
theorem notification_behind :
    ¬Always NoneBehind ((machine engine).run {} [.stdout ([120] ++ LF :: (note ++ [LF]))]).2 := by
  have htext : lineText ([] ++ [120]) = "x" := by decide
  have hparse : engine.parse "x" = none := by decide
  have hrefuse : acceptLine engine {} "x" =
      some (AcpProcess.refuse {} "AxiomCLI emitted malformed JSON on stdout") := by
    rw [acceptLine, hparse]
  obtain ⟨o, ho, hmessage⟩ := acceptChunk_message
    (p := (AcpProcess.refuse {} "AxiomCLI emitted malformed JSON on stdout").1) rfl
    (by decide) (by decide) (by decide) parse_note ⟨rfl, "m", rfl⟩
  have hchunk := acceptChunk_line (J := engine) (p := {}) (show LF ∉ [120] by decide) (note ++ [LF])
  have hfits : ¬Overlong {} [120] := by decide
  have hempty : ({} : AcpProcess).stdoutRemainder = [] := rfl
  rw [if_neg hfits, hempty, htext, if_neg (by decide), hrefuse] at hchunk
  obtain ⟨before, after, hlog⟩ := List.append_of_mem ho
  intro h
  rw [Machine.run_cons, Machine.run_nil, List.append_nil] at h
  have hnone := h ((AcpProcess.refuse {} "AxiomCLI emitted malformed JSON on stdout").2 ++ before) o
    after (by
      show (acceptChunk engine {} _).2 = _
      rw [hchunk, List.append_assoc, ← hlog])
  exact hnone (List.mem_append_left _ (by simp [AcpProcess.refuse, AcpProcess.finish])) hmessage

end AcpProcess

end AxiomDesktop.Client
