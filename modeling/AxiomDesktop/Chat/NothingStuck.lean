import AxiomDesktop.Chat.QueueKept

/-!
# No queued message gets stuck

Every call of the queue keeps it in order, and so does what follows a wait. The one call that does
not is `enqueue`, where the thread is not in the client's view or the second write of the message
fails: what `ready` throws leaves the reservation as it is, and nobody sets it up any more
(`enqueue_stuck`). In a run in which that does not happen no message gets stuck
(`nothing_stuck`).
-/

namespace AxiomDesktop.MessageQueue

variable {host : QueueHost} {left : Set String} {busy : List (String × String)}
variable {q q' : MessageQueue} {id threadId : String}

/-! ## The calls of the user -/

theorem pause_ordered (host : QueueHost) (h : Ordered left busy none q) (threadId : String) :
    Ordered left busy none (pause host threadId q) := by
  unfold pause
  dsimp only
  generalize hq₀ : ({ q with freshSends := _ } : MessageQueue) = q₀
  have h₀ : Ordered left busy none q₀ := by
    rw [← hq₀]
    exact h.congr rfl rfl rfl rfl rfl rfl rfl h.stored
  refine Ordered.hold ?_ threadId
  split
  · rename_i i hinterruption
    have hunbound := h₀.unbind hinterruption
    refine Ordered.save ?_ host
    cases hid : i.id with
    | none =>
      rw [hid] at hunbound
      exact hunbound
    | some id =>
      rw [hid] at hunbound
      exact hunbound.queue (fun _ => rfl) fun _ => rfl
  · exact h₀

theorem remove_ordered (host : QueueHost) (h : Ordered left busy none q) (id : String) :
    Ordered left busy none (remove host id q) := by
  unfold remove
  split
  · exact h
  · rename_i item _
    split
    · exact h
    · obtain ⟨saved, writes, storage, reports, hsave, hwrote⟩ := save_eq host
        { q with items := q.items.filter fun item => item.id ≠ id }
      have hdistinct := hwrote.distinct (h.filter _).ids h.stored
      rw [hsave]
      cases saved with
      | false =>
        refine pause_ordered host ?_ item.threadId
        exact h.congr rfl rfl rfl rfl rfl rfl rfl hdistinct
      | true =>
        dsimp only
        generalize hq₀ : ({ q with
          items := q.items.filter fun item => item.id ≠ id
          writes, storage, reports } : MessageQueue) = q₀
        have hgone : Ordered left busy none q₀ := by
          rw [← hq₀]
          exact (h.filter _).congr rfl rfl rfl rfl rfl rfl rfl hdistinct
        have habsent : ∀ item ∈ q₀.items, item.id ≠ id := by
          rw [← hq₀]
          simp
        split
        · rename_i i hinterruption
          split
          · rename_i hname
            have hunbound := hgone.unbind hinterruption
            rw [hname] at hunbound
            have hordered := hunbound.absent fun item hitem => by simpa using habsent item hitem
            exact hordered.congr rfl rfl rfl rfl rfl rfl rfl hordered.stored
          · exact hgone.congr rfl rfl rfl rfl rfl rfl rfl hgone.stored
        · exact hgone.congr rfl rfl rfl rfl rfl rfl rfl hgone.stored

theorem forget_ordered (host : QueueHost) (h : Ordered left busy none q) (threadId : String) :
    Ordered left busy none (forget host threadId q) := by
  unfold forget
  refine Ordered.save ?_ host
  dsimp only
  generalize hq₀ : ({ q with
    items := q.items.filter fun item => item.threadId ≠ threadId
    freshSends := _, paused := _ } : MessageQueue) = q₀
  have hgone : Ordered left busy none q₀ := by
    rw [← hq₀]
    exact (h.filter fun item => item.threadId ≠ threadId).congr rfl rfl rfl rfl rfl rfl rfl h.stored
  cases hinterruption : q₀.interruption threadId with
  | none =>
    have hsame : q₀.interruptions.filter (fun i => i.threadId ≠ threadId) = q₀.interruptions := by
      simpa [interruption] using hinterruption
    exact hgone.congr rfl rfl hsame rfl rfl rfl rfl hgone.stored
  | some i =>
    refine (hgone.uninterrupt hinterruption).absent fun item hitem hname => ?_
    obtain ⟨hi, hthread⟩ := interruption_some hinterruption
    have hitem₀ : item ∈ q₀.items := hitem
    have hhome := (hgone.fits item hitem₀ nofun).homed i hi hname.symm
    rw [← hq₀] at hitem₀
    have hother : item.threadId ≠ threadId := by simpa using (List.mem_filter.mp hitem₀).2
    exact hother (hhome.symm.trans hthread)

theorem sendNow_ordered (host : QueueHost) (h : Ordered left busy none q) (id : String) :
    Ordered left busy none (sendNow host id q) := by
  unfold sendNow
  split
  · exact h
  · rename_i item hfind
    obtain ⟨hitem, rfl⟩ := find_some hfind
    split
    · exact h
    · rename_i hqueued
      simp only [not_or, Bool.not_eq_true, Decidable.not_not] at hqueued
      obtain ⟨hpreparing, hstatus⟩ := hqueued
      have hexcept := h.excepting hitem (.inl hstatus)
      split
      · rename_i session api _ hapi
        split
        · exact h
        · rename_i hconnected
          simp only [not_or, Bool.not_eq_true] at hconnected
          obtain ⟨-, haccount, hstopping⟩ := hconnected
          obtain hcheck | ⟨q', hcheck, hkept⟩ := checkAgentRevision_cases host hexcept
          · rw [hcheck]
            dsimp only
            split
            · rename_i hidle
              refine (dispatch_kept (pump_keeps host host.depth) hexcept hitem hpreparing ?_ ?_
                haccount).ordered
              · simpa using hidle.2
              · rw [hapi]
                nofun
            · generalize hq₀ : MessageQueue.update item.id _ _ = q₀
              have h₀ : Ordered left busy (some item.id) q₀ := by
                rw [← hq₀]
                refine Ordered.update ?_ fun _ => rfl
                exact hexcept.congr rfl rfl rfl rfl rfl rfl rfl hexcept.stored
              have hmem : { item with status := .stopping, error := none } ∈ q₀.items := by
                rw [← hq₀]
                exact mem_update.mpr ⟨item, hitem, if_pos rfl⟩
              have hfree : ∀ j ∈ q₀.interruptions, j.threadId ≠ item.threadId := by
                rw [← hq₀]
                exact isStopping_false hstopping
              obtain ⟨saved, writes, storage, reports, hsave, hwrote⟩ := save_eq host q₀
              rw [hsave]
              cases saved with
              | false =>
                refine Ordered.hold (Ordered.queue ?_ ?_ ?_) _
                · exact h₀.congr rfl rfl rfl rfl rfl rfl rfl (hwrote.distinct h₀.ids h₀.stored)
                · exact fun _ => rfl
                · exact fun _ => rfl
              | true =>
                dsimp only
                have h₁ : Ordered left busy
                    (some ({ item with status := .stopping, error := none } : QueuedMessage).id)
                    q₀ := h₀
                have hinterrupted := h₁.interrupt hmem hpreparing rfl
                  (i := ⟨item.threadId, q₀.tokens, some item.id, false⟩) rfl rfl hfree
                refine Ordered.wait' ?_ le_rfl rfl rfl
                exact hinterrupted.congr rfl rfl rfl rfl rfl rfl rfl (hwrote.distinct h₀.ids h₀.stored)
          · rw [hcheck]
            exact hkept.ordered
      · exact h

/-! ## Messages that are set up -/

theorem refusal_none {text : String} {attachments : List PromptAttachment}
    (h : refusal host text attachments q = none) : q.account ≠ none := by
  intro haccount
  simp [refusal, haccount] at h

/-- A message is reserved, for whoever sets it up, or the queue is left. -/
theorem reserve_cases (host : QueueHost) (h : Ordered left busy none q) (thread : Option String)
    (text : String) (webEnabled : Bool) (attachments : List PromptAttachment)
    (payloadId : Option String) (uuid : String) (hnew : New q (payloadId.getD uuid)) :
    (∃ message q', reserve host thread text webEnabled attachments payloadId uuid q =
        (.error message, q') ∧ Ordered left busy none q') ∨
      ∃ item q', reserve host thread text webEnabled attachments payloadId uuid q =
          (.ok item.id, q') ∧ refusal host text attachments q = none ∧
        (host.setItem q.writes).isOk = true ∧
        item.id = payloadId.getD uuid ∧ item ∈ q'.items ∧ item.preparing = true ∧
        item.status = .sending ∧ q'.writes = q.writes + 1 ∧ q'.state = q.state ∧
        q'.account ≠ none ∧ Ordered left busy (some item.id) q' := by
  unfold reserve
  split
  · exact .inl ⟨_, _, rfl, h⟩
  · rename_i hrefusal
    have haccount := refusal_none hrefusal
    dsimp only
    generalize hitem : q.reserved thread text webEnabled attachments payloadId _ = item
    have hid : item.id = payloadId.getD uuid := by rw [← hitem]; rfl
    have hpushed : Ordered left busy (some item.id) { q with items := q.items ++ [item] } := by
      rw [← hid] at hnew
      exact h.push haccount hnew.unused hnew.idle hnew.stays
    obtain ⟨message, writes, hpersist, -⟩ | ⟨account, -, hwrite, hpersist⟩ :=
      persist_cases host { q with items := q.items ++ [item] }
    · rw [hpersist]
      exact .inl ⟨_, _, rfl, h.congr rfl rfl rfl rfl rfl rfl rfl h.stored⟩
    · rw [hpersist]
      have hstored := hpushed.stored.update hpushed.ids account
      refine .inr ⟨item, _, rfl, hrefusal, hwrite, hid, by simp, ?_, ?_, rfl, rfl, haccount,
        hpushed.congr rfl rfl rfl rfl rfl rfl rfl hstored⟩
      · rw [← hitem]; rfl
      · rw [← hitem]; rfl

/-- A setup fails and leaves the queue, or its message is ready and waits. -/
theorem ready_cases (host : QueueHost) (id threadId : String) (q : MessageQueue) :
    (∃ message writes, ready host id threadId q = (.error message, { q with writes }) ∧
        (q.preparation id = none ∨ q.session threadId = none ∨ q.account = none ∨
          (host.setItem q.writes).isOk = false)) ∨
      q.preparation id ≠ none ∧ ∃ q', ready host id threadId q = (.ok (), q') ∧
        ∀ busy, Ordered left busy (some id) q → Ordered left busy none q' := by
  unfold ready
  split
  · rename_i item session hpreparation _
    dsimp only
    generalize hq₀ : MessageQueue.update id _ q = q₀
    have hqueued : ∀ busy, Ordered left busy (some id) q → Ordered left busy none q₀ := by
      rw [← hq₀]
      exact fun busy h => h.queue (fun _ => rfl) fun _ => rfl
    have hprepared : ∀ item ∈ q₀.items, item.id = id → item.preparing = false := by
      rw [← hq₀]
      intro item hitem hid
      obtain ⟨old, -, rfl⟩ := mem_update.mp hitem
      by_cases hold : old.id = id
      · rw [if_pos hold]
      · rw [if_neg hold] at hid
        exact absurd hid hold
    have hq : ∀ writes,
        ({ q₀ with writes, items := q.items } : MessageQueue) = { q with writes } := by
      rw [← hq₀]
      exact fun _ => rfl
    obtain ⟨message, writes, hpersist, hwhy⟩ | ⟨account, -, -, hpersist⟩ := persist_cases host q₀
    · rw [hpersist]
      rw [← hq₀] at hwhy
      exact .inl ⟨message, writes, by rw [← hq], .inr (.inr hwhy)⟩
    · rw [hpersist]
      refine .inr ⟨by rw [hpreparation]; nofun, _, rfl, fun busy h => ?_⟩
      have hready := hqueued busy h
      have hstored := hready.stored.update hready.ids account
      refine (pump_keeps host host.depth busy _ (Ordered.prepared ?_ ?_)).ordered
      · split <;> exact hready.congr rfl rfl rfl rfl rfl rfl rfl hstored
      · intro item hitem hid hpreparing
        have hitem₀ : item ∈ q₀.items := by
          split at hitem <;> exact hitem
        rw [hprepared item hitem₀ hid] at hpreparing
        cases hpreparing
  · rename_i hnone
    refine .inl ⟨_, q.writes, rfl, ?_⟩
    cases hpreparation : q.preparation id with
    | none => exact .inl rfl
    | some item =>
      cases hsession : q.session threadId with
      | none => exact .inr (.inl rfl)
      | some session => exact absurd hsession (hnone item session hpreparation)

theorem ready_ordered (host : QueueHost) (h : Ordered left busy none q) (id threadId : String) :
    Ordered left busy none (ready host id threadId q).2 := by
  obtain ⟨message, writes, hready, -⟩ | ⟨hpreparation, q', hready, hq'⟩ :=
    ready_cases host id threadId q
  · rw [hready]
    exact h.congr rfl rfl rfl rfl rfl rfl rfl h.stored
  · rw [hready]
    obtain ⟨item, hitem⟩ := Option.ne_none_iff_exists'.mp hpreparation
    obtain ⟨hmem, rfl, hpreparing, -⟩ := preparation_some hitem
    exact hq' busy (h.excepting hmem (.inr hpreparing))

theorem bindPreparation_ordered (host : QueueHost) (h : Ordered left busy none q)
    (id threadId : String) : Ordered left busy none (bindPreparation host id threadId q).2 := by
  unfold bindPreparation
  split
  · exact h
  · rename_i item hitem
    obtain ⟨hmem, rfl, hpreparing, hstatus⟩ := preparation_some hitem
    have hexcept := h.excepting hmem (.inr hpreparing)
    have hbound : Ordered left busy none (q.update item.id fun item => { item with threadId }) := by
      refine hexcept.readmit (fun _ => rfl) fun other hother hid => ?_
      obtain rfl := h.unique hother hmem hid
      have hidle := hexcept.idle other hmem rfl
      have hfits := h.fits other hmem nofun
      exact ⟨hfits.stopping, fun i hi hname => absurd hname (hidle.unnamed i hi), hfits.sending,
        fun o ho hname => absurd hname (hidle.unsent o ho), hfits.prepared⟩
    obtain ⟨result, writes, storage, hpersist, hwrote⟩ := persist_eq host
      (q.update item.id fun item => { item with threadId })
    have hdistinct := hwrote.distinct hbound.ids hbound.stored
    rw [hpersist]
    cases result <;> exact hbound.congr rfl rfl rfl rfl rfl rfl rfl hdistinct

theorem failPreparation_ordered (host : QueueHost) (h : Ordered left busy none q)
    (id error : String) : Ordered left busy none (failPreparation host id error q) := by
  unfold failPreparation
  split
  · rename_i hnone
    exact h.prepared (preparation_none hnone)
  · rename_i item hitem
    obtain ⟨hmem, rfl, hpreparing, hstatus⟩ := preparation_some hitem
    refine Ordered.save (Ordered.prepared ?_ ?_) host
    · exact (h.excepting hmem (.inr hpreparing)).requeue error
    · intro other hother hid _
      obtain ⟨old, -, rfl⟩ := mem_update.mp hother
      by_cases hold : old.id = item.id
      · rw [if_pos hold]
        nofun
      · rw [if_neg hold] at hid
        exact absurd hid hold

/-- A message that is sent at once is set up at once: its thread is one of the client's view, and
the storage takes the message when it is reserved and when it is ready. -/
def SetsUp (host : QueueHost) (q : MessageQueue) (threadId text : String) : Prop :=
  refusal host text [] q = none → (host.setItem q.writes).isOk = true →
    (q.session threadId).isSome ∧ (host.setItem (q.writes + 1)).isOk = true

theorem enqueue_ordered (host : QueueHost) (h : Ordered left busy none q) {text : String}
    {webEnabled : Bool} {uuid : String} (hnew : New q uuid)
    (hset : SetsUp host q threadId text ∨ uuid ∈ left) :
    Ordered left busy none (enqueue host threadId text webEnabled uuid q).2 := by
  unfold enqueue
  obtain ⟨message, q', hreserve, hordered⟩ | ⟨item, q', hreserve, hrefusal, hwritten, hid, hmem,
      hpreparing, hstatus, hwrites, hstate, haccount, hordered⟩ :=
    reserve_cases host h (some threadId) text webEnabled [] none uuid hnew
  · rw [hreserve]
    exact hordered
  · rw [hreserve]
    dsimp only
    obtain ⟨message, writes, hready, hwhy⟩ | ⟨-, q'', hready, hq''⟩ :=
      ready_cases host item.id threadId q'
    · rw [hready]
      obtain hset | hleft := hset
      · exfalso
        obtain ⟨hsession, hready_written⟩ := hset hrefusal hwritten
        obtain hpreparation | hsession' | hnone | hnot_written := hwhy
        · exact preparation_none hpreparation item hmem rfl hpreparing hstatus
        · have hsame : q'.session threadId = q.session threadId := by
            rw [session, session, hstate]
          rw [← hsame, hsession'] at hsession
          cases hsession
        · exact haccount hnone
        · rw [hwrites, hready_written] at hnot_written
          cases hnot_written
      · have hkept := hordered.leave hmem hpreparing hstatus (hid ▸ hleft)
        exact hkept.congr rfl rfl rfl rfl rfl rfl rfl hkept.stored
    · rw [hready]
      exact hq'' busy hordered

theorem dispose_ordered (h : Ordered left busy none q) : Ordered left [] none q.dispose :=
  have hnext : Ordered left [] none q.dispose ∧ _ := h.nextGeneration rfl rfl rfl rfl rfl rfl
  hnext.1

/-! ## After a wait -/

theorem notStopped_ordered (host : QueueHost) (h : Ordered left busy none q)
    {i : Interruption} (hinterruption : q.interruption threadId = some i) :
    Ordered left busy none (notStopped host threadId q) := by
  unfold notStopped
  rw [hinterruption, Option.bind_some]
  refine Ordered.save (Ordered.hold ?_ threadId) host
  have huninterrupted := h.uninterrupt hinterruption
  cases hid : i.id with
  | none =>
    rw [hid] at huninterrupted
    exact huninterrupted
  | some id =>
    rw [hid] at huninterrupted
    exact huninterrupted.requeue _

theorem confirm_ordered {item : QueuedMessage}
    (h : Ordered left [(item.id, item.threadId)] none q) (api : QueueApi) (stopReason : String)
    (state : ClientState) : Ordered left [] none (confirm host item api stopReason state q) := by
  unfold confirm
  dsimp only
  obtain ⟨hsame, hsynced⟩ | ⟨hnext, hsynced⟩ := sync_cases host h state (some api)
  · rw [if_neg (by simp [hsame])]
    generalize sync host state (some api) q = q₁ at hsynced
    have hheld : ∀ c, Ordered left [(item.id, item.threadId)] none
        (q₁.holdIf c item.threadId) := fun c => hsynced.holdIf c item.threadId
    generalize (stopReason ≠ "end_turn" && !q₁.isStopping item.threadId) = c
    have hfinished := (hheld c).finish
    refine (settle_kept (pump_keeps host host.depth) ?_).ordered
    split
    · exact (hfinished.requeue _).hold item.threadId
    · rename_i hgone
      refine hfinished.absent fun other hother => ?_
      simp only [Bool.not_eq_true, Option.isSome_eq_false_iff, Option.isNone_iff_eq_none] at hgone
      simpa using find_none hgone other hother
  · rw [if_pos (Ne.symm hnext)]
    exact hsynced

/-- What a task of the list restores is new to the queue without the task. -/
theorem Ordered.arrival (h : Ordered left [] none q) {n : Nat} {task : Task}
    (hn : q.pending[n]? = some task) :
    (task.restores q.generation).Nodup ∧ (q.account = none → task.restores q.generation = []) ∧
      ∀ id ∈ task.restores q.generation, New { q with pending := q.pending.eraseIdx n } id := by
  obtain ⟨xs, ys, hpending, herase⟩ := eraseIdx_split hn
  have harrivals : q.arrivals = xs.flatMap (Task.restores q.generation) ++
      (task.restores q.generation ++ ys.flatMap (Task.restores q.generation)) := by
    rw [arrivals, hpending, List.flatMap_append, List.flatMap_cons]
  have hleft : arrivals { q with pending := q.pending.eraseIdx n } =
      xs.flatMap (Task.restores q.generation) ++ ys.flatMap (Task.restores q.generation) := by
    rw [arrivals]
    dsimp only
    rw [herase, List.flatMap_append]
  have harriving := h.arriving
  rw [harrivals, List.nodup_append] at harriving
  obtain ⟨-, hrest, hfront⟩ := harriving
  rw [List.nodup_append] at hrest
  obtain ⟨hnodup, -, hback⟩ := hrest
  refine ⟨hnodup, fun haccount => ?_, fun id hid => ?_⟩
  · have hnone := h.awaited haccount
    rw [harrivals] at hnone
    exact (List.append_eq_nil_iff.mp (List.append_eq_nil_iff.mp hnone).2).1
  · have hmem : id ∈ q.arrivals := by
      rw [harrivals]
      exact List.mem_append_right _ (List.mem_append_left _ hid)
    refine ⟨(h.fresh id hmem).1, (h.fresh id hmem).2, ?_⟩
    rw [hleft]
    intro hother
    obtain hother | hother := List.mem_append.mp hother
    · exact hfront id hother id (List.mem_append_left _ hid) rfl
    · exact hback id hid id hother rfl

theorem restorePayload_ordered (host : QueueHost) (h : Ordered left [] none q) {generation : Nat}
    {value : SavedMessage} {rest : List (Option SavedMessage)}
    (hpast : generation ≤ q.generation)
    (hnodup : (Task.restores q.generation (.restoring generation (.payload value rest))).Nodup)
    (haccount : q.account = none →
      Task.restores q.generation (.restoring generation (.payload value rest)) = [])
    (hnew : ∀ id ∈ Task.restores q.generation (.restoring generation (.payload value rest)),
      New q id) (payload : Option PromptPayload) :
    Ordered left [] none (restorePayload host generation value rest payload q) := by
  have hfailed : Ordered left [] none (q.await (.restoring generation .failed)) :=
    h.wait' hpast rfl rfl
  unfold restorePayload
  split
  · exact hfailed
  · split
    · exact h
    · rename_i payload hgeneration
      rw [Decidable.not_not] at hgeneration
      subst hgeneration
      have hrestores : Task.restores q.generation
          (.restoring q.generation (.payload value rest)) = value.id :: savedIds rest := if_pos rfl
      rw [hrestores] at hnodup haccount hnew
      obtain ⟨hvalue, hrest⟩ := List.forall_mem_cons.mp hnew
      rw [List.nodup_cons] at hnodup
      have hsome : q.account ≠ none := fun hnone => List.cons_ne_nil _ _ (haccount hnone)
      dsimp only
      generalize hread : ({ value with
        text := payload.text, attachments := payload.attachments } : SavedMessage) = read
      have hid : read.id = value.id := by rw [← hread]
      rw [← hid] at hvalue hnodup
      obtain hrestore | ⟨q', hrestore, hkept, htables, hpending, hitems⟩ :=
        restore_cases host h hsome hvalue.idle hvalue.stays
      · rw [hrestore]
        exact hfailed
      · rw [hrestore]
        refine (restoreNext_kept hkept.ordered (hkept.stays.account ▸ hsome) hnodup.2
          fun id hid => ⟨fun item hitem hsame => ?_, ?_, ?_⟩).ordered
        · obtain hold | hvalue_id := hitems item hitem
          · exact (hrest id hid).unused item hold hsame
          · rw [hvalue_id] at hsame
            exact hnodup.1 (hsame ▸ hid)
        · rw [htables]
          exact (hrest id hid).idle
        · rw [arrivals, hpending, hkept.stays.generation]
          exact (hrest id hid).stays

/-- A dispatch goes on where it belongs to the generation, with its operation held. -/
theorem Ordered.turn {generation : Nat} {item : QueuedMessage} {api : QueueApi}
    {stage : DispatchStage} {q₁ : MessageQueue}
    (h : Ordered left (Task.sends q.generation (.dispatch generation item api stage)).toList none q)
    (hresume : (if generation ≠ q.generation then some q else some q₁) = some q')
    (hturn : generation = q.generation → Ordered left [(item.id, item.threadId)] none q →
      Ordered left [] none q₁) :
    Ordered left [] none q' := by
  split at hresume <;> cases hresume
  · rename_i hne
    have hsends : Task.sends q.generation (.dispatch generation item api stage) = none :=
      if_neg hne
    rwa [hsends] at h
  · rename_i hsame
    rw [Decidable.not_not] at hsame
    have hsends : Task.sends q.generation (.dispatch generation item api stage) =
      some (item.id, item.threadId) := if_pos hsame
    rw [hsends] at h
    exact hturn hsame h

/-- The task of an interruption goes on where the interruption is still there. -/
theorem current_interruption {generation token : Nat}
    (h : q.current generation threadId token = true) : ∃ i, q.interruption threadId = some i := by
  simp only [current, decide_eq_true_eq] at h
  cases hi : q.interruption threadId with
  | none =>
    rw [hi] at h
    simp at h
  | some i => exact ⟨i, rfl⟩

/-- **What follows a wait keeps the order.** -/
theorem resume_ordered {task : Task}
    (h : Ordered left (task.sends q.generation).toList none q)
    (hpast : task.generation ≤ q.generation) (hnodup : (task.restores q.generation).Nodup)
    (haccount : q.account = none → task.restores q.generation = [])
    (hnew : ∀ id ∈ task.restores q.generation, New q id) {answer : Answer}
    (hresume : resume host q task answer = some q') : Ordered left [] none q' := by
  have hpump : Keeps left (pump host host.depth) := pump_keeps host host.depth
  unfold resume at hresume
  split at hresume
  · rename_i generation item api
    exact h.turn hresume fun _ hheld => (submit_kept hpump hheld api).ordered
  · rename_i generation item api stopReason
    refine h.turn hresume fun hsame hheld => ?_
    subst hsame
    exact hheld.waitDispatch api (.reading stopReason)
  · rename_i generation item api stopReason state
    exact h.turn hresume fun _ hheld => confirm_ordered hheld api stopReason state
  · rename_i generation item api stage message
    exact h.turn hresume fun _ hheld => (undelivered_kept hpump hheld.finish message).ordered
  · rename_i generation threadId token api
    split at hresume <;> cases hresume
    · exact h
    · exact Ordered.wait' h hpast rfl rfl
  · rename_i generation threadId token api state
    split at hresume <;> cases hresume
    · exact h
    · exact sync_ordered host (Ordered.release h threadId) state (some api)
  · rename_i generation threadId token api stage message
    split at hresume <;> cases hresume
    · exact h
    · rename_i hcur
      rw [Bool.not_eq_true', Bool.not_eq_false] at hcur
      obtain ⟨i, hi⟩ := current_interruption hcur
      exact notStopped_ordered host h hi
  · rename_i generation value rest payload
    cases hresume
    exact restorePayload_ordered host h hpast hnodup haccount hnew payload
  · rename_i generation value rest message
    cases hresume
    exact Ordered.wait' h hpast rfl rfl
  · rename_i generation
    split at hresume <;> cases hresume
    · exact h
    · exact Ordered.wait' (Kept.refl h).unreadable.ordered hpast rfl rfl
  · rename_i generation
    split at hresume
    · cases hresume
      exact h
    · have hloaded : Ordered left [] none { q with loading := false } :=
        h.congr rfl rfl rfl rfl rfl rfl rfl h.stored
      dsimp only at hresume
      split at hresume <;> cases hresume
      · exact sync_ordered host hloaded _ _
      · exact hloaded
  · cases hresume

/-! ## Runs -/

/-- An id that is given to a message is new. -/
def Fresh (q : MessageQueue) : Input → Prop
  | .reserve _ _ _ _ payloadId uuid => New q (payloadId.getD uuid)
  | .enqueue _ _ _ uuid => New q uuid
  | _ => True

/-- A message that is sent at once is set up at once, or may be left without a setup. -/
def Completes (host : QueueHost) (left : Set String) (q : MessageQueue) : Input → Prop
  | .enqueue threadId text _ uuid => SetsUp host q threadId text ∨ uuid ∈ left
  | _ => True

/-- **Every input keeps the order.** -/
theorem step_ordered (h : Ordered left [] none q) {input : Input} (hfresh : Fresh q input)
    (hcompletes : Completes host left q input) : Ordered left [] none (step host q input) := by
  cases input with
  | sync state api => exact sync_ordered host h state api
  | reserve thread text webEnabled attachments payloadId uuid =>
    rw [step]
    obtain ⟨message, q', hreserve, hordered⟩ | ⟨item, q', hreserve, -, -, -, hmem, hpreparing,
        hstatus, -, -, -, hordered⟩ :=
      reserve_cases host h thread text webEnabled attachments payloadId uuid hfresh
    · rw [hreserve]
      exact hordered
    · rw [hreserve]
      exact hordered.prepare hmem hpreparing hstatus
  | enqueue threadId text webEnabled uuid => exact enqueue_ordered host h hfresh hcompletes
  | bindPreparation id threadId => exact bindPreparation_ordered host h id threadId
  | failPreparation id error => exact failPreparation_ordered host h id error
  | ready id threadId => exact ready_ordered host h id threadId
  | remove id => exact remove_ordered host h id
  | forget threadId => exact forget_ordered host h threadId
  | pause threadId => exact pause_ordered host h threadId
  | sendNow id => exact sendNow_ordered host h id
  | dispose => exact dispose_ordered h
  | resume n answer =>
    rw [step]
    cases hn : q.pending[n]? with
    | none => exact h
    | some task =>
      obtain ⟨hnodup, haccount, hnew⟩ := h.arrival hn
      dsimp only
      cases hresume : resume host { q with pending := q.pending.eraseIdx n } task answer with
      | none => exact h
      | some q' =>
        have hpast := h.past task (List.mem_of_getElem? hn)
        have hran := h.run hn
        show Ordered left [] none q'
        exact @resume_ordered host left { q with pending := q.pending.eraseIdx n } q' task hran
          hpast hnodup haccount hnew answer hresume

/-- A new queue is in order. -/
theorem ordered_new {storage : String → Option (List (Option SavedMessage))}
    (hsaved : Distinct storage) : Ordered left [] none { storage } := by
  constructor <;> first | exact hsaved | simp [sent, arrivals]

/-- Every state of a run of a new queue is in order. -/
theorem run_ordered {storage : String → Option (List (Option SavedMessage))}
    (hsaved : Distinct storage) {inputs : List Input}
    (hinputs : (machine host).Meets (fun q input => Fresh q input ∧ Completes host left q input)
      { storage } inputs) :
    Ordered left [] none ((machine host).run { storage } inputs).1 :=
  (machine host).run_invariant (P := Ordered left [] none)
    (fun _ _ h hinput => step_ordered h hinput.1 hinput.2) (ordered_new hsaved) hinputs

/-- Once nothing waits any more and no setup is under way, no message is being sent. -/
theorem Ordered.not_sending (h : Ordered ∅ [] none q) (hpending : q.pending = [])
    (hpreparations : q.preparations = []) {item : QueuedMessage} (hitem : item ∈ q.items) :
    item.status ≠ .sending := by
  have hfits := h.fits item hitem nofun
  intro hsending
  cases hpreparing : item.preparing with
  | false =>
    obtain ⟨o, ho, -⟩ := (hfits.sending hpreparing).mp hsending
    have htasks := h.tasks
    rw [sent, hpending] at htasks
    have hmem : o ∈ q.operations := ho
    rw [htasks.nil_eq.symm] at hmem
    cases hmem
  | true =>
    obtain hmem | hmem := (hfits.prepared hpreparing).2 hsending
    · have hmem : item.id ∈ q.preparations := hmem
      rw [hpreparations] at hmem
      cases hmem
    · exact hmem

/-- A message that is not being sent is removed, where the storage takes the write. -/
theorem remove_removes {item : QueuedMessage} (hfind : q.find id = some item)
    (hstatus : item.status ≠ .sending) (haccount : q.account ≠ none)
    (hwrite : (host.setItem q.writes).isOk = true) :
    ∀ other ∈ (remove host id q).items, other.id ≠ id := by
  have hsave : ∃ q', save host { q with items := q.items.filter fun item => item.id ≠ id } =
      (true, q') ∧ q'.items = q.items.filter fun item => item.id ≠ id := by
    unfold save
    obtain ⟨message, writes, -, hnone | hfail⟩ | ⟨account, -, -, hpersist⟩ :=
      persist_cases host { q with items := q.items.filter fun item => item.id ≠ id }
    · exact absurd hnone haccount
    · rw [hwrite] at hfail
      cases hfail
    · rw [hpersist]
      exact ⟨_, rfl, rfl⟩
  obtain ⟨q', hsave, hitems⟩ := hsave
  unfold remove
  rw [hfind]
  dsimp only
  rw [if_neg hstatus, hsave]
  have hgone : ∀ other ∈ q'.items, other.id ≠ id := by
    rw [hitems]
    simp
  dsimp only
  split
  · split <;> exact hgone
  · exact hgone

/-- An id that is given to a message is new, and a message that is sent at once is set up at
once. -/
def Proper (host : QueueHost) (q : MessageQueue) (input : Input) : Prop :=
  Fresh q input ∧ Completes host ∅ q input

/-- **No queued message gets stuck.** In every state of a run of a new queue in which given ids are
new and messages that are sent at once are set up at once: a message is being stopped exactly where
an interruption of its thread is for it; a message whose setup is over is being sent exactly where
the operation of its thread is for it, and it is the only one of its thread; and once all that was
started is over, every message is one that the user can remove. -/
theorem nothing_stuck {storage : String → Option (List (Option SavedMessage))}
    (hsaved : Distinct storage) (inputs : List Input)
    (hproper : (machine host).Meets (Proper host) { storage } inputs) :
    let q := ((machine host).run { storage } inputs).1
    (∀ item ∈ q.items, item.status = .stopping ↔
      ∃ i ∈ q.interruptions, i.id = some item.id ∧ i.threadId = item.threadId) ∧
    (∀ item ∈ q.items, item.preparing = false →
      (item.status = .sending ↔ (item.id, item.threadId) ∈ q.operations)) ∧
    (q.interruptions.map (·.threadId)).Nodup ∧ (q.operations.map (·.2)).Nodup ∧
    (q.pending = [] → q.preparations = [] → ∀ item ∈ q.items,
      item.status = .queued ∨ item.status = .stopping ∧
        ∃ i ∈ q.interruptions, i.id = some item.id ∧ i.threadId = item.threadId) ∧
    (q.pending = [] → q.preparations = [] → ∀ item ∈ q.items,
      (host.setItem q.writes).isOk = true → ∀ other ∈ (remove host item.id q).items,
        other.id ≠ item.id) := by
  intro q
  have h : Ordered ∅ [] none q := run_ordered hsaved hproper
  have hstopping : ∀ item ∈ q.items, item.status = .stopping ↔
      ∃ i ∈ q.interruptions, i.id = some item.id ∧ i.threadId = item.threadId := by
    intro item hitem
    have hfits := h.fits item hitem nofun
    refine hfits.stopping.trans ⟨fun ⟨i, hi, hname⟩ => ?_, fun ⟨i, hi, hname, _⟩ => ⟨i, hi, hname⟩⟩
    exact ⟨i, hi, hname, hfits.homed i hi hname⟩
  refine ⟨hstopping, ?_, h.threads, h.apart, ?_, ?_⟩
  · intro item hitem hpreparing
    have hfits := h.fits item hitem nofun
    refine (hfits.sending hpreparing).trans ⟨fun ⟨o, ho, hname⟩ => ?_, fun ho => ⟨_, ho, rfl⟩⟩
    have hhome := (hfits.owned o ho hname).1
    rw [← hname, ← hhome]
    exact ho
  · intro hpending hpreparations item hitem
    have hsending := h.not_sending hpending hpreparations hitem
    cases hstatus : item.status with
    | queued => exact .inl rfl
    | sending => exact absurd hstatus hsending
    | stopping => exact .inr ⟨rfl, (hstopping item hitem).mp hstatus⟩
  · intro hpending hpreparations item hitem hwrite
    have hsending := h.not_sending hpending hpreparations hitem
    have haccount : q.account ≠ none := fun hnone => by
      rw [h.owner hnone] at hitem
      cases hitem
    have hfind : q.find item.id = some item := by
      cases hfind : q.find item.id with
      | none => exact absurd rfl (find_none hfind item hitem)
      | some other =>
        obtain ⟨hother, hid⟩ := find_some hfind
        rw [h.unique hother hitem hid]
    exact remove_removes hfind hsending haccount hwrite

/-- A host that takes every message and every write. -/
def plainHost : QueueHost where
  validatePrompt _ _ := .ok ()
  promptBytes text _ := text.utf8ByteSize
  setItem _ := .ok ()
  depth := 2

/-- The view of a connected client, with one idle thread. -/
def connectedState : ClientState where
  connected := true
  runtimeInstanceId := some "runtime"
  account := some ⟨"valid", some "account"⟩
  sessions id := if id = "thread" then some ⟨false, [], none⟩ else none
  mcpRevision := none

/-- A message is sent and the prompt is rejected. -/
def rejected : List Input :=
  [.sync connectedState (some ⟨false, false⟩), .enqueue "thread" "hi" false "message",
    .resume 0 (.failed none)]

theorem fresh_rejected : (machine plainHost).Meets Fresh {} rejected := by
  refine ⟨trivial, ⟨?_, ?_, ?_⟩, trivial, trivial⟩
  · decide
  · constructor <;> decide
  · decide

theorem distinct_empty : Distinct fun _ => some [] := by
  rintro account values ⟨⟩
  exact .nil

/-- The rejected message waits for the user, who can remove it. -/
theorem nothing_stuck_rejected :
    let q := ((machine plainHost).run {} rejected).1
    q.items.map (·.status) = [.queued] ∧ q.pending = [] ∧
      ∀ item ∈ q.items, ∀ other ∈ (remove plainHost item.id q).items, other.id ≠ item.id := by
  intro q
  have hproper : (machine plainHost).Meets (Proper plainHost) {} rejected :=
    Machine.Meets.and _ fresh_rejected ⟨trivial, .inl fun _ _ => ⟨rfl, rfl⟩, trivial, trivial⟩
  have hpending : q.pending = [] := by decide
  obtain ⟨-, -, -, -, -, hremove⟩ := nothing_stuck distinct_empty rejected hproper
  refine ⟨by decide, hpending, fun item hitem => ?_⟩
  exact hremove hpending (by decide) item hitem rfl

/-- A message for a thread that is not in the client's view stays reserved: nothing waits, nothing
sets it up, and neither `remove` nor `sendNow` touches it. -/
theorem enqueue_stuck :
    let q := ((machine plainHost).run {}
      [.sync connectedState (some ⟨false, false⟩), .enqueue "other" "hi" false "message"]).1
    q.pending = [] ∧ q.preparations = [] ∧
      q.items.map (fun item => (item.id, item.status)) = [("message", .sending)] ∧
      (remove plainHost "message" q).items = q.items ∧
      (sendNow plainHost "message" q).items = q.items := by
  decide

end AxiomDesktop.MessageQueue
