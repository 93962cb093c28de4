import AxiomDesktop.Chat.QueueOrder

/-!
# Sending, pumping and following keep the order

What the methods of the queue share keeps the order, and the connection (`Kept`): the sending of a
message (`dispatch_kept`), the pump (`pump_keeps`), the restoration of saved messages
(`restoreNext_kept`) and, up to the beginning of a new generation, the following of the client
(`sync_cases`).
-/

namespace AxiomDesktop.MessageQueue

variable {host : QueueHost} {left : Set String} {busy : List (String × String)}
variable {q q' : MessageQueue} {id threadId : String}

/-! ## Sending -/

/-- The connection stays. -/
structure Stays (q q' : MessageQueue) : Prop where
  generation : q'.generation = q.generation
  account : q'.account = q.account
  api : q'.api = q.api

theorem Stays.refl (q : MessageQueue) : Stays q q := ⟨rfl, rfl, rfl⟩

theorem Stays.trans {q₁ q₂ q₃ : MessageQueue} (h : Stays q₁ q₂) (h' : Stays q₂ q₃) : Stays q₁ q₃ :=
  ⟨h'.generation.trans h.generation, h'.account.trans h.account, h'.api.trans h.api⟩

theorem Stays.save (h : Stays q q') (host : QueueHost) : Stays q (save host q').2 := by
  obtain ⟨saved, writes, storage, reports, hsave, -⟩ := save_eq host q'
  rw [hsave]
  exact ⟨h.generation, h.account, h.api⟩

theorem Stays.holdIf (h : Stays q q') (c : Bool) (threadId : String) :
    Stays q (q'.holdIf c threadId) := by
  cases c <;> exact ⟨h.generation, h.account, h.api⟩

/-- The queue is in order, under the connection it had. -/
structure Kept (left : Set String) (busy : List (String × String)) (q q' : MessageQueue) :
    Prop where
  ordered : Ordered left busy none q'
  stays : Stays q q'

theorem Kept.refl (h : Ordered left busy none q) : Kept left busy q q := ⟨h, .refl q⟩

theorem Kept.trans {q₁ q₂ q₃ : MessageQueue} (h : Kept left busy q₁ q₂)
    (h' : Kept left busy q₂ q₃) : Kept left busy q₁ q₃ :=
  ⟨h'.ordered, h.stays.trans h'.stays⟩

/-- A method keeps the order, whatever tasks run. -/
def Keeps (left : Set String) (f : MessageQueue → MessageQueue) : Prop :=
  ∀ busy q, Ordered left busy none q → Kept left busy q (f q)

variable {repump : MessageQueue → MessageQueue} {item : QueuedMessage}

/-- What follows a change of the queue under its connection keeps the order. -/
theorem Keeps.after {q₁ : MessageQueue} (hrepump : Keeps left repump)
    (h : Ordered left busy none q₁) (hstays : Stays q q₁) : Kept left busy q (repump q₁) :=
  have hkept := hrepump busy q₁ h
  ⟨hkept.ordered, hstays.trans hkept.stays⟩

theorem settle_kept (hrepump : Keeps left repump)
    (h : Ordered left busy none
      { q with operations := q.operations.filter fun operation => operation.1 ≠ item.id }) :
    Kept left busy q (settle host repump item q) := by
  have hstays : Stays q
      { q with operations := q.operations.filter fun operation => operation.1 ≠ item.id } :=
    ⟨rfl, rfl, rfl⟩
  exact hrepump.after (((h.holdIf _ _).save host).holdIf _ _)
    (((hstays.holdIf _ _).save host).holdIf _ _)

theorem undelivered_kept (hrepump : Keeps left repump)
    (h : Ordered left busy (some item.id)
      { q with operations := q.operations.filter fun operation => operation.1 ≠ item.id })
    (message : Option String) :
    Kept left busy q (undelivered host repump item message q) := by
  unfold undelivered
  dsimp only
  generalize (message.map (· ++ " ")).getD "" ++ _ = error
  have hsettled : Kept left busy _
      (settle host repump item ((q.requeue item.id error).hold item.threadId)) :=
    settle_kept hrepump ((h.requeue error).hold item.threadId)
  have hstays : Stays q ((q.requeue item.id error).hold item.threadId) := ⟨rfl, rfl, rfl⟩
  exact ⟨hsettled.ordered, hstays.trans hsettled.stays⟩

/-- The prompt is sent by a task that runs, or it is undelivered. -/
theorem submit_kept (hrepump : Keeps left repump)
    (h : Ordered left ((item.id, item.threadId) :: busy) none q) (api : QueueApi) :
    Kept left busy q (submit host repump item api q) := by
  unfold submit
  split
  · exact undelivered_kept hrepump h.finish _
  · exact ⟨h.waitDispatch api .prompting, rfl, rfl, rfl⟩

/-- A message whose settings changed is queued again, for the user. -/
theorem checkAgentRevision_cases (host : QueueHost) (h : Ordered left busy (some item.id) q) :
    checkAgentRevision host item q = (true, q) ∨
      ∃ q', checkAgentRevision host item q = (false, q') ∧ Kept left busy q q' := by
  have hheld : ∀ error, Kept left busy q
      (save host ((q.requeue item.id error).hold item.threadId)).2 := by
    intro error
    have hstays : Stays q ((q.requeue item.id error).hold item.threadId) := ⟨rfl, rfl, rfl⟩
    exact ⟨((h.requeue error).hold item.threadId).save host, hstays.save host⟩
  unfold checkAgentRevision
  dsimp only
  split
  · exact .inr ⟨_, rfl, hheld _⟩
  · split
    · exact .inr ⟨_, rfl, hheld _⟩
    · exact .inl rfl

/-- **The sending of a message that nothing names keeps the order.** -/
theorem dispatch_kept (hrepump : Keeps left repump) (h : Ordered left busy (some item.id) q)
    (hitem : item ∈ q.items) (hpreparing : item.preparing = false)
    (hfree : q.hasOperation item.threadId = false) (hapi : q.api ≠ none)
    (haccount : q.account ≠ none) : Kept left busy q (dispatch host repump item q) := by
  unfold dispatch
  obtain ⟨api, hapi⟩ := Option.ne_none_iff_exists'.mp hapi
  rw [hapi]
  simp only [haccount, if_false]
  obtain hcheck | ⟨q', hcheck, hkept⟩ := checkAgentRevision_cases host h
  · rw [hcheck]
    dsimp only
    have hunsent : q.operations.filter (fun operation => operation.1 ≠ item.id) = q.operations :=
      List.filter_eq_self.mpr fun o ho => by simpa using (h.idle item hitem rfl).unsent o ho
    generalize hq' : MessageQueue.update item.id _ _ = q'
    have hordered : Ordered left busy (some item.id) q' := by
      rw [← hq']
      refine Ordered.update ?_ fun _ => rfl
      exact h.congr rfl rfl rfl rfl rfl rfl rfl h.stored
    have hsending : { item with status := .sending, error := none } ∈ q'.items := by
      rw [← hq']
      exact mem_update.mpr ⟨item, hitem, if_pos rfl⟩
    have hoperations : q'.operations = q.operations := by rw [← hq']; rfl
    have hstays : Stays q q' := by rw [← hq']; exact ⟨rfl, rfl, rfl⟩
    obtain ⟨saved, writes, storage, reports, hsave, hwrote⟩ := save_eq host q'
    rw [hsave]
    have hstored := hwrote.distinct hordered.ids hordered.stored
    cases saved with
    | false =>
      dsimp only
      refine ⟨Ordered.hold (Ordered.queue ?_ ?_ ?_) _, hstays.trans ⟨rfl, rfl, rfl⟩⟩
      · exact hordered.congr rfl rfl rfl rfl rfl rfl rfl hstored
      · exact fun _ => rfl
      · exact fun _ => rfl
    | true =>
      dsimp only
      rw [hoperations, hunsent]
      have hsent : Ordered left ((item.id, item.threadId) :: busy) none
          { q' with operations := q'.operations ++ [(item.id, item.threadId)] } :=
        hordered.send hsending rfl rfl hpreparing rfl (hoperations ▸ hasOperation_false hfree)
      rw [hoperations] at hsent
      generalize hq₂ : ({ q' with
        operations := q.operations ++ [(item.id, item.threadId)]
        writes, storage, reports } : MessageQueue) = q₂
      have hwritten : Ordered left ((item.id, item.threadId) :: busy) none q₂ := by
        rw [← hq₂]
        exact hsent.congr rfl rfl rfl rfl rfl rfl rfl hstored
      have hwritten_stays : Stays q q₂ := by
        rw [← hq₂]
        exact hstays.trans ⟨rfl, rfl, rfl⟩
      have hgeneration : q'.generation = q₂.generation := by rw [← hq₂]
      rw [hgeneration]
      split
      · exact ⟨hwritten.waitDispatch api .persisting, hwritten_stays.trans ⟨rfl, rfl, rfl⟩⟩
      · have hsubmitted : Kept left busy q₂ (submit host repump item api q₂) :=
          submit_kept hrepump hwritten api
        exact ⟨hsubmitted.ordered, hwritten_stays.trans hsubmitted.stays⟩
  · rw [hcheck]
    exact hkept

/-! ## Pumping -/

/-- An interruption that is ready sends its message. -/
theorem release_kept (hrepump : Keeps left repump) (h : Ordered left busy none q)
    (hapi : q.api ≠ none) (haccount : q.account ≠ none) (threadId : String) :
    Kept left busy q (release host repump q threadId) := by
  unfold release
  split
  · rename_i i session hinterruption _
    split
    · exact .refl h
    · rename_i hready
      simp only [Bool.or_eq_true, not_or, Bool.not_eq_true] at hready
      obtain ⟨-, hfree⟩ := hready
      have huninterrupted := h.uninterrupt hinterruption
      obtain ⟨hi, hthread⟩ := interruption_some hinterruption
      have hstays : Stays q (q.uninterrupt threadId) := ⟨rfl, rfl, rfl⟩
      cases hid : i.id with
      | none =>
        rw [hid] at huninterrupted
        exact ⟨huninterrupted, hstays⟩
      | some id =>
        rw [hid] at huninterrupted
        dsimp only [Option.bind_some]
        cases hfind : (q.uninterrupt threadId).find id with
        | none =>
          refine ⟨huninterrupted.absent fun item hitem => ?_, hstays⟩
          simpa using find_none hfind item hitem
        | some item =>
          obtain ⟨hitem, rfl⟩ := find_some hfind
          have hmem : item ∈ q.items := hitem
          have hfits := h.fits item hmem nofun
          have hpreparing : item.preparing = false := by
            by_contra htrue
            rw [Bool.not_eq_false] at htrue
            exact (hfits.prepared htrue).1 (hfits.stopping.mpr ⟨i, hi, hid⟩)
          have hhome : item.threadId = threadId := (hfits.homed i hi hid).symm.trans hthread
          have hkept : Kept left busy (q.uninterrupt threadId) (dispatch host repump item _) :=
            dispatch_kept hrepump huninterrupted hitem hpreparing (hhome ▸ hfree) hapi haccount
          exact ⟨hkept.ordered, hstays.trans hkept.stays⟩
  · exact .refl h

/-- The first message of a thread that waits is sent. -/
theorem offer_kept (hrepump : Keeps left repump) (h : Ordered left busy none q)
    (hapi : q.api ≠ none) (haccount : q.account ≠ none) (seen : Finset String) (id : String) :
    Kept left busy q (offer host repump (seen, q) id).2 := by
  unfold offer
  dsimp only
  split
  · exact .refl h
  · rename_i item hfind
    obtain ⟨hitem, rfl⟩ := find_some hfind
    split
    · exact .refl h
    · rename_i hready
      simp only [Bool.or_eq_true, not_or, Bool.not_eq_true] at hready
      split
      · exact .refl h
      · split
        · exact .refl h
        · split
          · exact .refl h
          · split
            · rename_i hidle
              refine dispatch_kept hrepump (h.excepting hitem (.inl hidle.1)) hitem hready.1 ?_ hapi
                haccount
              simpa using hidle.2.2
            · exact .refl h

/-- What keeps the order of a connected queue at every element of a list keeps it along the list. -/
theorem foldl_kept {σ β : Type} (view : σ → MessageQueue) {f : σ → β → σ}
    (hf : ∀ s b, Ordered left busy none (view s) → (view s).api ≠ none → (view s).account ≠ none →
      Kept left busy (view s) (view (f s b))) (s : σ) (h : Ordered left busy none (view s))
    (hapi : (view s).api ≠ none) (haccount : (view s).account ≠ none) (bs : List β) :
    Kept left busy (view s) (view (bs.foldl f s)) := by
  induction bs generalizing s with
  | nil => exact .refl h
  | cons b bs ih =>
    have hkept := hf s b h hapi haccount
    exact hkept.trans
      (ih (f s b) hkept.ordered (hkept.stays.api ▸ hapi) (hkept.stays.account ▸ haccount))

/-- **The pump keeps the order.** -/
theorem pump_keeps (host : QueueHost) (depth : Nat) : Keeps left (pump host depth) := by
  induction depth with
  | zero => exact fun busy q h => .refl h
  | succ depth ih =>
    intro busy q h
    unfold pump
    split
    · exact .refl h
    · rename_i hcan
      simp only [canPump, Bool.not_eq_true, Bool.not_eq_false', Bool.and_eq_true,
        Option.isSome_iff_ne_none] at hcan
      obtain ⟨⟨⟨haccount, hapi⟩, -⟩, -⟩ := hcan
      dsimp only
      have hreleased : Kept left busy q ((q.interruptions.map (·.threadId)).foldl
          (release host (pump host depth)) q) :=
        foldl_kept id (fun _ threadId h hapi haccount => release_kept ih h hapi haccount threadId)
          q h hapi haccount _
      exact hreleased.trans (foldl_kept Prod.snd
        (fun s id h hapi haccount => offer_kept ih h hapi haccount s.1 id) (∅, _)
        hreleased.ordered (hreleased.stays.api ▸ hapi) (hreleased.stays.account ▸ haccount) _)

/-! ## Restoring -/

/-- Nothing in the queue is of the id, and nothing is still to come. -/
structure New (q : MessageQueue) (id : String) : Prop where
  unused : ∀ item ∈ q.items, item.id ≠ id
  idle : Idle q.tables id
  stays : id ∉ q.arrivals

/-- A saved message is taken, or the queue is left. -/
theorem restore_cases (host : QueueHost) (h : Ordered left busy none q)
    (haccount : q.account ≠ none) {value : SavedMessage} (hidle : Idle q.tables value.id) (hstays : value.id ∉ q.arrivals) :
    restore host (some value) q = (false, q) ∨
      ∃ q', restore host (some value) q = (true, q') ∧ Kept left busy q q' ∧ q'.tables = q.tables ∧
        q'.pending = q.pending ∧ ∀ other ∈ q'.items, other ∈ q.items ∨ other.id = value.id := by
  unfold restore
  dsimp only
  split
  · exact .inl rfl
  · rename_i hchecked
    split
    · exact .inl rfl
    · split
      · exact .inl rfl
      · refine .inr ⟨_, rfl, ⟨?_, rfl, rfl, rfl⟩, rfl, rfl, fun other hother => ?_⟩
        · simp only [not_or, Option.not_isSome_iff_eq_none] at hchecked
          obtain ⟨-, -, -, -, -, hfind, -⟩ := hchecked
          refine Ordered.hold ((h.push haccount ?_ hidle hstays).admitted
            fun item hitem hid => ?_) _
          · exact find_none hfind
          · obtain hitem | hitem := List.mem_append.mp hitem
            · exact absurd hid (find_none hfind item hitem)
            · obtain rfl := List.mem_singleton.mp hitem
              exact Idle.fits hidle rfl
        · obtain hother | hother := List.mem_append.mp hother
          · exact .inl hother
          · obtain rfl := List.mem_singleton.mp hother
            exact .inr rfl

theorem Kept.unreadable (h : Kept left busy q q') : Kept left busy q q'.unreadable := by
  refine ⟨?_, h.stays.trans ⟨rfl, rfl, rfl⟩⟩
  have hempty := h.ordered.filter fun _ => false
  rw [List.filter_false] at hempty
  exact hempty.congr rfl rfl rfl rfl rfl rfl rfl hempty.stored

theorem restoreAll_kept (h : Ordered left busy none q) (haccount : q.account ≠ none)
    {values : List (Option SavedMessage)}
    (hfresh : ∀ id ∈ savedIds values, Idle q.tables id ∧ id ∉ q.arrivals) :
    Kept left busy q (restoreAll host values q).2 := by
  induction values generalizing q with
  | nil => exact .refl h
  | cons value values ih =>
    unfold restoreAll
    cases value with
    | none => exact .refl h
    | some value =>
      rw [savedIds_some, List.forall_mem_cons] at hfresh
      obtain ⟨⟨hidle, hstays⟩, hrest⟩ := hfresh
      obtain hrestore | ⟨q', hrestore, hkept, htables, hpending, -⟩ :=
        restore_cases host h haccount hidle hstays
      · rw [hrestore]
        exact .refl h
      · rw [hrestore]
        have harrivals : q'.arrivals = q.arrivals := by
          rw [arrivals, arrivals, hpending, hkept.stays.generation]
        refine hkept.trans (ih hkept.ordered (hkept.stays.account ▸ haccount) ?_)
        rwa [htables, harrivals]

/-- The restoration waits, for no message. -/
theorem Kept.waitRestore (h : Kept left busy q q') (stage : RestoreStage)
    (hrestores : Task.restores q'.generation (.restoring q'.generation stage) = []) :
    Kept left busy q (q'.await (.restoring q'.generation stage)) :=
  ⟨h.ordered.wait' le_rfl rfl hrestores, h.stays.trans ⟨rfl, rfl, rfl⟩⟩

theorem restoreNext_kept (h : Ordered left busy none q) (haccount : q.account ≠ none)
    {values : List (Option SavedMessage)} (hnodup : (savedIds values).Nodup)
    (hnew : ∀ id ∈ savedIds values, New q id) : Kept left busy q (restoreNext host values q) := by
  induction values generalizing q with
  | nil => exact (Kept.refl h).waitRestore .finishing rfl
  | cons value values ih =>
    cases value with
    | none => exact (Kept.refl h).waitRestore .failed rfl
    | some value =>
      have hids := hnew
      rw [savedIds_some, List.forall_mem_cons] at hnew
      obtain ⟨hvalue, hrest⟩ := hnew
      unfold restoreNext
      split
      · split
        · exact (Kept.refl h).waitRestore .failed rfl
        · have hrestores : Task.restores q.generation
              (.restoring q.generation (.payload value values)) = savedIds (some value :: values) :=
            if_pos rfl
          refine ⟨Ordered.wait h le_rfl ?_ ?_ fun hnone => absurd hnone haccount, rfl, rfl, rfl⟩
          · rwa [hrestores]
          · rw [hrestores]
            exact fun id hid => ⟨(hids id hid).stays, (hids id hid).unused, (hids id hid).idle⟩
      · rw [savedIds_some, List.nodup_cons] at hnodup
        obtain hrestore | ⟨q', hrestore, hkept, htables, hpending, hitems⟩ :=
          restore_cases host h haccount hvalue.idle hvalue.stays
        · rw [hrestore]
          exact (Kept.refl h).waitRestore .failed rfl
        · rw [hrestore]
          refine hkept.trans (ih hkept.ordered (hkept.stays.account ▸ haccount) hnodup.2
            fun id hid => ⟨fun item hitem hsame => ?_, ?_, ?_⟩)
          · obtain hold | hvalue_id := hitems item hitem
            · exact (hrest id hid).unused item hold hsame
            · rw [hvalue_id] at hsame
              exact hnodup.1 (hsame ▸ hid)
          · rw [htables]
            exact (hrest id hid).idle
          · rw [arrivals, hpending, hkept.stays.generation]
            exact (hrest id hid).stays

/-! ## Following the client -/

theorem acknowledge_kept (host : QueueHost) (h : Ordered left busy none q) (state : ClientState) :
    Kept left busy q (acknowledge host state q) := by
  unfold acknowledge
  dsimp only
  split
  · have hstays : Stays q
        { q with items := q.items.filter fun item => !acknowledged state item } := ⟨rfl, rfl, rfl⟩
    exact ⟨(h.filter _).save host, hstays.save host⟩
  · exact .refl h

/-- The saved messages of an account are read into an empty queue. -/
theorem restored_kept (host : QueueHost) (h : Ordered left [] none q) {account : String}
    (haccount : q.account = some account) (hitems : q.items = []) (hidle : ∀ id, Idle q.tables id) (harrivals : q.arrivals = []) :
    Kept left [] q (match q.storage account with
      | none => q.unreadable
      | some saved =>
        if MAX_MESSAGES < saved.length then q.unreadable
        else if saved.any (·.any (·.hasPayload)) then
          restoreNext host saved { q with loading := true }
        else
          match restoreAll host saved { q with loading := false } with
          | (true, q) => q
          | (false, q) => q.unreadable) := by
  have hstays : ∀ id, id ∉ q.arrivals := by
    rw [harrivals]
    exact fun _ => List.not_mem_nil
  have hloading : ∀ loading, Kept left [] q { q with loading } := fun loading =>
    ⟨h.congr rfl rfl rfl rfl rfl rfl rfl h.stored, rfl, rfl, rfl⟩
  have hsome : q.account ≠ none := by
    rw [haccount]
    nofun
  cases hvalues : q.storage account with
  | none => exact (Kept.refl h).unreadable
  | some values =>
    dsimp only
    split
    · exact (Kept.refl h).unreadable
    · split
      · refine (hloading true).trans (restoreNext_kept (hloading true).ordered hsome
          (h.stored _ _ hvalues) fun id _ => ⟨?_, hidle id, hstays id⟩)
        show ∀ item ∈ q.items, item.id ≠ id
        rw [hitems]
        nofun
      · have hrestored : Kept left [] q (restoreAll host values { q with loading := false }).2 :=
          (hloading false).trans (restoreAll_kept (hloading false).ordered hsome
            fun id _ => ⟨hidle id, hstays id⟩)
        rcases hall : restoreAll host values { q with loading := false } with ⟨_ | _, q'⟩
        · rw [hall] at hrestored
          exact hrestored.unreadable
        · rw [hall] at hrestored
          exact hrestored

/-- A generation begins in order. -/
theorem begin_ordered (host : QueueHost) (h : Ordered left busy none q)
    (account runtime : Option String) :
    Ordered left [] none (begin host account runtime q) ∧
      (begin host account runtime q).generation = q.generation + 1 := by
  obtain ⟨hordered, harrivals⟩ : Ordered left [] none { q with
      generation := q.generation + 1
      account, runtime
      operations := [], interruptions := [], items := [], paused := ∅, freshSends := ∅ } ∧ _ :=
    h.nextGeneration rfl rfl rfl rfl rfl rfl
  cases account with
  | none => exact ⟨hordered, rfl⟩
  | some account =>
    have hkept := restored_kept host hordered rfl rfl (fun _ => ⟨nofun, nofun⟩) harrivals
    exact ⟨hkept.ordered, hkept.stays.generation⟩

/-- **`sync` keeps the order.** Where a new generation begins, no operation of the last one counts
any more. -/
theorem sync_cases (host : QueueHost) (h : Ordered left busy none q)
    (state : ClientState) (api : Option QueueApi) :
    (sync host state api q).generation = q.generation ∧
        Ordered left busy none (sync host state api q) ∨
      (sync host state api q).generation ≠ q.generation ∧
        Ordered left [] none (sync host state api q) := by
  have hfollow : ∀ busy q', Ordered left busy none q' →
      Kept left busy q' (if state.owner = none ∨ api = none ∨ q'.loading then q'
        else pump host host.depth (acknowledge host state q')) := by
    intro busy q' h'
    split
    · exact .refl h'
    · have hacknowledged := acknowledge_kept host h' state
      exact hacknowledged.trans (pump_keeps host host.depth busy _ hacknowledged.ordered)
  have hseen : Ordered left busy none { q with state := some state, api } :=
    h.congr rfl rfl rfl rfl rfl rfl rfl h.stored
  unfold sync
  dsimp only
  generalize (if state.owner = none then none else state.runtimeInstanceId) = runtime
  by_cases hnext : state.owner ≠ q.account ∨ runtime ≠ q.runtime
  · rw [if_pos hnext]
    obtain ⟨hbegun, hgeneration⟩ := begin_ordered host hseen state.owner runtime
    obtain ⟨hordered, hstays⟩ := hfollow [] _ hbegun
    refine .inr ⟨?_, hordered⟩
    rw [hstays.generation, hgeneration]
    exact Nat.succ_ne_self _
  · rw [if_neg hnext]
    obtain ⟨hordered, hstays⟩ := hfollow busy _ hseen
    exact .inl ⟨hstays.generation, hordered⟩

theorem sync_ordered (host : QueueHost) (h : Ordered left [] none q)
    (state : ClientState) (api : Option QueueApi) :
    Ordered left [] none (sync host state api q) := by
  obtain ⟨-, hordered⟩ | ⟨-, hordered⟩ := sync_cases host h state api
  · exact hordered
  · exact hordered

end AxiomDesktop.MessageQueue
