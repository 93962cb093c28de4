import AxiomDesktop.Session.Accounts

/-!
# Sequences

The rows of a thread have distinct sequences up to the counter of the thread (`Sequenced`), in every
run of the store.
-/

namespace AxiomDesktop.Store

open Fallible

variable {t : String} {s s' : Database}

/-- The rows of a thread are numbered up to its counter, no two alike. -/
structure Sequenced (s : Database) : Prop where
  bounded : ∀ i ∈ s.timelineItems.rows, ∃ r ∈ s.threads.rows, r.id = i.threadId ∧
    0 < i.sequence ∧ i.sequence ≤ r.nextTimelineSequence
  distinct : ∀ i ∈ s.timelineItems.rows, ∀ j ∈ s.timelineItems.rows, i.threadId = j.threadId →
    i.sequence = j.sequence → i = j

/-! ## Changes that draw no sequence -/

/-- Two rows with one place in the timeline. -/
def SamePlace (i j : TimelineItem) : Prop :=
  j.id = i.id ∧ j.threadId = i.threadId ∧ j.sequence = i.sequence

/-- The counters of the threads and the places of the rows are as they were. -/
structure SamePlaces (s s' : Database) : Prop where
  threads : ∀ r ∈ s.threads.rows, ∃ r' ∈ s'.threads.rows,
    r'.id = r.id ∧ r'.nextTimelineSequence = r.nextTimelineSequence
  counters : ∀ r' ∈ s'.threads.rows, r'.nextTimelineSequence = 0 ∨
    ∃ r ∈ s.threads.rows, r'.id = r.id ∧ r'.nextTimelineSequence = r.nextTimelineSequence
  items : ∀ j ∈ s'.timelineItems.rows, ∃ i ∈ s.timelineItems.rows, SamePlace i j
  kept : ∀ i ∈ s.timelineItems.rows, ∃ j ∈ s'.timelineItems.rows, SamePlace i j

section Places

theorem SamePlace.refl (i : TimelineItem) : SamePlace i i := ⟨rfl, rfl, rfl⟩

theorem SamePlaces.of_eq (hthreads : s'.threads = s.threads)
    (hitems : s'.timelineItems = s.timelineItems) : SamePlaces s s' where
  threads r hr := ⟨r, hthreads ▸ hr, rfl, rfl⟩
  counters r hr := .inr ⟨r, hthreads ▸ hr, rfl, rfl⟩
  items j hj := ⟨j, hitems ▸ hj, .refl j⟩
  kept i hi := ⟨i, hitems ▸ hi, .refl i⟩

/-- Columns of threads and of rows are changed where they stand. -/
theorem SamePlaces.of_update {p : StoredThread → Bool} {f : StoredThread → StoredThread}
    {q : TimelineItem → Bool} {g : TimelineItem → TimelineItem}
    (hthreads : s'.threads.rows = s.threads.rows.map (Rows.edit p f))
    (hitems : s'.timelineItems.rows = s.timelineItems.rows.map (Rows.edit q g))
    (hf : ∀ r, (f r).id = r.id ∧ (f r).nextTimelineSequence = r.nextTimelineSequence)
    (hg : ∀ i, SamePlace i (g i)) : SamePlaces s s' := by
  have hthread : ∀ r, (Rows.edit p f r).id = r.id ∧
      (Rows.edit p f r).nextTimelineSequence = r.nextTimelineSequence := fun r =>
    ⟨Rows.edit_keeps (fun r => (hf r).1) r, Rows.edit_keeps (fun r => (hf r).2) r⟩
  have hitem : ∀ i, SamePlace i (Rows.edit q g i) := fun i =>
    ⟨Rows.edit_keeps (fun i => (hg i).1) i, Rows.edit_keeps (fun i => (hg i).2.1) i,
      Rows.edit_keeps (fun i => (hg i).2.2) i⟩
  refine ⟨?_, ?_, ?_, ?_⟩
  · intro r hr
    exact ⟨Rows.edit p f r, by rw [hthreads]; exact List.mem_map_of_mem hr, hthread r⟩
  · intro r' hr'
    rw [hthreads] at hr'
    obtain ⟨r, hr, rfl⟩ := List.mem_map.mp hr'
    exact .inr ⟨r, hr, hthread r⟩
  · intro j hj
    rw [hitems] at hj
    obtain ⟨i, hi, rfl⟩ := List.mem_map.mp hj
    exact ⟨i, hi, hitem i⟩
  · intro i hi
    exact ⟨Rows.edit q g i, by rw [hitems]; exact List.mem_map_of_mem hi, hitem i⟩

theorem SamePlaces.of_threads {p : StoredThread → Bool} {f : StoredThread → StoredThread}
    (hthreads : s'.threads.rows = s.threads.rows.map (Rows.edit p f))
    (hitems : s'.timelineItems = s.timelineItems)
    (hf : ∀ r, (f r).id = r.id ∧ (f r).nextTimelineSequence = r.nextTimelineSequence) :
    SamePlaces s s' := by
  refine .of_update (q := fun _ => false) (g := fun i => i) hthreads ?_ hf .refl
  rw [hitems, Rows.map_edit_false]

theorem SamePlaces.of_items {q : TimelineItem → Bool} {g : TimelineItem → TimelineItem}
    (hthreads : s'.threads = s.threads)
    (hitems : s'.timelineItems.rows = s.timelineItems.rows.map (Rows.edit q g))
    (hg : ∀ i, SamePlace i (g i)) : SamePlaces s s' := by
  refine .of_update (p := fun _ => false) (f := fun r => r) ?_ hitems (fun _ => ⟨rfl, rfl⟩) hg
  rw [hthreads, Rows.map_edit_false]

theorem SamePlaces.trans {s'' : Database} (h : SamePlaces s s') (h' : SamePlaces s' s'') :
    SamePlaces s s'' := by
  refine ⟨?_, ?_, ?_, ?_⟩
  · intro r hr
    obtain ⟨r', hr', hid, hnext⟩ := h.threads r hr
    obtain ⟨r'', hr'', hid', hnext'⟩ := h'.threads r' hr'
    exact ⟨r'', hr'', hid'.trans hid, hnext'.trans hnext⟩
  · intro r'' hr''
    obtain hzero | ⟨r', hr', hid, hnext⟩ := h'.counters r'' hr''
    · exact .inl hzero
    · obtain hzero | ⟨r, hr, hid', hnext'⟩ := h.counters r' hr'
      · exact .inl (hnext.trans hzero)
      · exact .inr ⟨r, hr, hid.trans hid', hnext.trans hnext'⟩
  · intro k hk
    obtain ⟨j, hj, hid, hthread, hsequence⟩ := h'.items k hk
    obtain ⟨i, hi, hid', hthread', hsequence'⟩ := h.items j hj
    exact ⟨i, hi, hid.trans hid', hthread.trans hthread', hsequence.trans hsequence'⟩
  · intro i hi
    obtain ⟨j, hj, hid, hthread, hsequence⟩ := h.kept i hi
    obtain ⟨k, hk, hid', hthread', hsequence'⟩ := h'.kept j hj
    exact ⟨k, hk, hid'.trans hid, hthread'.trans hthread, hsequence'.trans hsequence⟩

theorem Sequenced.same (h : Sequenced s) (hsame : SamePlaces s s') : Sequenced s' := by
  constructor
  · intro j hj
    obtain ⟨i, hi, -, hthread, hsequence⟩ := hsame.items j hj
    obtain ⟨r, hr, hid, hpos, hle⟩ := h.bounded i hi
    obtain ⟨r', hr', hid', hnext⟩ := hsame.threads r hr
    refine ⟨r', hr', ?_, ?_, ?_⟩
    · rw [hid', hid, hthread]
    · rw [hsequence]
      exact hpos
    · rw [hsequence, hnext]
      exact hle
  · intro j hj j' hj' hthreads hsequences
    obtain ⟨i, hi, hid, hthread, hsequence⟩ := hsame.items j hj
    obtain ⟨i', hi', hid', hthread', hsequence'⟩ := hsame.items j' hj'
    have hii' : i = i' := h.distinct i hi i' hi' (by rw [← hthread, ← hthread', hthreads])
      (by rw [← hsequence, ← hsequence', hsequences])
    exact s'.timelineItems.eq_of_key hj hj' (by rw [hid, hid', hii'])

/-! ## Changes that draw one -/

/-- The thread with one sequence more. -/
def drawn (r : StoredThread) : StoredThread :=
  { r with nextTimelineSequence := r.nextTimelineSequence + 1 }

/-- Where a new row stands. -/
theorem Inserted.place {w : TimelineItemWrite} {i : TimelineItem} (h : Inserted t w s i s') :
    (∃ r ∈ s.threads.rows, r.id = t ∧ i.sequence = r.nextTimelineSequence + 1) ∧
      i.threadId = t ∧
      (∀ j, j ∈ s'.timelineItems.rows ↔ j ∈ s.timelineItems.rows ∨ j = i) ∧
      ∀ r', r' ∈ s'.threads.rows ↔ ∃ r ∈ s.threads.rows, (if r.id = t then drawn r else r) = r' := by
  cases h with
  | intro thread items hthread hitems hrow hclient =>
    obtain ⟨hmem, hid⟩ := Rows.get?_mem hthread
    refine ⟨⟨thread, hmem, hid, ?_⟩, ?_, fun j => Rows.mem_insert? hitems, fun r' => ?_⟩
    · rw [hrow]
    · rw [hrow]
    · refine List.mem_map.trans (exists_congr fun r => and_congr_right fun _ => ?_)
      unfold Rows.edit drawn
      simp only [decide_eq_true_eq]

theorem Inserted.sequenced {w : TimelineItemWrite} {i : TimelineItem} (hs : Sequenced s)
    (h : Inserted t w s i s') : Sequenced s' := by
  obtain ⟨⟨thread, hmem, hid, hsequence⟩, hplace, hitems, hthreads⟩ := h.place
  have hbelow : ∀ j ∈ s.timelineItems.rows, j.threadId = t →
      j.sequence ≤ thread.nextTimelineSequence := by
    intro j hj hjt
    obtain ⟨r, hr, hrid, -, hle⟩ := hs.bounded j hj
    rw [s.threads.eq_of_key hr hmem (hrid.trans (hjt.trans hid.symm))] at hle
    exact hle
  constructor
  · intro j hj
    obtain hj | rfl := (hitems j).mp hj
    · obtain ⟨r, hr, hrid, hpos, hle⟩ := hs.bounded j hj
      refine ⟨_, (hthreads _).mpr ⟨r, hr, rfl⟩, ?_, hpos, ?_⟩
      · split
        · exact hrid
        · exact hrid
      · split
        · exact Nat.le_succ_of_le hle
        · exact hle
    · refine ⟨drawn thread, (hthreads _).mpr ⟨thread, hmem, if_pos hid⟩, hid.trans hplace.symm, ?_, ?_⟩
      · rw [hsequence]
        exact Nat.succ_pos _
      · exact hsequence.le
  · intro j hj j' hj' hsame hsequences
    obtain hj | rfl := (hitems j).mp hj
    · obtain hj' | rfl := (hitems j').mp hj'
      · exact hs.distinct j hj j' hj' hsame hsequences
      · have := hbelow j hj (hsame.trans hplace)
        omega
    · obtain hj' | rfl := (hitems j').mp hj'
      · have := hbelow j' hj' (hsame.symm.trans hplace)
        omega
      · rfl

/-! ## Notes and events -/

theorem samePlaces_finishTurn (T : String) (status : TurnStatus) (error : Option String)
    (now finished : String) : SamePlaces s (s.finishTurn t T status error now finished) :=
  .of_update rfl rfl (fun _ => ⟨rfl, rfl⟩) fun _ => ⟨rfl, rfl, rfl⟩

theorem samePlaces_reportUsage (usage : RequestUsage) (now : String) :
    SamePlaces s (s.reportUsage t usage now) := by
  have hput : SamePlaces s (s.putUsage t usage) := .of_eq rfl rfl
  have hbind : SamePlaces s ((s.putUsage t usage).bindRequest t usage) :=
    hput.trans (.of_items rfl rfl fun _ => ⟨rfl, rfl, rfl⟩)
  unfold Database.reportUsage
  dsimp only
  split
  · split
    · exact hbind.trans (.of_items rfl rfl fun _ => ⟨rfl, rfl, rfl⟩)
    · exact hput.trans (.of_items rfl rfl fun _ => ⟨rfl, rfl, rfl⟩)
  · split
    · exact hbind
    · exact hput

/-- A chain of changes, each of which draws a sequence for thread `t` or none. -/
inductive Draws (t : String) : Bool → Database → Database → Prop where
  | refl (s : Database) : Draws t false s s
  | same (b : Bool) (s s' s'' : Database) (h : Draws t b s s') (hsame : SamePlaces s' s'') :
      Draws t b s s''
  | draw (b : Bool) (s s' s'' : Database) (w : TimelineItemWrite) (i : TimelineItem)
      (h : Draws t b s s') (hi : Inserted t w s' i s'') : Draws t true s s''

theorem SamePlaces.draws (h : SamePlaces s s') : Draws t false s s' :=
  .same false s s s' (.refl s) h

theorem Inserted.draws {w : TimelineItemWrite} {i : TimelineItem} (h : Inserted t w s i s') :
    Draws t true s s' := .draw false s s s' w i (.refl s) h

theorem Draws.trans {b b' : Bool} {s'' : Database} (h : Draws t b s s') (h' : Draws t b' s' s'') :
    Draws t (b || b') s s'' := by
  induction h' with
  | refl =>
    rw [Bool.or_false]
    exact h
  | same b' s' s₁ s₂ _ hsame ih => exact .same _ _ _ _ (ih h) hsame
  | draw b' s' s₁ s₂ w i _ hi ih =>
    rw [Bool.or_true]
    exact .draw _ _ _ _ w i (ih h) hi

theorem Draws.sequenced {b : Bool} (hs : Sequenced s) (h : Draws t b s s') : Sequenced s' := by
  induction h with
  | refl => exact hs
  | same _ _ _ _ _ hsame ih => exact (ih hs).same hsame
  | draw _ _ _ _ w i _ hi ih => exact hi.sequenced (ih hs)

theorem Annotations.draws {N A : String → Prop} (h : Annotations t N A s s') :
    ∃ b, Draws t b s s' := by
  induction h with
  | refl => exact ⟨false, .refl s⟩
  | tail _ hstep ih =>
    obtain ⟨b, hb⟩ := ih
    cases hstep with
    | thread f hf =>
      exact ⟨b, .same _ _ _ _ hb (.of_threads rfl rfl fun r =>
        ⟨(hf r).id, (hf r).nextTimelineSequence⟩)⟩
    | newRow _ w i hi => exact ⟨true, .draw _ _ _ _ w i hb hi⟩
    | row id f hf =>
      exact ⟨b, .same _ _ _ _ hb (.of_items rfl rfl fun i =>
        ⟨(hf i).id, (hf i).threadId, (hf i).sequence⟩)⟩
    | counts => exact ⟨b, .same _ _ _ _ hb (.of_eq rfl rfl)⟩

/-- Every event draws sequences for its thread, and a prompt draws one. -/
theorem Persisted.draws {e : AppEvent} {c : Option String} {now : String}
    (h : Persisted e t c now s s') : ∃ b, Draws t b s s' ∧ (isPrompt e = true → b = true) := by
  cases h with
  | notes _ he h =>
    obtain ⟨b, hb⟩ := h.draws
    have hprompt : isPrompt e = false := by
      cases e <;> first | rfl | cases he
    exact ⟨b, hb, fun h => absurd h (by simp [hprompt])⟩
  | interaction s₁ l he h =>
    obtain ⟨b, hb⟩ := h.draws
    have hprompt : isPrompt e = false := by
      cases e <;> first | rfl | cases he
    exact ⟨b, .same _ _ _ _ hb (.of_threads rfl rfl fun _ => ⟨rfl, rfl⟩),
      fun h => absurd h (by simp [hprompt])⟩
  | created cwd origin profile he threads h =>
    subst he
    refine ⟨false, SamePlaces.draws ⟨?_, ?_, ?_, ?_⟩, nofun⟩
    · exact fun r hr => ⟨r, (Rows.mem_insert? h).mpr (.inl hr), rfl, rfl⟩
    · intro r' hr'
      obtain hr' | rfl := (Rows.mem_insert? h).mp hr'
      · exact .inr ⟨r', hr', rfl, rfl⟩
      · exact .inl rfl
    · exact fun i hi => ⟨i, hi, .refl i⟩
    · exact fun i hi => ⟨i, hi, .refl i⟩
  | resumed cwd origin profile he | configured settings he | profiled profile he =>
    subst he
    exact ⟨false, SamePlaces.draws (.of_threads rfl rfl fun _ => ⟨rfl, rfl⟩), nofun⟩
  | closed he =>
    subst he
    exact ⟨false, SamePlaces.draws (.of_threads rfl rfl fun _ => ⟨rfl, rfl⟩), nofun⟩
  | prompt s₁ s₂ s₃ turnId text attachments he i j hi hattached hj =>
    have h₂ : SamePlaces s₁ s₂ := by
      cases hattached <;> exact .of_eq rfl rfl
    refine ⟨true, .same _ _ _ _ (.draw _ _ _ _ _ j (.same _ _ _ _ hi.draws h₂) hj) ?_, fun _ => rfl⟩
    exact .of_threads rfl rfl fun _ => ⟨rfl, rfl⟩
  | started turnId he =>
    subst he
    exact ⟨false, SamePlaces.draws (.of_threads rfl rfl fun _ => ⟨rfl, rfl⟩),
      nofun⟩
  | delta s₁ T kind text he i hsegment =>
    have hwrite : SamePlaces s₁ (s₁.setItem i.id (appendDelta (redactText text) now) fun _ => rfl) :=
      .of_items rfl rfl fun _ => ⟨rfl, rfl, rfl⟩
    have hprompt : isPrompt e = false := by
      cases e <;> first | rfl | cases he
    rw [hprompt]
    cases hsegment with
    | found => exact ⟨false, hwrite.draws, nofun⟩
    | made _ _ hi => exact ⟨true, .same _ _ _ _ hi.draws hwrite, nofun⟩
  | reported usage he =>
    subst he
    exact ⟨false, (samePlaces_reportUsage usage now).draws, nofun⟩
  | passed turnId he =>
    subst he
    exact ⟨false, .refl s, nofun⟩
  | verified turnId he =>
    subst he
    exact ⟨false, SamePlaces.draws (.of_items rfl rfl fun _ => ⟨rfl, rfl, rfl⟩), nofun⟩
  | finished _ T status error he hrunning hthread finished h =>
    obtain ⟨b, hb⟩ := h.draws
    have hprompt : isPrompt e = false := by
      cases e <;> first | rfl | cases he
    refine ⟨b, ?_, fun h => absurd h (by simp [hprompt])⟩
    have hends := (samePlaces_finishTurn (s := s) (t := t) T status error now finished).draws (t := t)
    rw [← Bool.false_or b]
    exact hends.trans hb

end Places

/-! ## Operations -/

section Operations

theorem Truncated.sequenced {r : PromptRevision} (hs : Sequenced s) (h : Truncated t r s s') :
    Sequenced s' := by
  cases h with
  | intro thread i now =>
    constructor
    · intro j hj
      obtain ⟨r, hr, hid, hplace⟩ := hs.bounded j (Rows.mem_delete.mp hj).1
      refine ⟨_, List.mem_map_of_mem hr, ?_⟩
      unfold Rows.edit
      split
      · exact ⟨hid, hplace⟩
      · exact ⟨hid, hplace⟩
    · exact fun j hj j' hj' => hs.distinct j (Rows.mem_delete.mp hj).1 j' (Rows.mem_delete.mp hj').1

theorem Appended.draws {c : Option String} {envelopes : List EventEnvelope}
    (h : Appended t c envelopes s s') :
    ∃ b, Draws t b s s' ∧ ((∃ e ∈ envelopes, isPrompt e.event = true) → b = true) := by
  induction h with
  | nil => exact ⟨false, .refl _, fun ⟨_, h, _⟩ => absurd h List.not_mem_nil⟩
  | cons c e rest s s₁ s₂ s' hevent htimes _ ih =>
    obtain ⟨b₁, h₁, hprompt₁⟩ := hevent.draws
    obtain ⟨b₂, h₂⟩ := htimes.draws
    obtain ⟨b₃, h₃, hprompt₃⟩ := ih
    refine ⟨(b₁ || b₂) || b₃, (h₁.trans h₂).trans h₃, ?_⟩
    rintro ⟨e', he', hprompt⟩
    obtain rfl | he' := List.mem_cons.mp he'
    · rw [hprompt₁ hprompt]
      rfl
    · rw [hprompt₃ ⟨e', he', hprompt⟩, Bool.or_true]

theorem Batched.sequenced {envelopes : List EventEnvelope} {c : Option String}
    {replacement : Option PromptRevision} (hs : Sequenced s)
    (h : Batched t envelopes c replacement s s') : Sequenced s' := by
  cases h with
  | intro s₁ s₂ now preferences htruncate happend hthread =>
    have hs₁ : Sequenced s₁ := by
      obtain ⟨-, rfl⟩ | ⟨r, -, -, hr⟩ := htruncate
      · exact hs
      · exact hr.sequenced hs
    obtain ⟨b, hdraws, -⟩ := happend.draws
    exact (hdraws.sequenced hs₁).same (.of_threads rfl rfl fun _ => ⟨rfl, rfl⟩)

theorem Recounts.samePlaces (h : Relation.ReflTransGen Recounts s s') : SamePlaces s s' := by
  induction h with
  | refl => exact .of_eq rfl rfl
  | tail _ hstep ih =>
    refine ih.trans ?_
    cases hstep with
    | aside hthreads _ hitems => exact .of_eq hthreads hitems
    | count t p hp f hf hthreads _ hitems =>
      exact .of_threads (by rw [hthreads]; rfl) hitems fun r =>
        ⟨(hf r).id, (hf r).nextTimelineSequence⟩

theorem samePlaces_interrupt (now : String) : SamePlaces s (interruptIncompleteTurns now s) := by
  unfold interruptIncompleteTurns
  dsimp only
  split
  · exact .of_eq rfl rfl
  · exact .of_update rfl rfl (fun _ => ⟨rfl, rfl⟩) fun _ => ⟨rfl, rfl, rfl⟩

theorem deleteThread_sequenced (hs : Sequenced s) (id : String) :
    Sequenced (deleteThread id s) := by
  constructor
  · intro j hj
    obtain ⟨hj, hne⟩ := Rows.mem_delete.mp hj
    obtain ⟨r, hr, hid, hplace⟩ := hs.bounded j hj
    exact ⟨r, Rows.mem_delete.mpr ⟨hr, hid ▸ hne⟩, hid, hplace⟩
  · exact fun j hj j' hj' => hs.distinct j (Rows.mem_delete.mp hj).1 j' (Rows.mem_delete.mp hj').1

theorem deleteSessions_sequenced (hs : Sequenced s) (ids : List String) :
    Sequenced (deleteSessions ids s).2 := by
  induction ids generalizing s with
  | nil => exact hs
  | cons id rest ih => exact ih (deleteThread_sequenced hs id)

/-- An operation that is no batch leaves every row in its place, or deletes threads. -/
theorem Wrote.places {op : Write} (h : Wrote op s s') :
    SamePlaces s s' ∨ (∃ t envelopes c replacement, Batched t envelopes c replacement s s') ∨
      ∃ ids, s' = (deleteSessions ids s).2 := by
  cases h with
  | same => exact .inl (.of_eq rfl rfl)
  | batch _ t envelopes clientItemId c preferences replacement hop hne ht h =>
    exact .inr (.inl ⟨t, envelopes, c, replacement, h⟩)
  | metadata _ h => exact .inl (Recounts.samePlaces h)
  | recorded t usage => exact .inl (.of_threads rfl rfl fun _ => ⟨rfl, rfl⟩)
  | reconciled t snapshots =>
    obtain ⟨hthreads, -, hitems⟩ := settleAll_tables snapshots
    exact .inl (.of_eq hthreads hitems)
  | interrupted now => exact .inl (samePlaces_interrupt now)
  | deleted ids => exact .inr (.inr ⟨ids, rfl⟩)

/-- Every operation keeps the sequences distinct. -/
theorem Wrote.sequenced {op : Write} (hs : Sequenced s) (h : Wrote op s s') : Sequenced s' := by
  obtain hsame | ⟨t, envelopes, c, replacement, hbatch⟩ | ⟨ids, rfl⟩ := h.places
  · exact hs.same hsame
  · exact hbatch.sequenced hs
  · exact deleteSessions_sequenced hs ids

end Operations

end AxiomDesktop.Store
