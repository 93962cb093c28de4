import Mathlib.Data.List.Forall2
import Mathlib.Tactic.IntervalCases
import AxiomDesktop.Workspace.Prepare

/-!
# A structured patch is atomic

`Workspace.applyStructuredPatch_atomic`: whichever system calls of the transaction fail, the call
either returns an error and leaves every path as it was, or applies every edit of the patch and
changes nothing else. The removals and renames that undo a transaction are taken to succeed, and
the random names to be new (`FreshNames`).

The invariant is `Consistent`: each edit accounts for the paths it touches, its target, its staged
file and its backup, no two edits touch one path, and every other path is as before the patch.
One rule, `Consistent.exchange`, moves it along every step of the transaction: an edit is added,
replaced or dropped, and the paths it no longer touches are as they were.
-/

namespace AxiomDesktop

open Fallible

/-! ## What a prepared edit accounts for -/

/-- The staged file and the backup of an edit. -/
def PreparedEdit.artifacts (e : PreparedEdit) : List Path := e.staged.toList ++ e.backup.toList

/-- The paths an edit touches. -/
def PreparedEdit.touched (e : PreparedEdit) : List Path := e.path :: e.artifacts

/-- The path is one that the draw with a number can give. -/
def Host.IsArtifactPath (host : Host) (i : Nat) (p : Path) : Prop :=
  ∃ q c, p = q ++ [c] ∧ host.IsArtifact i c

section

variable (host : Host) (ws : Workspace) (n : Nat) (base : FileSystem) (after : Path → Option Node)

/-- The paths an edit touches hold what the fields of the edit say, over the file system before
the patch and for what the patch asks of each target. -/
structure Tracked (fs : FileSystem) (e : PreparedEdit) : Prop where
  canonical : base.Canonical e.path
  nonroot : e.path ≠ []
  seen : ∀ c ∈ e.path, host.Seen n c
  relative : e.relative = ws.relative e.path
  plain : base e.path = none ∨ ∃ content mode, base e.path = some (.file content mode)
  target : fs e.path =
    if e.installed then after e.path else if e.backup.isSome then none else base e.path
  installed : e.installed = true →
    (∃ content mode, after e.path = some (.file content mode)) ∧
      (e.backup = none → base e.path = none)
  staged : ∀ s, e.staged = some s → fs s = after e.path ∧ base.Canonical s ∧
    ∃ content mode, after e.path = some (.file content mode)
  backup : ∀ b, e.backup = some b → fs b = base e.path ∧ base.Canonical b ∧
    ∃ content mode, base e.path = some (.file content mode)

/-- **The invariant of a transaction.** -/
structure Consistent (w : World) (es : List PreparedEdit) : Prop where
  tracked : ∀ e ∈ es, Tracked host ws n base after w.fs e
  nodup : (es.flatMap PreparedEdit.touched).Nodup
  frame : ∀ p, p ∉ es.flatMap PreparedEdit.touched → w.fs p = base p
  artifacts : ∀ p ∈ es.flatMap PreparedEdit.artifacts,
    base p = none ∧ ∃ i < w.draws, host.IsArtifactPath i p

end

section

variable {host : Host} {ws : Workspace} {n : Nat} {base : FileSystem} {after : Path → Option Node}

theorem Tracked.congr {fs fs' : FileSystem} {e : PreparedEdit}
    (h : Tracked host ws n base after fs e) (hsame : ∀ p ∈ e.touched, fs' p = fs p) :
    Tracked host ws n base after fs' e := by
  have hs : ∀ s, e.staged = some s → fs' s = fs s :=
    fun s hs => hsame s (by simp [PreparedEdit.touched, PreparedEdit.artifacts, hs])
  have hb : ∀ b, e.backup = some b → fs' b = fs b :=
    fun b hb => hsame b (by simp [PreparedEdit.touched, PreparedEdit.artifacts, hb])
  exact
    { h with
      target := by rw [hsame e.path (by simp [PreparedEdit.touched]), h.target]
      staged := fun s hst => by rw [hs s hst]; exact h.staged s hst
      backup := fun b hbk => by rw [hb b hbk]; exact h.backup b hbk }

namespace Consistent

variable {w w' : World} {es es' rest : List PreparedEdit} {e : PreparedEdit}

theorem perm (h : Consistent host ws n base after w es) (hperm : es.Perm es') :
    Consistent host ws n base after w es' where
  tracked e he := h.tracked e (hperm.mem_iff.mpr he)
  nodup := (hperm.flatMap_right _).nodup_iff.mp h.nodup
  frame p hp := h.frame p fun hmem => hp ((hperm.flatMap_right _).mem_iff.mp hmem)
  artifacts p hp := h.artifacts p ((hperm.flatMap_right _).mem_iff.mpr hp)

/-- With no edit left, the file system is the one before the patch. -/
theorem restored (h : Consistent host ws n base after w []) : w.fs = base := by
  funext p
  exact h.frame p (by simp)

/-- **The exchange rule.** -/
theorem exchange (old new : List PreparedEdit)
    (h : Consistent host ws n base after w (old ++ rest))
    (hdraws : w.draws ≤ w'.draws)
    (htracked : ∀ e ∈ new, Tracked host ws n base after w'.fs e)
    (hnodup : (new.flatMap PreparedEdit.touched).Nodup)
    (hdisjoint : ∀ p ∈ new.flatMap PreparedEdit.touched, p ∉ rest.flatMap PreparedEdit.touched)
    (hartifacts : ∀ p ∈ new.flatMap PreparedEdit.artifacts,
      base p = none ∧ ∃ i < w'.draws, host.IsArtifactPath i p)
    (hsame : ∀ p, p ∉ old.flatMap PreparedEdit.touched →
      p ∉ new.flatMap PreparedEdit.touched → w'.fs p = w.fs p)
    (hrestored : ∀ p ∈ old.flatMap PreparedEdit.touched,
      p ∉ new.flatMap PreparedEdit.touched → w'.fs p = base p) :
    Consistent host ws n base after w' (new ++ rest) := by
  have hold := h.nodup
  rw [List.flatMap_append, List.nodup_append] at hold
  obtain ⟨_, hrest, hapart⟩ := hold
  have hkeep : ∀ p ∈ rest.flatMap PreparedEdit.touched, w'.fs p = w.fs p := fun p hp =>
    hsame p (fun ho => hapart p ho p hp rfl) (fun hn => hdisjoint p hn hp)
  refine ⟨fun e he => ?_, ?_, fun p hp => ?_, fun p hp => ?_⟩
  · rcases List.mem_append.mp he with he | he
    · exact htracked e he
    · exact (h.tracked e (List.mem_append_right _ he)).congr fun p hp =>
        hkeep p (List.mem_flatMap.mpr ⟨e, he, hp⟩)
  · rw [List.flatMap_append, List.nodup_append]
    refine ⟨hnodup, hrest, ?_⟩
    rintro p hp _ hq rfl
    exact hdisjoint p hp hq
  · rw [List.flatMap_append, List.mem_append, not_or] at hp
    by_cases ho : p ∈ old.flatMap PreparedEdit.touched
    · exact hrestored p ho hp.1
    · rw [hsame p ho hp.1]
      refine h.frame p ?_
      rw [List.flatMap_append, List.mem_append, not_or]
      exact ⟨ho, hp.2⟩
  · rw [List.flatMap_append, List.mem_append] at hp
    rcases hp with hp | hp
    · exact hartifacts p hp
    · obtain ⟨hnone, i, hi, hpath⟩ := h.artifacts p (by
        rw [List.flatMap_append]
        exact List.mem_append_right _ hp)
      exact ⟨hnone, i, Nat.lt_of_lt_of_le hi hdraws, hpath⟩

/-- An edit can be replaced by one that touches, of the paths of other edits, none. -/
theorem replace {e' : PreparedEdit} (h : Consistent host ws n base after w (e :: rest))
    (hdraws : w.draws ≤ w'.draws) (htracked : Tracked host ws n base after w'.fs e')
    (hnodup : e'.touched.Nodup)
    (htouched : ∀ p ∈ e'.touched, p ∉ e.touched → p ∉ rest.flatMap PreparedEdit.touched)
    (hartifacts : ∀ p ∈ e'.artifacts, p ∉ e.artifacts →
      base p = none ∧ ∃ i < w'.draws, host.IsArtifactPath i p)
    (hsame : ∀ p, p ∉ e.touched → p ∉ e'.touched → w'.fs p = w.fs p)
    (hrestored : ∀ p ∈ e.touched, p ∉ e'.touched → w'.fs p = base p) :
    Consistent host ws n base after w' (e' :: rest) := by
  have hapart := h.nodup
  rw [List.flatMap_cons, List.nodup_append] at hapart
  refine exchange [e] [e'] h hdraws (by simpa using htracked) (by simpa using hnodup) ?_ ?_
    (fun p hp hp' => hsame p (by simpa using hp) (by simpa using hp'))
    fun p hp hp' => hrestored p (by simpa using hp) (by simpa using hp')
  · intro p hp
    rw [List.flatMap_singleton] at hp
    by_cases hold : p ∈ e.touched
    · exact fun hrest => hapart.2.2 p hold p hrest rfl
    · exact htouched p hp hold
  · intro p hp
    rw [List.flatMap_singleton] at hp
    by_cases hold : p ∈ e.artifacts
    · obtain ⟨hnone, i, hi, hpath⟩ := h.artifacts p (by
        rw [List.flatMap_cons]
        exact List.mem_append_left _ hold)
      exact ⟨hnone, i, Nat.lt_of_lt_of_le hi hdraws, hpath⟩
    · exact hartifacts p hp hold

/-- An edit that has given back the paths it touched can be dropped. -/
theorem drop (h : Consistent host ws n base after w (e :: rest)) (hdraws : w.draws ≤ w'.draws)
    (hsame : ∀ p, p ∉ e.touched → w'.fs p = w.fs p) (hrestored : ∀ p ∈ e.touched, w'.fs p = base p) :
    Consistent host ws n base after w' rest :=
  exchange [e] [] h hdraws (by simp) (by simp) (by simp) (by simp)
    (fun p hp _ => hsame p (by simpa using hp)) fun p hp _ => hrestored p (by simpa using hp)

/-- Every touched path held a file or nothing before the patch. -/
theorem plain (h : Consistent host ws n base after w es) {p : Path}
    (hp : p ∈ es.flatMap PreparedEdit.touched) : base p ≠ some .dir := by
  obtain ⟨e, he, hmem⟩ := List.mem_flatMap.mp hp
  rcases List.mem_cons.mp hmem with rfl | hmem
  · rcases (h.tracked e he).plain with hnone | ⟨content, mode, hfile⟩
    · simp [hnone]
    · simp [hfile]
  · simp [(h.artifacts p (List.mem_flatMap.mpr ⟨e, he, hmem⟩)).1]

/-- The directories of before the patch are there at every point of the transaction. -/
theorem canonical (h : Consistent host ws n base after w es) {p : Path} (hp : base.Canonical p) :
    w.fs.Canonical p :=
  hp.congr fun q hq => by
    rw [h.frame q fun hmem => h.plain hmem hq, hq]

theorem nodup_head (h : Consistent host ws n base after w (e :: rest)) : e.touched.Nodup := by
  have := h.nodup
  rw [List.flatMap_cons, List.nodup_append] at this
  exact this.1

theorem disjoint_head (h : Consistent host ws n base after w (e :: rest)) {p : Path}
    (hp : p ∈ e.touched) : p ∉ rest.flatMap PreparedEdit.touched := by
  have := h.nodup
  rw [List.flatMap_cons, List.nodup_append] at this
  exact fun hq => this.2.2 p hp p hq rfl

end Consistent

/-- A path whose names were all seen before the patch is no artifact. -/
theorem Consistent.not_artifact {w : World} {es : List PreparedEdit}
    (h : Consistent host ws n base after w es) (hdraws : w.draws ≤ n) {p : Path}
    (hp : ∀ c ∈ p, host.Seen n c) : p ∉ es.flatMap PreparedEdit.artifacts := by
  intro hmem
  obtain ⟨_, i, hi, q, c, rfl, hc⟩ := h.artifacts p hmem
  exact hp c (by simp) i (by omega) hc

theorem mem_touched {es : List PreparedEdit} {p : Path} :
    p ∈ es.flatMap PreparedEdit.touched ↔
      (∃ e ∈ es, e.path = p) ∨ p ∈ es.flatMap PreparedEdit.artifacts := by
  constructor
  · intro hp
    obtain ⟨e, he, hmem⟩ := List.mem_flatMap.mp hp
    rcases List.mem_cons.mp hmem with rfl | hmem
    · exact .inl ⟨e, he, rfl⟩
    · exact .inr (List.mem_flatMap.mpr ⟨e, he, hmem⟩)
  · rintro (⟨e, he, rfl⟩ | hp)
    · exact List.mem_flatMap.mpr ⟨e, he, List.mem_cons_self ..⟩
    · obtain ⟨e, he, hmem⟩ := List.mem_flatMap.mp hp
      exact List.mem_flatMap.mpr ⟨e, he, List.mem_cons_of_mem _ hmem⟩

/-- The name that the next draw gives is free: no edit touches it, and it was not there before. -/
theorem Consistent.fresh {patch : StructuredPatch} {w : World} {es : List PreparedEdit}
    (hfresh : FreshNames host ws base patch)
    (h : Consistent host ws (2 * patch.edits.length) base after w es)
    (hdraws : w.draws < 2 * patch.edits.length) (q : Path) (purpose : String) :
    host.artifact w q purpose ∉ es.flatMap PreparedEdit.touched ∧
      base (host.artifact w q purpose) = none ∧
      host.IsArtifactPath w.draws (host.artifact w q purpose) := by
  have hname : host.IsArtifact w.draws
      (artifactName (q.getLastD "edit") purpose (host.uuid w.draws)) := ⟨_, _, rfl⟩
  refine ⟨?_, ?_, _, _, rfl, hname⟩
  · rw [mem_touched]
    rintro (⟨e, he, hpath⟩ | hmem)
    · refine (h.tracked e he).seen _ ?_ w.draws hdraws hname
      rw [hpath, Host.artifact]
      simp
    · obtain ⟨_, i, hi, q', c, hpath, hc⟩ := h.artifacts _ hmem
      have hlast := (List.append_inj' hpath (by simp)).2
      cases hlast
      have huuid := hc.uuid_eq hname (by rw [hfresh.length i (by omega), hfresh.length _ hdraws])
      have := hfresh.distinct i (by omega) w.draws hdraws huuid
      omega
  · by_contra hne
    exact hfresh.entries _ hne _ (by simp [Host.artifact]) w.draws hdraws hname

/-! ## Removing files -/

section Removing

variable {w : World} {e : PreparedEdit} {es : List PreparedEdit} {err : AxiomError → World → Prop}

/-- Where removals succeed, the removal of a file takes it away. -/
theorem wp_ignore_remove_file {p : Path} {ok : PUnit → World → Prop}
    (hsteady : ∀ n, host.fault .recovery n = none) (hcanon : w.fs.Canonical p)
    {content : ByteArray} {mode : Nat} (hnode : w.fs p = some (.file content mode))
    (hdone : ∀ w', w'.draws = w.draws → w'.fs = w.fs.put p none → ok ⟨⟩ w') :
    (ignore (removeFile host .recovery p)).Wp ok err w := by
  refine wp_ignore_remove hsteady (fun w' _ hfail => ?_) fun fs w' hunlink hfs hd => ?_
  · obtain ⟨e', hfail⟩ := hfail
    rw [FileSystem.unlink_file hcanon hnode] at hfail
    contradiction
  · rw [FileSystem.unlink_file hcanon hnode] at hunlink
    cases hunlink
    exact hdone w' hd hfs

/-- The staged file of an edit, if it has one, goes. -/
theorem wp_removeStaged {ok : PUnit → World → Prop}
    (hsteady : ∀ n, host.fault .recovery n = none) (hfiles : w.fs.Files e.staged.toList)
    (hdone : ∀ w', w'.draws = w.draws → w'.fs = w.fs.without e.staged.toList → ok ⟨⟩ w') :
    (Workspace.removeStaged host e).Wp ok err w := by
  rw [Workspace.removeStaged]
  rcases hs : e.staged with _ | s <;> rw [hs] at hfiles hdone
  · exact hdone w rfl (FileSystem.without_nil _).symm
  · obtain ⟨hcanon, content, mode, hnode⟩ := hfiles.file s (by simp)
    refine wp_ignore_remove_file hsteady hcanon hnode fun w' hd hfs => hdone w' hd ?_
    rw [hfs, ← FileSystem.without_nil (w.fs.put s none), FileSystem.without_put]
    rfl

theorem wp_cleanupStaged {ok : PUnit → World → Prop}
    (hsteady : ∀ n, host.fault .recovery n = none)
    (hfiles : w.fs.Files (es.filterMap PreparedEdit.staged))
    (hdone : ∀ w', w'.draws = w.draws →
      w'.fs = w.fs.without (es.filterMap PreparedEdit.staged) → ok ⟨⟩ w') :
    (Workspace.cleanupStaged host es).Wp ok err w := by
  induction es generalizing w with
  | nil => exact hdone w rfl (FileSystem.without_nil _).symm
  | cons e es ih =>
    rw [Workspace.cleanupStaged, wp_bind]
    rcases hs : e.staged with _ | s
    · rw [List.filterMap_cons_none hs] at hfiles hdone
      refine wp_removeStaged hsteady (by simpa [hs] using ⟨by simp, by simp⟩) fun w' hd hfs => ?_
      rw [hs, Option.toList_none, FileSystem.without_nil] at hfs
      refine ih (by rwa [hfs]) fun w'' hd' hfs' => hdone w'' (hd'.trans hd) ?_
      rw [hfs', hfs]
    · rw [List.filterMap_cons_some hs] at hfiles hdone
      have hfirst : w.fs.Files [s] := ⟨by simp, fun p hp => hfiles.file p (by simp_all)⟩
      refine wp_removeStaged hsteady (by rwa [hs]) fun w' hd hfs => ?_
      rw [hs, Option.toList_some, ← FileSystem.without_put, FileSystem.without_nil] at hfs
      refine ih (by rw [hfs]; exact hfiles.tail) fun w'' hd' hfs' => hdone w'' (hd'.trans hd) ?_
      rw [hfs', hfs, FileSystem.without_put]

/-- The backups of the edits go, without a warning. -/
theorem wp_removeBackups {ok : List String → World → Prop}
    (hsteady : ∀ n, host.fault .recovery n = none)
    (hfiles : w.fs.Files (es.filterMap PreparedEdit.backup))
    (hdone : ∀ w', w'.fs = w.fs.without (es.filterMap PreparedEdit.backup) → ok [] w') :
    (Workspace.removeBackups host es).Wp ok err w := by
  induction es generalizing w ok with
  | nil => exact hdone w (FileSystem.without_nil _).symm
  | cons e es ih =>
    rw [Workspace.removeBackups, wp_bind]
    rcases hb : e.backup with _ | b
    · rw [List.filterMap_cons_none hb] at hfiles hdone
      simp only [Workspace.removeBackup, hb, wp_pure, wp_bind]
      exact ih hfiles hdone
    · rw [List.filterMap_cons_some hb] at hfiles hdone
      obtain ⟨hcanon, content, mode, hnode⟩ := hfiles.file b (by simp)
      simp only [Workspace.removeBackup, hb, wp_bind, wp_attempt, removeFile]
      refine wp_syscallWrite_steady hsteady (fun e' w' _ hfail => ?_) fun fs w' hunlink hfs _ => ?_
      · rw [FileSystem.unlink_file hcanon hnode] at hfail
        contradiction
      · rw [FileSystem.unlink_file hcanon hnode] at hunlink
        cases hunlink
        refine ih (by rw [hfs]; exact hfiles.tail) fun w'' hfs' => hdone w'' ?_
        rw [hfs', hfs, FileSystem.without_put]

end Removing

/-! ## The preparation of all edits -/

/-- The edit is prepared and no step of its commit has been taken. -/
structure PreparedEdit.Pending (base : FileSystem) (after : Path → Option Node)
    (e : PreparedEdit) : Prop where
  backup : e.backup = none
  installed : e.installed = false
  shape : e.Shape base (after e.path)

/-- Some edits of a patch have been prepared, in order. -/
structure AllPrepared (host : Host) (ws : Workspace) (n : Nat) (base : FileSystem)
    (after : Path → Option Node) (w : World) (edits : List EditIntent)
    (es : List PreparedEdit) : Prop where
  consistent : Consistent host ws n base after w es
  pending : ∀ e ∈ es, e.Pending base after
  requests : List.Forall₂ (fun edit e => edit.Requests host ws base e.path (after e.path)) edits es
  draws : w.draws ≤ edits.length

section Preparing

variable {w : World} {es : List PreparedEdit}

/-- The targets of pending edits are as before the patch. -/
theorem Consistent.untouched_targets (h : Consistent host ws n base after w es)
    (hpending : ∀ e ∈ es, e.Pending base after) {p : Path}
    (hp : p ∉ es.flatMap PreparedEdit.artifacts) : w.fs p = base p := by
  by_cases htouched : p ∈ es.flatMap PreparedEdit.touched
  · rcases mem_touched.mp htouched with ⟨e, he, rfl⟩ | hmem
    · rw [(h.tracked e he).target, (hpending e he).installed, (hpending e he).backup]
      rfl
    · exact absurd hmem hp
  · exact h.frame p htouched

theorem PreparedEdit.Pending.artifacts {e : PreparedEdit} (h : e.Pending base after) :
    e.artifacts = e.staged.toList := by
  rw [PreparedEdit.artifacts, h.backup, Option.toList_none, List.append_nil]

theorem pending_artifacts (hpending : ∀ e ∈ es, e.Pending base after) :
    es.flatMap PreparedEdit.artifacts = es.filterMap PreparedEdit.staged := by
  induction es with
  | nil => rfl
  | cons e es ih =>
    rw [List.forall_mem_cons] at hpending
    rw [List.flatMap_cons, ih hpending.2, hpending.1.artifacts]
    rcases hs : e.staged with _ | s
    · rw [List.filterMap_cons_none hs]
      rfl
    · rw [List.filterMap_cons_some hs]
      rfl

theorem artifacts_sublist (es : List PreparedEdit) :
    (es.flatMap PreparedEdit.artifacts).Sublist (es.flatMap PreparedEdit.touched) := by
  induction es with
  | nil => exact List.Sublist.refl _
  | cons e es ih =>
    rw [List.flatMap_cons, List.flatMap_cons]
    exact (List.sublist_cons_self ..).append ih

/-- The staged files of pending edits can be removed, and nothing is left then. -/
theorem Consistent.staged_files (h : Consistent host ws n base after w es)
    (hpending : ∀ e ∈ es, e.Pending base after) :
    w.fs.Files (es.filterMap PreparedEdit.staged) := by
  refine ⟨?_, fun p hp => ?_⟩
  · rw [← pending_artifacts hpending]
    exact (artifacts_sublist es).nodup h.nodup
  · obtain ⟨e, he, hs⟩ := List.mem_filterMap.mp hp
    obtain ⟨hnode, hcanon, content, mode, hafter⟩ := (h.tracked e he).staged p hs
    exact ⟨h.canonical hcanon, content, mode, hnode.trans hafter⟩

theorem Consistent.without_staged (h : Consistent host ws n base after w es)
    (hpending : ∀ e ∈ es, e.Pending base after) :
    w.fs.without (es.filterMap PreparedEdit.staged) = base := by
  funext p
  rw [FileSystem.without, ← pending_artifacts hpending]
  split
  · rename_i hp
    exact (h.artifacts p hp).1.symm
  · rename_i hp
    exact h.untouched_targets hpending hp

theorem Consistent.congr_after {after' : Path → Option Node}
    (h : Consistent host ws n base after w es) (hafter : ∀ e ∈ es, after' e.path = after e.path) :
    Consistent host ws n base after' w es :=
  { h with
    tracked := fun e he =>
      { h.tracked e he with
        target := by rw [hafter e he, (h.tracked e he).target]
        installed := by rw [hafter e he]; exact (h.tracked e he).installed
        staged := by rw [hafter e he]; exact (h.tracked e he).staged } }

theorem PreparedEdit.Pending.congr_after {after' : Path → Option Node} {e : PreparedEdit}
    (h : e.Pending base after) (hafter : after' e.path = after e.path) : e.Pending base after' :=
  { h with shape := by rw [hafter]; exact h.shape }

variable {patch : StructuredPatch}

theorem forall₂_imp_mem {α β : Type} {R S : α → β → Prop} {as : List α} {bs : List β}
    (h : List.Forall₂ R as bs) (himp : ∀ a, ∀ b ∈ bs, R a b → S a b) : List.Forall₂ S as bs := by
  induction h with
  | nil => exact .nil
  | cons hr _ ih =>
    exact .cons (himp _ _ (List.mem_cons_self ..) hr)
      (ih fun a b hb => himp a b (List.mem_cons_of_mem _ hb))

/-- An edit joins those prepared so far when its target is none of the paths they touch. -/
theorem Consistent.snoc (hfresh : FreshNames host ws base patch) {edit : EditIntent} {w' : World}
    {item : PreparedEdit} (h : Consistent host ws (2 * patch.edits.length) base after w es)
    (hdraws : w.draws < 2 * patch.edits.length)
    (hitem : item.Prepares host ws (2 * patch.edits.length) base w w' edit (after item.path))
    (hpath : item.path ∉ es.flatMap PreparedEdit.touched) :
    Consistent host ws (2 * patch.edits.length) base after w' (es ++ [item]) := by
  obtain ⟨hartifact, hnone, hindex⟩ := h.fresh hfresh hdraws item.path "stage"
  have hne : item.path ≠ host.artifact w item.path "stage" := by
    intro heq
    obtain ⟨q, c, hq, hc⟩ := hindex
    refine hitem.seen c ?_ w.draws hdraws hc
    rw [heq, hq]
    simp
  have htracked : w'.fs item.path = base item.path →
      (∀ s, item.staged = some s → w'.fs s = after item.path ∧ base.Canonical s ∧
        ∃ content mode, after item.path = some (.file content mode)) →
      Tracked host ws (2 * patch.edits.length) base after w'.fs item := fun htarget hstaged =>
    { canonical := hitem.canonical
      nonroot := hitem.nonroot
      seen := hitem.seen
      relative := hitem.relative
      plain := hitem.shape.plain
      target := by rw [hitem.installed, hitem.backup]; exact htarget
      installed := by simp [hitem.installed]
      staged := hstaged
      backup := by simp [hitem.backup] }
  have hstaged := hitem.staged
  have hartifacts : item.artifacts = item.staged.toList := by
    rw [PreparedEdit.artifacts, hitem.backup, Option.toList_none, List.append_nil]
  suffices hfront : Consistent host ws (2 * patch.edits.length) base after w' ([item] ++ es) from
    hfront.perm List.perm_append_comm
  rcases hs : item.staged with _ | s <;> rw [hs] at hstaged hartifacts
  · -- a deletion has staged nothing
    obtain ⟨_, hfs, hd⟩ := hstaged
    refine Consistent.exchange [] [item] h (Nat.le_of_eq hd.symm) ?_ ?_ ?_ ?_ ?_ ?_
    · rintro e he
      rw [List.mem_singleton.mp he]
      exact htracked (by rw [hfs, h.frame _ hpath]) (by simp [hs])
    · simp [PreparedEdit.touched, hartifacts]
    · simpa [PreparedEdit.touched, hartifacts] using hpath
    · simp [hartifacts]
    · intro p _ _
      rw [hfs]
    · simp
  · -- anything else has staged one file, whose name is new
    obtain ⟨rfl, hfile, hfs, hcanon, hd⟩ := hstaged
    refine Consistent.exchange [] [item] h (by omega) ?_ ?_ ?_ ?_ ?_ ?_
    · rintro e he
      rw [List.mem_singleton.mp he]
      refine htracked ?_ ?_
      · rw [hfs, FileSystem.put, Function.update_of_ne hne, h.frame _ hpath]
      · rintro s hs'
        rw [hs, Option.some.injEq] at hs'
        subst hs'
        exact ⟨by rw [hfs, FileSystem.put, Function.update_self], hcanon, hfile⟩
    · simpa [PreparedEdit.touched, hartifacts] using hne
    · intro p hp
      simp only [List.flatMap_cons, List.flatMap_nil, List.append_nil, PreparedEdit.touched,
        hartifacts, Option.toList_some, List.mem_cons, List.not_mem_nil, or_false] at hp
      rcases hp with rfl | rfl
      · exact hpath
      · exact hartifact
    · intro p hp
      simp only [List.flatMap_cons, List.flatMap_nil, List.append_nil, hartifacts,
        Option.toList_some, List.mem_singleton] at hp
      subst hp
      exact ⟨hnone, w.draws, by omega, hindex⟩
    · intro p _ hp
      rw [hfs, FileSystem.put, Function.update_of_ne]
      rintro rfl
      exact hp (by simp [PreparedEdit.touched, hartifacts])
    · simp

/-- The edits prepared so far, and one more whose target none of them has. -/
theorem AllPrepared.snoc (hfresh : FreshNames host ws base patch) {edits : List EditIntent}
    {edit : EditIntent} {w' : World} {item : PreparedEdit} {node : Option Node}
    (h : AllPrepared host ws (2 * patch.edits.length) base after w edits es)
    (hdraws : w.draws < 2 * patch.edits.length)
    (hitem : item.Prepares host ws (2 * patch.edits.length) base w w' edit node)
    (hnew : ∀ e ∈ es, e.path ≠ item.path) :
    AllPrepared host ws (2 * patch.edits.length) base (Function.update after item.path node) w'
      (edits ++ [edit]) (es ++ [item]) := by
  have hold : ∀ e ∈ es, Function.update after item.path node e.path = after e.path :=
    fun e he => Function.update_of_ne (hnew e he) ..
  have hself : Function.update after item.path node item.path = node := Function.update_self ..
  have hpath : item.path ∉ es.flatMap PreparedEdit.touched := by
    rw [mem_touched, not_or]
    exact ⟨fun ⟨e, he, heq⟩ => hnew e he heq,
      h.consistent.not_artifact (by omega) hitem.seen⟩
  refine ⟨?_, ?_, ?_, ?_⟩
  · exact (h.consistent.congr_after hold).snoc hfresh hdraws (hself.symm ▸ hitem) hpath
  · intro e he
    rcases List.mem_append.mp he with he | he
    · exact (h.pending e he).congr_after (hold e he)
    · rw [List.mem_singleton.mp he]
      exact ⟨hitem.backup, hitem.installed, hself.symm ▸ hitem.shape⟩
  · refine List.rel_append ?_ (.cons (hself.symm ▸ hitem.requests) .nil)
    refine forall₂_imp_mem h.requests fun edit e he hreq => ?_
    rw [hold e he]
    exact hreq
  · have hstaged := hitem.staged
    have := h.draws
    rw [List.length_append, List.length_singleton]
    rcases hs : item.staged with _ | s <;> rw [hs] at hstaged
    · have := hstaged.2.2
      omega
    · have := hstaged.2.2.2.2
      omega

/-- **All edits.** The preparation of a patch fails and leaves the file system as it was, or
prepares every edit. -/
theorem prepareEdits_spec (hfresh : FreshNames host ws base patch)
    (hsteady : ∀ n, host.fault .recovery n = none) (rest : List EditIntent) :
    ∀ {edits : List EditIntent} {after : Path → Option Node} {w : World} {es : List PreparedEdit}
      (total : Nat), edits ++ rest = patch.edits →
      AllPrepared host ws (2 * patch.edits.length) base after w edits es →
      (ws.prepareEdits host es total rest).Wp
        (fun es' w' => ∃ after',
          AllPrepared host ws (2 * patch.edits.length) base after' w' patch.edits es')
        (fun _ w' => w'.fs = base) w := by
  induction rest with
  | nil =>
    intro edits after w es total hsplit h
    rw [List.append_nil] at hsplit
    rw [Workspace.prepareEdits, wp_pure, ← hsplit]
    exact ⟨after, hsplit ▸ h⟩
  | cons edit rest ih =>
    intro edits after w es total hsplit h
    have hlength : edits.length < patch.edits.length := by
      rw [← hsplit, List.length_append, List.length_cons]
      omega
    have hdraws : w.draws < 2 * patch.edits.length := by
      have := h.draws
      omega
    have hmem : edit ∈ patch.edits := by
      rw [← hsplit]
      simp
    have hsame : SameSeen host (2 * patch.edits.length) base w.fs := fun p hp =>
      (h.consistent.untouched_targets h.pending
        (h.consistent.not_artifact (by omega) hp)).symm
    have hfree : ∀ p, w.fs (host.artifact w p "stage") = none := fun p => by
      obtain ⟨hnew, hnone, _⟩ := h.consistent.fresh hfresh hdraws p "stage"
      rw [h.consistent.frame _ hnew, hnone]
    rw [Workspace.prepareEdits, wp_bind, wp_attempt]
    refine (prepareEdit_spec hfresh hsteady hsame hfree hmem total _).mono ?_ ?_
    · rintro ⟨item, total'⟩ w' ⟨node, hitem⟩
      simp only at hitem ⊢
      split
      · -- a target twice: what was staged goes, that of the last edit included
        rw [wp_bind]
        have hfiles := h.consistent.staged_files h.pending
        have hbase := h.consistent.without_staged h.pending
        have hstaged := hitem.staged
        rcases hs : item.staged with _ | s <;> rw [hs] at hstaged
        · obtain ⟨_, hfs, _⟩ := hstaged
          refine wp_cleanupStaged hsteady (by rwa [hfs]) fun w'' _ hfs' => ?_
          rw [hfs, hbase] at hfs'
          simp only [wp_bind, Workspace.removeStaged, hs, wp_pure, wp_throw]
          exact hfs'
        · obtain ⟨rfl, ⟨content, mode, rfl⟩, hfs, hcanon, _⟩ := hstaged
          obtain ⟨hnew, hnone, _⟩ := h.consistent.fresh hfresh hdraws item.path "stage"
          have hfree := hfree item.path
          have hother : host.artifact w item.path "stage" ∉ es.filterMap PreparedEdit.staged := by
            rw [← pending_artifacts h.pending]
            exact fun hmem => hnew (mem_touched.mpr (.inr hmem))
          refine wp_cleanupStaged hsteady (by rw [hfs]; exact hfiles.put_file hfree _)
            fun w'' _ hfs' => ?_
          rw [hfs, FileSystem.put_without hother, hbase] at hfs'
          rw [wp_bind, Workspace.removeStaged]
          simp only [hs]
          refine wp_ignore_remove_file hsteady (by rw [hfs']; exact hcanon.put_file hnone _)
            (by rw [hfs', FileSystem.put, Function.update_self]) fun w₃ _ hfs₃ => ?_
          rw [wp_throw, hfs₃, hfs', FileSystem.put_put_none hnone]
      · rename_i hnodup
        have hnew : ∀ e ∈ es, e.path ≠ item.path := by simpa using hnodup
        have hnext := h.snoc hfresh hdraws hitem hnew
        exact ih total' (by rw [List.append_assoc]; exact hsplit) hnext
    · intro e w' hw'
      rw [wp_bind]
      have hfiles := h.consistent.staged_files h.pending
      refine wp_cleanupStaged hsteady (by rwa [hw'.1]) fun w'' _ hfs => ?_
      rw [wp_throw, hfs, hw'.1, h.consistent.without_staged h.pending]

end Preparing

/-! ## The commit -/

/-- The commit of the edit is complete. -/
structure PreparedEdit.Done (after : Path → Option Node) (e : PreparedEdit) : Prop where
  staged : e.staged = none
  result : e.installed = true ∨ e.installed = false ∧ e.backup.isSome = true ∧ after e.path = none

section Committing

variable {w : World} {e : PreparedEdit} {rest es : List PreparedEdit} {patch : StructuredPatch}

/-- A rename of a file to a free path fails without a trace, or moves the file. -/
theorem wp_renameFile {p q : Path} {ok : PUnit → World → Prop} {err : AxiomError → World → Prop}
    {phase : Phase} (hp : w.fs.Canonical p) (hq : w.fs.Canonical q) (hne : q ≠ [])
    {content : ByteArray} {mode : Nat} (hnode : w.fs p = some (.file content mode))
    (hfree : w.fs q = none) (hfail : ∀ e w', w.Same w' → err e w')
    (hdone : ∀ w', w'.draws = w.draws →
      w'.fs = (w.fs.put p none).put q (some (.file content mode)) → ok ⟨⟩ w') :
    (renameFile host phase p q).Wp ok err w := by
  refine wp_syscallWrite hfail fun fs w' hrename hfs hd => ?_
  rw [FileSystem.rename_file hp hq hne hnode hfree] at hrename
  cases hrename
  exact hdone w' hd hfs

/-- Installing a staged file over a free target. -/
theorem install_spec (h : Consistent host ws n base after w (e :: rest)) {s : Path}
    (hs : e.staged = some s) (hfree : w.fs e.path = none) (hbackup : e.backup = none → base e.path = none) :
    (Workspace.install host e).Wp
      (fun r w' => Consistent host ws n base after w' (r.1 :: rest) ∧ r.1.path = e.path ∧
        w'.draws = w.draws ∧ (r.2 = none → r.1.Done after))
      (fun _ _ => False) w := by
  have htracked := h.tracked e (List.mem_cons_self ..)
  obtain ⟨hnode, hcanon, content, mode, hafter⟩ := htracked.staged s hs
  rw [hafter] at hnode
  have hnodup := h.nodup_head
  have htouched : e.touched = e.path :: s :: e.backup.toList := by
    rw [PreparedEdit.touched, PreparedEdit.artifacts, hs]
    rfl
  rw [htouched] at hnodup
  simp only [List.nodup_cons, List.mem_cons, not_or] at hnodup
  obtain ⟨⟨hpath, hpathBackup⟩, hsBackup, hbackupNodup⟩ := hnodup
  rw [Workspace.install, wp_bind, wp_attempt, hs, Option.getD_some]
  refine wp_renameFile (h.canonical hcanon) (h.canonical htracked.canonical) htracked.nonroot hnode
    hfree (fun err w' hsame => ?_) fun w' hd hfs => ?_
  · refine ⟨?_, rfl, hsame.2, by simp⟩
    exact
      { tracked := by rw [hsame.1]; exact h.tracked
        nodup := h.nodup
        frame := by rw [hsame.1]; exact h.frame
        artifacts := by rw [hsame.2]; exact h.artifacts }
  · have hget : ∀ p, p ≠ e.path → p ≠ s → w'.fs p = w.fs p := fun p hp hps => by
      rw [hfs, FileSystem.put, Function.update_of_ne hp, FileSystem.put, Function.update_of_ne hps]
    have hartifacts : ∀ p ∈ e.backup.toList, p ∈ e.artifacts := fun p hp => by
      rw [PreparedEdit.artifacts]
      exact List.mem_append_right _ hp
    refine ⟨h.replace (Nat.le_of_eq hd.symm) ?_ ?_ ?_ ?_ ?_ ?_, rfl, hd,
      fun _ => ⟨rfl, .inl rfl⟩⟩
    · exact
        { canonical := htracked.canonical
          nonroot := htracked.nonroot
          seen := htracked.seen
          relative := htracked.relative
          plain := htracked.plain
          target := by
            rw [hfs, FileSystem.put, Function.update_self, if_pos rfl, hafter]
          installed := fun _ => ⟨⟨content, mode, hafter⟩, hbackup⟩
          staged := by simp
          backup := fun b (hb : e.backup = some b) => by
            have hmem : b ∈ e.backup.toList := by simp [hb]
            rw [hget b (fun heq => hpathBackup (heq ▸ hmem)) fun heq => hsBackup (heq ▸ hmem)]
            exact htracked.backup b hb }
    · show (e.path :: e.backup.toList).Nodup
      exact List.nodup_cons.mpr ⟨hpathBackup, hbackupNodup⟩
    · intro p hp hold
      refine absurd ?_ hold
      rw [htouched]
      simp only [PreparedEdit.touched, PreparedEdit.artifacts, Option.toList_none,
        List.nil_append] at hp
      rcases List.mem_cons.mp hp with rfl | hp
      · exact List.mem_cons_self ..
      · exact List.mem_cons_of_mem _ (List.mem_cons_of_mem _ hp)
    · intro p hp hold
      exact absurd (hartifacts p (by simpa [PreparedEdit.artifacts] using hp)) hold
    · intro p hp _
      rw [htouched] at hp
      simp only [List.mem_cons, not_or] at hp
      exact hget p hp.1 hp.2.1
    · intro p hp hnew
      rw [htouched] at hp
      simp only [PreparedEdit.touched, PreparedEdit.artifacts, Option.toList_none, List.nil_append,
        List.mem_cons, not_or] at hp hnew
      rcases hp with rfl | rfl | hp
      · exact absurd rfl hnew.1
      · have hnone := (h.artifacts p (by simp [PreparedEdit.artifacts, hs])).1
        rw [hfs, FileSystem.put, Function.update_of_ne hnew.1, FileSystem.put,
          Function.update_self, hnone]
      · exact absurd hp hnew.2

/-- The invariant with the same file system and draws. -/
theorem Consistent.same {w' : World} (h : Consistent host ws n base after w es)
    (hsame : w.Same w') : Consistent host ws n base after w' es :=
  { tracked := by rw [hsame.1]; exact h.tracked
    nodup := h.nodup
    frame := by rw [hsame.1]; exact h.frame
    artifacts := by rw [hsame.2]; exact h.artifacts }

/-- Moving a target to its backup. -/
theorem Consistent.backup {w' : World} (hfresh : FreshNames host ws base patch)
    (h : Consistent host ws (2 * patch.edits.length) base after w (e :: rest))
    (hpending : e.Pending base after) (hdraws : w.draws < 2 * patch.edits.length)
    {content : ByteArray} {mode : Nat} (hfile : base e.path = some (.file content mode))
    (hd : w'.draws = w.draws + 1)
    (hfs : w'.fs = (w.fs.put e.path none).put (host.artifact w e.path "backup")
      (some (.file content mode))) :
    Consistent host ws (2 * patch.edits.length) base after w'
      ({ e with backup := some (host.artifact w e.path "backup") } :: rest) := by
  have htracked := h.tracked e (List.mem_cons_self ..)
  obtain ⟨hnew, hnone, hindex⟩ := h.fresh hfresh hdraws e.path "backup"
  have hcanon : base.Canonical (host.artifact w e.path "backup") := by
    obtain ⟨hplain, hdir⟩ := canonicalize_parent htracked.canonical htracked.nonroot
    exact canonical_artifact hplain hdir "backup"
  generalize host.artifact w e.path "backup" = b at hnew hnone hindex hcanon hfs ⊢
  rw [List.flatMap_cons, List.mem_append, not_or] at hnew
  have htouched : e.touched = e.path :: e.staged.toList := by
    rw [PreparedEdit.touched, hpending.artifacts]
  have hnodup := h.nodup_head
  rw [htouched, List.nodup_cons] at hnodup
  rw [htouched, List.mem_cons, not_or] at hnew
  obtain ⟨⟨hpath, hstaged⟩, hrest⟩ := hnew
  have hget : ∀ p, p ≠ e.path → p ≠ b → w'.fs p = w.fs p := fun p hp hpb => by
    rw [hfs, FileSystem.put, Function.update_of_ne hpb, FileSystem.put, Function.update_of_ne hp]
  refine h.replace (by omega) ?_ ?_ ?_ ?_ ?_ ?_
  · exact
      { canonical := htracked.canonical
        nonroot := htracked.nonroot
        seen := htracked.seen
        relative := htracked.relative
        plain := htracked.plain
        target := by
          rw [hfs, FileSystem.put, Function.update_of_ne (Ne.symm hpath), FileSystem.put,
            Function.update_self, hpending.installed]
          rfl
        installed := by simp [hpending.installed]
        staged := fun s (hs : e.staged = some s) => by
          have hmem : s ∈ e.staged.toList := by simp [hs]
          rw [hget s (fun heq => hnodup.1 (heq ▸ hmem)) fun heq => hstaged (heq ▸ hmem)]
          exact htracked.staged s hs
        backup := fun b' hb' => by
          cases hb'
          rw [hfs, FileSystem.put, Function.update_self, hfile]
          exact ⟨rfl, hcanon, content, mode, rfl⟩ }
  · show (e.path :: (e.staged.toList ++ [b])).Nodup
    rw [List.nodup_cons, List.mem_append, not_or, List.nodup_append]
    refine ⟨⟨hnodup.1, by simpa using Ne.symm hpath⟩, hnodup.2, by simp, ?_⟩
    rintro s hs _ hb rfl
    exact hstaged (List.mem_singleton.mp hb ▸ hs)
  · intro p hp hold
    rw [htouched] at hold
    have hp : p ∈ e.path :: (e.staged.toList ++ [b]) := hp
    rw [List.mem_cons, List.mem_append, List.mem_singleton] at hp
    rw [List.mem_cons, not_or] at hold
    rcases hp with rfl | hp | rfl
    · exact absurd rfl hold.1
    · exact absurd hp hold.2
    · exact hrest
  · intro p hp hold
    rw [hpending.artifacts] at hold
    have hp : p ∈ e.staged.toList ++ [b] := hp
    rw [List.mem_append, List.mem_singleton] at hp
    rcases hp with hp | rfl
    · exact absurd hp hold
    · exact ⟨hnone, w.draws, by omega, hindex⟩
  · intro p hp hp'
    have hp' : p ∉ e.path :: (e.staged.toList ++ [b]) := hp'
    rw [List.mem_cons, List.mem_append, List.mem_singleton, not_or, not_or] at hp'
    exact hget p hp'.1 hp'.2.2
  · intro p hp hp'
    rw [htouched] at hp
    have hp' : p ∉ e.path :: (e.staged.toList ++ [b]) := hp'
    rw [List.mem_cons, List.mem_append, not_or, not_or] at hp'
    rcases List.mem_cons.mp hp with rfl | hp
    · exact absurd rfl hp'.1
    · exact absurd hp hp'.2.1

/-- The re-check of a target changes nothing. -/
theorem wp_recheck {ok : PUnit → World → Prop} {err : AxiomError → World → Prop}
    (hcanon : w.fs.Canonical e.path) (hfail : ∀ e w', w.Same w' → err e w')
    (hdone : ∀ w', w.Same w' → ok ⟨⟩ w') : (ws.recheck host e).Wp ok err w := by
  rw [Workspace.recheck, wp_bind]
  refine wp_readEditTarget hcanon hfail fun bytes mode w' hsame _ _ => ?_
  rw [wp_failIf]
  exact ⟨fun _ => hfail _ w' hsame, fun _ => hdone w' hsame⟩

/-- The commit of an update or a deletion. -/
theorem replaceTarget_spec (hfresh : FreshNames host ws base patch)
    (h : Consistent host ws (2 * patch.edits.length) base after w (e :: rest))
    (hpending : e.Pending base after) (hdraws : w.draws < 2 * patch.edits.length)
    (hop : e.operation ≠ .create) :
    (ws.replaceTarget host e).Wp
      (fun r w' => Consistent host ws (2 * patch.edits.length) base after w' (r.1 :: rest) ∧
        r.1.path = e.path ∧ w'.draws ≤ w.draws + 1 ∧ (r.2 = none → r.1.Done after))
      (fun _ _ => False) w := by
  have htracked := h.tracked e (List.mem_cons_self ..)
  have hcanon := h.canonical htracked.canonical
  obtain ⟨content, mode, hfile⟩ : ∃ content mode, base e.path = some (.file content mode) := by
    have hshape := hpending.shape
    rw [PreparedEdit.Shape] at hshape
    split at hshape
    · exact absurd ‹_› hop
    · exact hshape.1
    · exact hshape.1
  have htarget : w.fs e.path = some (.file content mode) := by
    rw [htracked.target, hpending.installed, hpending.backup]
    exact hfile
  rw [Workspace.replaceTarget, wp_bind, wp_attempt]
  refine wp_recheck hcanon (fun err w₁ hsame => ?_) fun w₁ hsame => ?_
  · exact ⟨h.same hsame, rfl, by rw [hsame.2]; omega, by simp⟩
  rw [wp_bind]
  refine wp_siblingArtifact ?_
  rw [wp_bind, wp_attempt, hsame.2]
  have hartifact : e.path.dropLast ++ [artifactName (e.path.getLastD "edit") "backup"
      (host.uuid w.draws)] = host.artifact w e.path "backup" := rfl
  rw [hartifact]
  obtain ⟨hnew, hnone, hindex⟩ := h.fresh hfresh hdraws e.path "backup"
  have hfree : w.fs (host.artifact w e.path "backup") = none := by rw [h.frame _ hnew, hnone]
  have hbackup : w.fs.Canonical (host.artifact w e.path "backup") := by
    obtain ⟨hplain, hdir⟩ := canonicalize_parent hcanon htracked.nonroot
    exact canonical_artifact hplain hdir "backup"
  refine wp_renameFile (w := { w₁ with draws := w.draws + 1 }) (by simpa [hsame.1] using hcanon)
    (by simpa [hsame.1] using hbackup) (by simp [Host.artifact]) (by simpa [hsame.1] using htarget)
    (by simpa [hsame.1] using hfree) (fun err w₂ hsame₂ => ?_) fun w₂ hd hfs => ?_
  · have hdraws₂ : w₂.draws = w.draws + 1 := hsame₂.2
    refine ⟨?_, rfl, by omega, by simp⟩
    have hfs₂ : w₂.fs = w.fs := hsame₂.1.trans hsame.1
    exact
      { tracked := by rw [hfs₂]; exact h.tracked
        nodup := h.nodup
        frame := by rw [hfs₂]; exact h.frame
        artifacts := fun p hp => by
          obtain ⟨hnone, i, hi, hpath⟩ := h.artifacts p hp
          exact ⟨hnone, i, by omega, hpath⟩ }
  · have hd : w₂.draws = w.draws + 1 := hd
    have hfs : w₂.fs = (w.fs.put e.path none).put (host.artifact w e.path "backup")
        (some (.file content mode)) := by rw [hfs, hsame.1]
    have hconsistent := h.backup hfresh hpending hdraws hfile hd hfs
    have hshape := hpending.shape
    rw [PreparedEdit.Shape] at hshape
    by_cases hupdate : e.operation = .update
    · rw [hupdate] at hshape
      obtain ⟨s, hs⟩ := Option.isSome_iff_exists.mp hshape.2
      simp only [hupdate, if_true]
      rw [← hupdate]
      refine (install_spec hconsistent (s := s) hs ?_ (by simp)).mono ?_ fun _ _ hfalse => hfalse
      · rw [(hconsistent.tracked _ (List.mem_cons_self ..)).target]
        simp [hpending.installed]
      · rintro r w' ⟨hconsistent', hpath, hd', hdone⟩
        exact ⟨hconsistent', hpath, by omega, hdone⟩
    · have hdelete : e.operation = .delete := by
        cases hope : e.operation
        · exact absurd hope hop
        · exact absurd hope hupdate
        · rfl
      rw [hdelete] at hshape
      simp only [hupdate, if_false, wp_pure]
      exact ⟨hconsistent, trivial, by omega, fun _ =>
        ⟨hshape.2.1, .inr ⟨hpending.installed, rfl, hshape.2.2⟩⟩⟩

/-- **One edit.** Its commit leaves an edit that accounts for its paths, complete unless it
failed. -/
theorem commitEdit_spec (hfresh : FreshNames host ws base patch)
    (h : Consistent host ws (2 * patch.edits.length) base after w (e :: rest))
    (hpending : e.Pending base after) (hdraws : w.draws < 2 * patch.edits.length) :
    (ws.commitEdit host e).Wp
      (fun r w' => Consistent host ws (2 * patch.edits.length) base after w' (r.1 :: rest) ∧
        r.1.path = e.path ∧ w'.draws ≤ w.draws + 1 ∧ (r.2 = none → r.1.Done after))
      (fun _ _ => False) w := by
  have htracked := h.tracked e (List.mem_cons_self ..)
  rw [Workspace.commitEdit]
  rcases hop : e.operation with _ | _ | _
  · have hshape := hpending.shape
    rw [PreparedEdit.Shape, hop] at hshape
    obtain ⟨hnone, hstaged⟩ := hshape
    obtain ⟨s, hs⟩ := Option.isSome_iff_exists.mp hstaged
    have hfree : w.fs e.path = none := by
      rw [htracked.target, hpending.installed, hpending.backup]
      exact hnone
    simp only [wp_bind, wp_get]
    split
    · exact ⟨h, rfl, by omega, by simp⟩
    · refine (install_spec h hs hfree fun _ => hnone).mono ?_ fun _ _ hfalse => hfalse
      rintro r w' ⟨hconsistent, hpath, hd, hdone⟩
      exact ⟨hconsistent, hpath, by omega, hdone⟩
  · exact replaceTarget_spec hfresh h hpending hdraws (by simp [hop])
  · exact replaceTarget_spec hfresh h hpending hdraws (by simp [hop])

/-- **The commit loop.** It leaves edits that account for their paths, with the same targets, and
all complete unless it failed. -/
theorem commitEdits_spec (hfresh : FreshNames host ws base patch) (es : List PreparedEdit) :
    ∀ {w : World} {rest : List PreparedEdit},
      Consistent host ws (2 * patch.edits.length) base after w (es ++ rest) →
      (∀ e ∈ es, e.Pending base after) → w.draws + es.length ≤ 2 * patch.edits.length →
      (ws.commitEdits host es).Wp
        (fun r w' => Consistent host ws (2 * patch.edits.length) base after w' (r.1 ++ rest) ∧
          r.1.map (·.path) = es.map (·.path) ∧ (r.2 = none → ∀ e ∈ r.1, e.Done after))
        (fun _ _ => False) w := by
  induction es with
  | nil =>
    intro w rest h _ _
    exact ⟨h, rfl, by simp⟩
  | cons e es ih =>
    intro w rest h hpending hdraws
    rw [List.forall_mem_cons] at hpending
    rw [List.length_cons] at hdraws
    rw [Workspace.commitEdits, wp_bind]
    refine (commitEdit_spec hfresh h hpending.1 (by omega)).mono ?_ fun _ _ hfalse => hfalse
    rintro ⟨e', failure⟩ w₁ ⟨hconsistent, hpath, hd, hdone⟩
    cases failure with
    | some err =>
      refine ⟨hconsistent, ?_, by simp⟩
      rw [List.map_cons, List.map_cons, hpath]
    | none =>
      simp only [wp_bind, wp_pure]
      have hmoved : Consistent host ws (2 * patch.edits.length) base after w₁ (es ++ e' :: rest) :=
        hconsistent.perm List.perm_middle.symm
      refine (ih hmoved hpending.2 (by omega)).mono ?_ fun _ _ hfalse => hfalse
      rintro ⟨es', failure⟩ w₂ ⟨hconsistent', hpaths, hdone'⟩
      refine ⟨hconsistent'.perm List.perm_middle, ?_, fun hnone => ?_⟩
      · rw [List.map_cons, List.map_cons, hpath, hpaths]
      · exact List.forall_mem_cons.mpr ⟨hdone rfl, hdone' hnone⟩

end Committing

/-! ## The rollback -/

section RollingBack

variable {w : World} {e : PreparedEdit} {rest es : List PreparedEdit}
  {err : AxiomError → World → Prop}

/-- The file system with an edit's backup back in its place. -/
def PreparedEdit.restored (e : PreparedEdit) (fs : FileSystem) : FileSystem :=
  match e.backup with
  | some b => (fs.put b none).put e.path (fs b)
  | none => fs

/-- The second half of the rollback of an edit, where its target is free if it has a backup. -/
theorem wp_restoreEdit {ok : List String → World → Prop}
    (hsteady : ∀ n, host.fault .recovery n = none) (hcanon : w.fs.Canonical e.path)
    (hroot : e.path ≠ [])
    (hbackup : ∀ b, e.backup = some b → w.fs e.path = none ∧ w.fs.Canonical b ∧
      ∃ content mode, w.fs b = some (.file content mode))
    (hstaged : ∀ s, e.staged = some s → s ≠ e.path ∧ e.backup ≠ some s ∧ w.fs.Canonical s ∧
      ∃ content mode, w.fs s = some (.file content mode))
    (hdone : ∀ w', w'.draws = w.draws → w'.fs = (e.restored w.fs).without e.staged.toList →
      ok [] w') :
    (Workspace.restoreEdit host e).Wp ok err w := by
  rw [Workspace.restoreEdit, wp_bind, Workspace.restoreBackup, wp_bind, wp_get]
  rcases hb : e.backup with _ | b
  · rw [PreparedEdit.restored] at hdone
    simp only [hb] at hdone
    rw [wp_pure, wp_bind]
    refine wp_removeStaged hsteady ⟨?_, fun p hp => ?_⟩ fun w' hd hfs => hdone w' hd hfs
    · cases e.staged <;> simp
    · exact (hstaged p (by simpa using hp)).2.2
  · rw [PreparedEdit.restored] at hdone
    simp only [hb] at hdone
    obtain ⟨hfree, hcanonb, content, mode, hnode⟩ := hbackup b hb
    have hexists : w.fs.exists? b = true := FileSystem.exists?_file hcanonb hnode
    simp only [hexists, if_true, wp_bind, wp_attempt]
    have hrename := FileSystem.rename_file hcanonb hcanon hroot hnode hfree
    refine wp_syscallWrite_steady hsteady (fun e' w' _ hfail => ?_) fun fs w' hmoved hfs hd => ?_
    · rw [hrename] at hfail
      contradiction
    · rw [hrename] at hmoved
      cases hmoved
      have hkeep : ∀ p, w.fs p = some .dir → w'.fs p = some .dir := by
        intro p hp
        rw [hfs, FileSystem.put, Function.update_of_ne, FileSystem.put, Function.update_of_ne, hp]
        · rintro rfl
          simp [hnode] at hp
        · rintro rfl
          simp [hfree] at hp
      simp only [wp_pure]
      refine wp_removeStaged hsteady ⟨?_, fun p hp => ?_⟩ fun w'' hd' hfs' => hdone w'' ?_ ?_
      · cases e.staged <;> simp
      · obtain ⟨hpath, hpb, hcanonp, content', mode', hnode'⟩ := hstaged p (by simpa using hp)
        refine ⟨hcanonp.congr hkeep, content', mode', ?_⟩
        rw [hfs, FileSystem.put, Function.update_of_ne hpath, FileSystem.put,
          Function.update_of_ne (fun heq => hpb (by rw [hb, heq])), hnode']
      · rw [hd', hd]
      · rw [hfs', hfs, hnode]

/-- **One edit.** Its rollback gives back every path it touched. -/
theorem rollbackEdit_spec (hsteady : ∀ n, host.fault .recovery n = none)
    (h : Consistent host ws n base after w (e :: rest)) :
    (Workspace.rollbackEdit host e).Wp
      (fun errors w' => errors = [] ∧ Consistent host ws n base after w' rest)
      (fun _ _ => False) w := by
  have htracked := h.tracked e (List.mem_cons_self ..)
  have hcanon := h.canonical htracked.canonical
  have hnodup := h.nodup_head
  rw [PreparedEdit.touched, List.nodup_cons, PreparedEdit.artifacts, List.nodup_append,
    List.mem_append, not_or] at hnodup
  obtain ⟨⟨hpathStaged, hpathBackup⟩, _, _, hapart⟩ := hnodup
  have hstagedNe : ∀ s, e.staged = some s → s ≠ e.path ∧ e.backup ≠ some s := fun s hs =>
    ⟨fun heq => hpathStaged (by simp [hs, heq]),
      fun hb => hapart s (by simp [hs]) s (by simp [hb]) rfl⟩
  have hbackupNe : ∀ b, e.backup = some b → b ≠ e.path := fun b hb heq =>
    hpathBackup (by simp [hb, heq])
  -- both halves together, from the state in which the target is given back or free
  have hfinish : ∀ {w₁ : World}, w₁.draws = w.draws → (∀ p, p ≠ e.path → w₁.fs p = w.fs p) →
      (e.backup.isSome = true → w₁.fs e.path = none) →
      (e.backup = none → w₁.fs e.path = base e.path) →
      (∀ p, w.fs p = some .dir → w₁.fs p = some .dir) →
      (Workspace.restoreEdit host e).Wp
        (fun errors w' => errors = [] ∧ Consistent host ws n base after w' rest)
        (fun _ _ => False) w₁ := by
    intro w₁ hd hother hfree hback hkeep
    refine wp_restoreEdit hsteady (hcanon.congr hkeep) htracked.nonroot (fun b hb => ?_)
      (fun s hs => ?_) fun w' hd' hfs => ⟨rfl, h.drop (by omega) (fun p hp => ?_) fun p hp => ?_⟩
    · obtain ⟨hnode, hcanonb, content, mode, hfile⟩ := htracked.backup b hb
      refine ⟨hfree (by simp [hb]), (h.canonical hcanonb).congr hkeep, content, mode, ?_⟩
      rw [hother b (hbackupNe b hb), hnode, hfile]
    · obtain ⟨hnode, hcanons, content, mode, hfile⟩ := htracked.staged s hs
      refine ⟨(hstagedNe s hs).1, (hstagedNe s hs).2, (h.canonical hcanons).congr hkeep, content,
        mode, ?_⟩
      rw [hother s (hstagedNe s hs).1, hnode, hfile]
    · rw [PreparedEdit.touched, List.mem_cons, not_or, PreparedEdit.artifacts, List.mem_append,
        not_or] at hp
      obtain ⟨hpath, hps, hpb⟩ := hp
      rw [hfs, FileSystem.without, if_neg hps, PreparedEdit.restored]
      rcases hb : e.backup with _ | b
      · exact hother p hpath
      · simp only [FileSystem.put]
        rw [Function.update_of_ne hpath, Function.update_of_ne (by simpa [hb, eq_comm] using hpb)]
        exact hother p hpath
    · rw [hfs, FileSystem.without]
      split
      · rename_i hps
        refine ((h.artifacts p ?_).1).symm
        rw [List.flatMap_cons, PreparedEdit.artifacts]
        exact List.mem_append_left _ (List.mem_append_left _ hps)
      · rename_i hps
        rw [PreparedEdit.restored]
        rcases hb : e.backup with _ | b
        · rw [PreparedEdit.touched, PreparedEdit.artifacts, hb, Option.toList_none,
            List.append_nil, List.mem_cons] at hp
          rw [hp.resolve_right hps]
          exact hback hb
        · simp only [FileSystem.put]
          by_cases hpath : p = e.path
          · rw [hpath, Function.update_self, hother b (hbackupNe b hb)]
            exact (htracked.backup b hb).1
          · rw [Function.update_of_ne hpath]
            rw [PreparedEdit.touched, PreparedEdit.artifacts, hb, List.mem_cons, List.mem_append]
              at hp
            have hpb : p = b := by simpa using (hp.resolve_left hpath).resolve_left hps
            rw [hpb, Function.update_self]
            refine ((h.artifacts b ?_).1).symm
            simp [PreparedEdit.artifacts, hb]
  rw [Workspace.rollbackEdit, wp_bind, wp_get]
  by_cases hinstalled : e.installed = true
  · obtain ⟨⟨content, mode, hafter⟩, hcreated⟩ := htracked.installed hinstalled
    have hnode : w.fs e.path = some (.file content mode) := by
      rw [htracked.target, if_pos hinstalled, hafter]
    have hexists : w.fs.exists? e.path = true := FileSystem.exists?_file hcanon hnode
    rw [if_pos ⟨hinstalled, hexists⟩, wp_bind, wp_attempt]
    refine wp_syscallWrite_steady hsteady (fun e' w' _ hfail => ?_) fun fs w' hunlink hfs hd => ?_
    · rw [FileSystem.unlink_file hcanon hnode] at hfail
      contradiction
    · rw [FileSystem.unlink_file hcanon hnode] at hunlink
      cases hunlink
      refine hfinish hd (fun p hp => ?_) (fun _ => ?_) (fun hb => ?_) fun p hp => ?_
      · rw [hfs, FileSystem.put, Function.update_of_ne hp]
      · rw [hfs, FileSystem.put, Function.update_self]
      · rw [hfs, FileSystem.put, Function.update_self, hcreated hb]
      · rw [hfs, FileSystem.put, Function.update_of_ne, hp]
        rintro rfl
        simp [hnode] at hp
  · have htarget := htracked.target
    rw [if_neg hinstalled] at htarget
    rw [if_neg fun hboth => hinstalled hboth.1]
    refine hfinish rfl (fun _ _ => rfl) (fun hb => ?_) (fun hb => ?_) fun _ hp => hp
    · rw [htarget, if_pos hb]
    · rw [htarget, hb]
      rfl

/-- **The rollback.** It gives back every path that the edits touched. -/
theorem rollbackEdits_spec (hsteady : ∀ n, host.fault .recovery n = none)
    (es : List PreparedEdit) : ∀ {w : World}, Consistent host ws n base after w es →
      (Workspace.rollbackEdits host es).Wp (fun errors w' => errors = [] ∧ w'.fs = base)
        (fun _ _ => False) w := by
  induction es with
  | nil =>
    intro w h
    exact ⟨rfl, h.restored⟩
  | cons e es ih =>
    intro w h
    rw [Workspace.rollbackEdits, wp_bind]
    refine (rollbackEdit_spec hsteady h).mono ?_ fun _ _ hfalse => hfalse
    rintro _ w₁ ⟨rfl, h₁⟩
    rw [wp_bind]
    refine (ih h₁).mono ?_ fun _ _ hfalse => hfalse
    rintro _ w₂ ⟨rfl, hfs⟩
    exact ⟨rfl, hfs⟩

end RollingBack

/-! ## The transaction -/

/-- The patch was applied: each edit has a target of its own, which holds what the edit asked for,
and every other path is as before. -/
structure Applied (host : Host) (ws : Workspace) (patch : StructuredPatch) (before fs : FileSystem)
    (outcome : PatchTransactionOutcome) : Prop where
  targets : ∃ targets : List Path, targets.Nodup ∧
    List.Forall₂ (fun edit target => edit.Requests host ws before target (fs target))
      patch.edits targets ∧
    (∀ p, p ∉ targets → fs p = before p) ∧
    outcome.changedPaths = targets.map ws.relative
  warnings : outcome.warnings = []

/-- With all edits complete, removing the backups leaves the patch applied. -/
theorem Consistent.applied {w : World} {es : List PreparedEdit}
    (h : Consistent host ws n base after w es) (hdone : ∀ e ∈ es, e.Done after) :
    w.fs.Files (es.filterMap PreparedEdit.backup) ∧
      (es.map (·.path)).Nodup ∧
      (∀ p ∈ es.map (·.path), (w.fs.without (es.filterMap PreparedEdit.backup)) p = after p) ∧
      ∀ p, p ∉ es.map (·.path) → (w.fs.without (es.filterMap PreparedEdit.backup)) p = base p := by
  have hartifacts : es.flatMap PreparedEdit.artifacts = es.filterMap PreparedEdit.backup := by
    clear h
    induction es with
    | nil => rfl
    | cons e es ih =>
      rw [List.forall_mem_cons] at hdone
      rw [List.flatMap_cons, ih hdone.2, PreparedEdit.artifacts, hdone.1.staged]
      rcases hb : e.backup with _ | b
      · rw [List.filterMap_cons_none hb]
        rfl
      · rw [List.filterMap_cons_some hb]
        rfl
  have hpaths : (es.map (·.path)).Sublist (es.flatMap PreparedEdit.touched) := by
    clear h hdone hartifacts
    induction es with
    | nil => exact List.Sublist.refl _
    | cons e es ih =>
      rw [List.map_cons, List.flatMap_cons, PreparedEdit.touched, List.cons_append]
      exact (ih.trans (List.sublist_append_right _ _)).cons_cons _
  have hdisjoint : ∀ e ∈ es, e.path ∉ es.filterMap PreparedEdit.backup := by
    intro e he hmem
    obtain ⟨e', he', hb⟩ := List.mem_filterMap.mp hmem
    obtain ⟨front, back, hes⟩ := List.append_of_mem he
    have hperm : es.Perm (e :: (front ++ back)) := hes ▸ List.perm_middle
    have h' := h.perm hperm
    rcases List.mem_cons.mp (hperm.mem_iff.mp he') with rfl | he'
    · have := h'.nodup_head
      simp [PreparedEdit.touched, PreparedEdit.artifacts, hb] at this
    · refine h'.disjoint_head (p := e.path) (List.mem_cons_self ..) ?_
      refine List.mem_flatMap.mpr ⟨e', he', ?_⟩
      simp [PreparedEdit.touched, PreparedEdit.artifacts, hb]
  refine ⟨⟨?_, fun p hp => ?_⟩, hpaths.nodup h.nodup, fun p hp => ?_, fun p hp => ?_⟩
  · rw [← hartifacts]
    exact (artifacts_sublist es).nodup h.nodup
  · obtain ⟨e, he, hb⟩ := List.mem_filterMap.mp hp
    obtain ⟨hnode, hcanon, content, mode, hfile⟩ := (h.tracked e he).backup p hb
    exact ⟨h.canonical hcanon, content, mode, hnode.trans hfile⟩
  · obtain ⟨e, he, rfl⟩ := List.mem_map.mp hp
    rw [FileSystem.without, if_neg (hdisjoint e he), (h.tracked e he).target]
    rcases (hdone e he).result with hinstalled | ⟨hinstalled, hbackup, hnone⟩
    · rw [if_pos hinstalled]
    · rw [hinstalled, if_neg (by simp), if_pos hbackup, hnone]
  · rw [FileSystem.without]
    split
    · rename_i hmem
      rw [← hartifacts] at hmem
      exact (h.artifacts p hmem).1.symm
    · rename_i hmem
      refine h.frame p ?_
      rw [mem_touched, not_or, hartifacts]
      refine ⟨fun htarget => ?_, hmem⟩
      obtain ⟨e, he, heq⟩ := htarget
      exact hp (List.mem_map.mpr ⟨e, he, heq⟩)

/-- A structured patch is atomic from every state in which no name was drawn. -/
theorem wp_applyStructuredPatch (patch : StructuredPatch) (maxDiffBytes : Nat) {w : World}
    (hdraws : w.draws = 0) (hfresh : FreshNames host ws w.fs patch)
    (hsteady : ∀ n, host.fault .recovery n = none) :
    (ws.applyStructuredPatch host patch maxDiffBytes).Wp
      (fun outcome w' => Applied host ws patch w.fs w'.fs outcome) (fun _ w' => w'.fs = w.fs) w := by
  rw [Workspace.applyStructuredPatch, wp_bind, wp_failIf]
  refine ⟨fun _ => rfl, fun _ => ?_⟩
  have hstart : AllPrepared host ws (2 * patch.edits.length) w.fs (fun _ => none) w [] [] :=
    { consistent :=
        { tracked := by simp
          nodup := by simp
          frame := fun _ _ => rfl
          artifacts := by simp }
      pending := by simp
      requests := .nil
      draws := Nat.le_of_eq hdraws }
  rw [wp_bind]
  refine (prepareEdits_spec hfresh hsteady patch.edits 0 (List.nil_append _) hstart).mono ?_
    fun _ _ hfs => hfs
  rintro es w₀ ⟨after, hprepared⟩
  have hlength := hprepared.requests.length_eq
  have hdraws := hprepared.draws
  rw [wp_bind]
  have hcommit : Consistent host ws (2 * patch.edits.length) w.fs after w₀ (es ++ []) := by
    rw [List.append_nil]
    exact hprepared.consistent
  refine (commitEdits_spec hfresh es hcommit hprepared.pending (by omega)).mono ?_ fun _ _ hfalse => hfalse.elim
  rintro ⟨es', failure⟩ w₁ ⟨hconsistent, hpaths, hdone⟩
  rw [List.append_nil] at hconsistent
  cases failure with
  | some e =>
    rw [wp_bind, Workspace.rollbackPrepared]
    refine (rollbackEdits_spec hsteady es'.reverse
      (hconsistent.perm es'.reverse_perm.symm)).mono ?_ fun _ _ hfalse => hfalse.elim
    rintro _ w₂ ⟨rfl, hfs⟩
    rw [if_pos rfl, wp_throw]
    exact hfs
  | none =>
    obtain ⟨hfiles, hnodup, hafter, hbefore⟩ := hconsistent.applied (hdone rfl)
    rw [wp_bind]
    refine wp_removeBackups hsteady hfiles fun w₂ hfs => ?_
    rw [wp_pure]
    refine ⟨⟨es'.map (·.path), hnodup, ?_, fun p hp => ?_, ?_⟩, rfl⟩
    · rw [hpaths, List.forall₂_map_right_iff]
      refine forall₂_imp_mem hprepared.requests fun edit e he hreq => ?_
      rw [hfs, hafter e.path (by rw [hpaths]; exact List.mem_map.mpr ⟨e, he, rfl⟩)]
      exact hreq
    · rw [hfs]
      exact hbefore p hp
    · rw [List.map_map]
      refine List.map_congr_left fun e he => ?_
      exact (hconsistent.tracked e he).relative

/-- **A structured patch is atomic.** Whichever system calls of the transaction fail, the call
returns an error and leaves the file system as it was, or applies the whole patch. -/
theorem applyStructuredPatch_atomic (host : Host) (ws : Workspace) (fs : FileSystem)
    (patch : StructuredPatch) (maxDiffBytes : Nat) (hfresh : FreshNames host ws fs patch)
    (hsteady : ∀ n, host.fault .recovery n = none) :
    (ws.applyStructuredPatch host patch maxDiffBytes).Wp
      (fun outcome w => Applied host ws patch fs w.fs outcome)
      (fun _ w => w.fs = fs) { fs } :=
  wp_applyStructuredPatch patch maxDiffBytes rfl hfresh hsteady

end

/-! ## A patch whose commit fails half way -/

namespace TwoEdits

/-- The digest of the one content that the two edits have. -/
def digest : String := "8f434346648f6b96df89dda901c5176b10a6d83961dd3c1ac88b59b2dc327aa4"

/-- The eleventh system call of the transaction fails. -/
def host : Host where
  fault
    | .main, 10 => some (.other "Input/output error (os error 5)")
    | _, _ => none
  shortWrite _ _ := ⟨#[]⟩
  uuid i := s!"c0ffee00-0000-4000-8000-00000000000{i}"
  createMode := 0o644
  sha256 _ := digest
  unifiedDiff old new := if old = "" then "+" ++ new else "-" ++ old

def workspace : Workspace where
  root := ["w"]
  canonical := canonical_w

/-- A workspace with one file. -/
def files : FileSystem
  | ["w"] => some .dir
  | ["w", "a"] => some (.file "hi".toUTF8 0o600)
  | _ => none

def patch : StructuredPatch := ⟨[.create "b" "hi" none, .delete "a" digest]⟩

/-- A name that does not start with a dot is no artifact's. -/
theorem seen_of_head {c : String} (h : c.toList.head? ≠ some '.') (n : Nat) : host.Seen n c := by
  rintro i _ ⟨name, purpose, rfl⟩
  rw [artifactName_toList] at h
  exact h rfl

theorem freshNames : FreshNames host workspace files patch where
  length i hi := by
    have : i < 4 := hi
    interval_cases i <;> decide
  distinct i hi j hj := by
    have hi : i < 4 := hi
    have hj : j < 4 := hj
    interval_cases i <;> interval_cases j <;> decide
  entries p hp c hc := by
    refine seen_of_head ?_ _
    unfold files at hp
    split at hp
    · simp at hc
      rw [hc]
      decide
    · simp at hc
      rcases hc with rfl | rfl <;> decide
    · contradiction
  links p target hp := by
    unfold files at hp
    split at hp <;> simp at hp
  root c hc := by
    rw [List.mem_singleton.mp hc]
    exact seen_of_head (by decide) _
  named edit hedit c hc := by
    refine seen_of_head ?_ _
    rcases List.mem_cons.mp hedit with rfl | hedit
    · have : c ∈ ["b"] := hc
      rw [List.mem_singleton.mp this]
      decide
    · rw [List.mem_singleton.mp hedit] at hc
      have : c ∈ ["a"] := hc
      rw [List.mem_singleton.mp this]
      decide

/-- The patch is atomic although its commit fails. -/
theorem applyStructuredPatch_atomic_failing :
    (workspace.applyStructuredPatch host patch 1000).Wp
      (fun outcome w => Applied host workspace patch files w.fs outcome)
      (fun _ w => w.fs = files) { fs := files } :=
  applyStructuredPatch_atomic host workspace files patch 1000 freshNames fun _ => rfl

end TwoEdits

end AxiomDesktop
