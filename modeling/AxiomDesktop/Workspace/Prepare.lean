import AxiomDesktop.Workspace.Patch

/-!
# The preparation of a patch

What a patch asks for, in terms of the file system before it (`EditIntent.Requests`), and what the
preparation of one edit does: nothing that can be seen, or one staged file beside the target
(`Workspace.prepareEdit_spec`). The names of staged files and backups are random; `FreshNames`
says that the UUIDs drawn are new, and nothing else is asked of them.
-/

namespace AxiomDesktop

open Fallible

/-! ## Random names -/

/-- The name is one that the draw with a number can give. -/
def Host.IsArtifact (host : Host) (i : Nat) (c : String) : Prop :=
  ∃ name purpose, c = artifactName name purpose (host.uuid i)

theorem artifactName_toList (name purpose uuid : String) :
    (artifactName name purpose uuid).toList =
      '.' :: (name.toList ++ ".axiomcli-".toList ++ purpose.toList ++ "-".toList ++
        uuid.toList) := by
  simp [artifactName, ToString.toString]

theorem Host.IsArtifact.name_ne {host : Host} {i : Nat} {c : String} (h : host.IsArtifact i c) :
    c ≠ "." ∧ c ≠ ".." := by
  obtain ⟨name, purpose, rfl⟩ := h
  have hlong : 11 ≤ (artifactName name purpose (host.uuid i)).toList.length := by
    rw [artifactName_toList]
    simp only [List.length_cons, List.length_append]
    have : ".axiomcli-".toList.length = 10 := by decide
    omega
  constructor
  · intro h
    rw [h] at hlong
    exact absurd hlong (by decide)
  · intro h
    rw [h] at hlong
    exact absurd hlong (by decide)

/-- Two draws with UUIDs of one length give one name only where the UUIDs are the same. -/
theorem Host.IsArtifact.uuid_eq {host : Host} {i j : Nat} {c : String}
    (hi : host.IsArtifact i c) (hj : host.IsArtifact j c)
    (hlen : (host.uuid i).length = (host.uuid j).length) : host.uuid i = host.uuid j := by
  obtain ⟨name, purpose, rfl⟩ := hi
  obtain ⟨name', purpose', heq⟩ := hj
  have hlist := congrArg String.toList heq
  rw [artifactName_toList, artifactName_toList] at hlist
  have htail := List.append_inj_right' (List.cons.inj hlist).2
    (by rw [String.length_toList, String.length_toList, hlen])
  exact String.toList_injective htail

/-- No name of the first `n` draws. -/
def Host.Seen (host : Host) (n : Nat) (c : String) : Prop := ∀ i < n, ¬host.IsArtifact i c

/-- The UUIDs drawn for a patch are new: of the length of a UUID, distinct, and in no name that
the file system, the workspace or the patch mentions. -/
structure FreshNames (host : Host) (ws : Workspace) (fs : FileSystem) (patch : StructuredPatch) :
    Prop where
  length : ∀ i < 2 * patch.edits.length, (host.uuid i).length = 36
  distinct : ∀ i < 2 * patch.edits.length, ∀ j < 2 * patch.edits.length,
    host.uuid i = host.uuid j → i = j
  entries : ∀ p, fs p ≠ none → ∀ c ∈ p, host.Seen (2 * patch.edits.length) c
  links : ∀ p target, fs p = some (.link target) →
    ∀ c ∈ target.components, host.Seen (2 * patch.edits.length) c
  root : ∀ c ∈ ws.root, host.Seen (2 * patch.edits.length) c
  named : ∀ edit ∈ patch.edits, ∀ c ∈ Path.components edit.path,
    host.Seen (2 * patch.edits.length) c

/-! ## System calls -/

section Calls

variable {host : Host} {w : World} {α : Type} {ok : α → World → Prop}
  {err : AxiomError → World → Prop}

/-- The file system and the draws are what they were. -/
def World.Same (w w' : World) : Prop := w'.fs = w.fs ∧ w'.draws = w.draws

theorem World.Same.refl (w : World) : w.Same w := ⟨rfl, rfl⟩

theorem World.Same.trans {w w' w'' : World} (h : w.Same w') (h' : w'.Same w'') : w.Same w'' :=
  ⟨h'.1.trans h.1, h'.2.trans h.2⟩

/-- A system call fails without a trace, or does what the file system does. -/
theorem wp_syscall {phase : Phase} {call : FileSystem → Except IoError (α × FileSystem)}
    (hfail : ∀ e w', w.Same w' → (host.fault phase w.calls ≠ none ∨ ∃ e', call w.fs = .error e') →
      err (.io e) w')
    (hdone : ∀ a fs w', call w.fs = .ok (a, fs) → w'.fs = fs → w'.draws = w.draws → ok a w') :
    (syscall host phase call).Wp ok err w := by
  rw [syscall, wp_bind, wp_get, wp_bind, wp_set]
  rcases hfault : host.fault phase w.calls with _ | e
  · simp only []
    rcases hcall : call w.fs with e | ⟨a, fs⟩
    · exact hfail e _ ⟨rfl, rfl⟩ (.inr ⟨e, hcall⟩)
    · exact hdone a fs _ hcall rfl rfl
  · exact hfail e _ ⟨rfl, rfl⟩ (.inl (by simp [hfault]))

theorem wp_syscallRead {phase : Phase} {call : FileSystem → Except IoError α}
    (hfail : ∀ e w', w.Same w' → err e w')
    (hdone : ∀ a w', call w.fs = .ok a → w.Same w' → ok a w') :
    (syscallRead host phase call).Wp ok err w := by
  refine wp_syscall (fun e w' h _ => hfail _ w' h) fun a fs w' hcall hfs hdraws => ?_
  rcases hc : call w.fs with e | b <;> rw [hc] at hcall <;> cases hcall
  exact hdone _ w' hc ⟨hfs, hdraws⟩

theorem wp_syscallWrite {phase : Phase} {call : FileSystem → Except IoError FileSystem}
    {ok : PUnit → World → Prop} (hfail : ∀ e w', w.Same w' → err e w')
    (hdone : ∀ fs w', call w.fs = .ok fs → w'.fs = fs → w'.draws = w.draws → ok ⟨⟩ w') :
    (syscallWrite host phase call).Wp ok err w := by
  refine wp_syscall (fun e w' h _ => hfail _ w' h) fun a fs w' hcall hfs hdraws => ?_
  rcases hc : call w.fs with e | fs' <;> rw [hc] at hcall <;> cases hcall
  exact hdone _ w' hc hfs hdraws

/-- Where the host lets the phase be, a call that writes does what the file system does. -/
theorem wp_syscallWrite_steady {phase : Phase} {call : FileSystem → Except IoError FileSystem}
    {ok : PUnit → World → Prop} (hsteady : ∀ n, host.fault phase n = none)
    (hfail : ∀ e w', w.Same w' → call w.fs = .error e → err (.io e) w')
    (hdone : ∀ fs w', call w.fs = .ok fs → w'.fs = fs → w'.draws = w.draws → ok ⟨⟩ w') :
    (syscallWrite host phase call).Wp ok err w := by
  rw [syscallWrite, syscall, wp_bind, wp_get, wp_bind, wp_set, hsteady]
  rcases hcall : call w.fs with e | fs
  · exact hfail e _ ⟨rfl, rfl⟩ hcall
  · exact hdone fs _ hcall rfl rfl

/-- A removal whose error is dropped. -/
theorem wp_ignore_remove {p : Path} {ok : PUnit → World → Prop}
    (hsteady : ∀ n, host.fault .recovery n = none)
    (hfail : ∀ w', w.Same w' → (∃ e, w.fs.unlink p = .error e) → ok ⟨⟩ w')
    (hdone : ∀ fs w', w.fs.unlink p = .ok fs → w'.fs = fs → w'.draws = w.draws → ok ⟨⟩ w') :
    (ignore (removeFile host .recovery p)).Wp ok err w := by
  rw [ignore, wp_bind, wp_attempt, removeFile]
  refine wp_syscallWrite_steady hsteady ?_ ?_
  · intro e w' hsame hunlink
    exact hfail w' hsame ⟨e, hunlink⟩
  · intro fs w' hunlink hfs hdraws
    exact hdone fs w' hunlink hfs hdraws

theorem wp_siblingArtifact {p : Path} {purpose : String} {ok : Path → World → Prop}
    (hdone : ok (p.dropLast ++ [artifactName (p.getLastD "edit") purpose (host.uuid w.draws)])
      { w with draws := w.draws + 1 }) :
    (siblingArtifact host p purpose).Wp ok err w := by
  rw [siblingArtifact, wp_bind, wp_get, wp_bind, wp_set, wp_pure]
  exact hdone

/-- A write leaves the file as it was, with a part of the content, or with all of it. -/
theorem wp_writeAll {p : Path} {content old : ByteArray} {mode : Nat} {ok : PUnit → World → Prop}
    (hp : w.fs.Canonical p) (hnode : w.fs p = some (.file old mode))
    (hfail : ∀ e w' part, w'.fs = w.fs.put p (some (.file part mode)) → w'.draws = w.draws →
      err e w')
    (hdone : ∀ w', w'.fs = w.fs.put p (some (.file content mode)) → w'.draws = w.draws →
      ok ⟨⟩ w') :
    (writeAll host p content).Wp ok err w := by
  have hput : ∀ content, w.fs.write p content = .ok (w.fs.put p (some (.file content mode))) := by
    intro content
    rw [FileSystem.write, FileSystem.locate_of_canonical hp]
    simp only [hnode]
  have hkeep : w.fs = w.fs.put p (some (.file old mode)) := by
    rw [FileSystem.put, ← hnode, Function.update_eq_self]
  rw [writeAll, wp_bind, wp_get]
  rcases host.fault .main w.calls with _ | e
  · refine wp_syscallWrite (fun e w' h => hfail e w' old (h.1.trans hkeep) h.2) ?_
    intro fs w' hcall hfs hdraws
    rw [hput] at hcall
    cases hcall
    exact hdone w' hfs hdraws
  · simp only [hput, wp_bind, wp_set, wp_throw]
    exact hfail _ _ _ rfl rfl

end Calls

/-! ## Staging -/

section Staging

variable {host : Host} {w : World} {err : AxiomError → World → Prop}

/-- The closure of `stage_content` on a free path: it fails with the path free or a file, or
leaves a file with the content and the last mode it was given. -/
theorem wp_writeStaged {p : Path} {content : ByteArray} {permissions mode : Option Nat}
    {ok : PUnit → World → Prop} (hp : w.fs.Canonical p)
    (hfail : ∀ e w', (w.Same w' ∨ ∃ part m, w'.fs = w.fs.put p (some (.file part m)) ∧
      w'.draws = w.draws) → err e w')
    (hdone : ∀ w', w.fs p = none → w'.draws = w.draws →
      w'.fs = w.fs.put p (some (.file content (mode.getD (permissions.getD host.createMode)))) →
      ok ⟨⟩ w') :
    (writeStaged host p content permissions mode).Wp ok err w := by
  -- after the file is created, every state is the first one with a file at the path
  have hfile : ∀ {w' : World} {part : ByteArray} {m : Nat}, w.fs p = none →
      w'.fs = w.fs.put p (some (.file part m)) →
      w'.fs.Canonical p ∧ w'.fs p = some (.file part m) ∧
        ∀ node, w'.fs.put p node = w.fs.put p node := by
    intro w' part m hnone hfs
    refine ⟨hp.congr fun q hq => ?_, ?_, fun node => ?_⟩
    · rw [hfs, FileSystem.put, Function.update_of_ne, hq]
      rintro rfl
      rw [hnone] at hq
      contradiction
    · rw [hfs, FileSystem.put, Function.update_self]
    · rw [hfs, FileSystem.put, FileSystem.put, FileSystem.put, Function.update_idem]
  unfold writeStaged
  rw [wp_bind]
  refine wp_syscallWrite (fun e w' h => hfail e w' (.inl h)) fun fs w₁ hcreate hfs₁ hd₁ => ?_
  obtain ⟨hnone, rfl⟩ := FileSystem.createNew_ok hp hcreate
  obtain ⟨hp₁, hnode₁, hput₁⟩ := hfile hnone hfs₁
  rw [wp_bind]
  refine wp_writeAll hp₁ hnode₁
    (fun e w' part hfs hd => hfail e w' (.inr ⟨part, host.createMode, ?_, ?_⟩))
    fun w₂ hfs₂ hd₂ => ?_
  · rw [hfs, hput₁]
  · rw [hd, hd₁]
  rw [hput₁] at hfs₂
  rw [wp_bind]
  refine wp_syscallRead (fun e w' h => hfail e w' (.inr ⟨content, host.createMode, h.1.trans hfs₂, ?_⟩))
    fun _ w₃ _ hsame₃ => ?_
  · rw [h.2, hd₂, hd₁]
  have hfs₃ := hsame₃.1.trans hfs₂
  have hd₃ : w₃.draws = w.draws := by rw [hsame₃.2, hd₂, hd₁]
  -- the two changes of the mode, each only where one is given
  have hchmod : ∀ {w₄ : World} {m : Nat} (new : Option Nat) {ok' : PUnit → World → Prop},
      w₄.draws = w.draws → w₄.fs = w.fs.put p (some (.file content m)) →
      (∀ w', w'.draws = w.draws → w'.fs = w.fs.put p (some (.file content (new.getD m))) →
        ok' ⟨⟩ w') →
      (setPermissions host p new).Wp ok' err w₄ := by
    intro w₄ m new ok' hd₄ hfs₄ hok'
    obtain ⟨hp₄, hnode₄, hput₄⟩ := hfile hnone hfs₄
    cases new with
    | none => exact hok' w₄ hd₄ hfs₄
    | some new =>
      refine wp_syscallWrite
        (fun e w' h => hfail e w' (.inr ⟨content, m, h.1.trans hfs₄, h.2.trans hd₄⟩))
        fun fs w' hcall hfs hd => ?_
      have := FileSystem.chmod_ok hp₄ hnode₄ hcall
      exact hok' w' (hd.trans hd₄) (by rw [hfs, this, hput₄]; rfl)
  rw [wp_bind]
  refine hchmod permissions hd₃ hfs₃ fun w₅ hd₅ hfs₅ => ?_
  refine hchmod mode hd₅ hfs₅ fun w₆ hd₆ hfs₆ => ?_
  exact hdone w₆ hnone hd₆ hfs₆

/-- The path of the artifact that the next draw gives beside a path. -/
def Host.artifact (host : Host) (w : World) (p : Path) (purpose : String) : Path :=
  p.dropLast ++ [artifactName (p.getLastD "edit") purpose (host.uuid w.draws)]

/-- `stage_content` beside a path whose parent resolves to itself, where the random name is free:
it fails and leaves nothing, or leaves one new file. -/
theorem wp_stageContent {p : Path} {content : ByteArray} {permissions mode : Option Nat}
    {ok : Path → World → Prop} (hsteady : ∀ n, host.fault .recovery n = none)
    (hparent : w.fs.Canonical p.dropLast) (hplain : w.fs.canonicalize p.dropLast = .ok p.dropLast)
    (hfree : w.fs (host.artifact w p "stage") = none)
    (hfail : ∀ e w', w'.fs = w.fs → w'.draws = w.draws + 1 → err e w')
    (hdone : ∀ w', w.fs.isDir p.dropLast = true → w'.draws = w.draws + 1 →
      w'.fs = w.fs.put (host.artifact w p "stage")
        (some (.file content (mode.getD (permissions.getD host.createMode)))) →
      ok (host.artifact w p "stage") w') :
    (stageContent host p content permissions mode).Wp ok err w := by
  have hname : host.IsArtifact w.draws
      (artifactName (p.getLastD "edit") "stage" (host.uuid w.draws)) := ⟨_, _, rfl⟩
  rw [stageContent, wp_bind]
  refine wp_siblingArtifact ?_
  rw [← Host.artifact, wp_bind, wp_attempt]
  generalize hs : host.artifact w p "stage" = staged at hfree hdone ⊢
  by_cases hdir : w.fs.isDir p.dropLast = true
  · have hcanon : w.fs.Canonical staged := by
      rw [← hs]
      exact hparent.child hdir hname.name_ne
    refine wp_writeStaged (w := { w with draws := w.draws + 1 }) hcanon ?_ ?_
    · rintro e w' (⟨hfs, hd⟩ | ⟨part, m, hfs, hd⟩)
      · -- nothing was created: the removal finds nothing
        rw [wp_bind]
        refine wp_ignore_remove hsteady (fun w'' h _ => ?_) fun fs w'' hunlink _ _ => ?_
        · exact hfail e w'' (h.1.trans hfs) (h.2.trans hd)
        · rw [hfs, FileSystem.unlink_none hcanon hfree] at hunlink
          contradiction
      · -- the file was created: the removal takes it away
        have hcanon' : w'.fs.Canonical staged := hcanon.congr fun q hq => by
          rw [hfs, FileSystem.put, Function.update_of_ne, hq]
          rintro rfl
          rw [hfree] at hq
          contradiction
        have hnode : w'.fs staged = some (.file part m) := by
          rw [hfs, FileSystem.put, Function.update_self]
        rw [wp_bind]
        refine wp_ignore_remove hsteady ?_ fun fs w'' hunlink hfs'' hd'' => ?_
        · rintro w'' _ ⟨e', hunlink⟩
          rw [FileSystem.unlink_file hcanon' hnode] at hunlink
          contradiction
        · rw [FileSystem.unlink_file hcanon' hnode] at hunlink
          cases hunlink
          refine hfail e w'' ?_ (hd''.trans hd)
          rw [hfs'', hfs, FileSystem.put, FileSystem.put, Function.update_idem, ← hfree,
            Function.update_eq_self]
    · intro w' _ hd hfs
      exact hdone w' hdir hd hfs
  · -- the parent is a file: no call on the artifact succeeds
    have hlocate : w.fs.locate staged = .error .notADirectory := by
      rw [← hs, Host.artifact, FileSystem.locate, List.getLast?_concat, List.dropLast_concat]
      simp only [if_neg (not_or.mpr hname.name_ne), hplain, hdir]
      rfl
    unfold writeStaged
    rw [wp_bind]
    refine wp_syscallWrite (fun e w' h => ?_) fun fs w' hcreate _ _ => ?_
    · rw [wp_bind]
      refine wp_ignore_remove hsteady (fun w'' h' _ => hfail e w'' (h'.1.trans h.1) ?_)
        fun fs w'' hunlink _ _ => ?_
      · rw [h'.2, h.2]
      · rw [h.1, FileSystem.unlink, hlocate] at hunlink
        contradiction
    · rw [FileSystem.createNew, hlocate] at hcreate
      contradiction

end Staging

/-! ## What an edit asks for -/

/-- The path names what is at a target below the root. -/
def Workspace.Names (ws : Workspace) (fs : FileSystem) (input : PathBuf) (target : Path) : Prop :=
  ∃ candidate, ws.candidate input = .ok candidate ∧ fs.canonicalize candidate = .ok target ∧
    ws.root.isPrefixOf target = true

/-- The path names a place in a directory below the root. -/
def Workspace.NamesPlace (ws : Workspace) (fs : FileSystem) (input : PathBuf) (target : Path) :
    Prop :=
  ∃ candidate parent name, ws.candidate input = .ok candidate ∧
    (candidate.filter (· ≠ ".")).getLast? = some name ∧
    fs.canonicalize (candidate.filter (· ≠ ".")).dropLast = .ok parent ∧
    ws.root.isPrefixOf parent = true ∧ target = parent ++ [name]

/-- The edit asks, of the file system before the patch, that its target hold an entry, or none. -/
def EditIntent.Requests (host : Host) (ws : Workspace) (fs : FileSystem) :
    EditIntent → Path → Option Node → Prop
  | .create input content mode, target, after =>
    ws.NamesPlace fs input target ∧ fs target = none ∧
      after = some (.file content.toUTF8 (mode.getD host.createMode))
  | .update input expectedSha256 content preserveLineEndings, target, after =>
    ws.Names fs input target ∧ ∃ old oldText permissions,
      fs target = some (.file old permissions) ∧ host.sha256 old = expectedSha256 ∧
      String.fromUTF8? old = some oldText ∧
      after = some (.file
        (if preserveLineEndings then preserveNewlines oldText content else content).toUTF8
        permissions)
  | .delete input expectedSha256, target, after =>
    ws.Names fs input target ∧ ∃ old permissions,
      fs target = some (.file old permissions) ∧ host.sha256 old = expectedSha256 ∧ after = none

section Resolution

variable {host : Host} {ws : Workspace} {w : World} {err : AxiomError → World → Prop}

theorem wp_resolveExistingFrom {candidate : List String} {ok : Path → World → Prop}
    (hfail : ∀ e w', w.Same w' → err e w')
    (hdone : ∀ p w', w.Same w' → w.fs.canonicalize candidate = .ok p →
      ws.root.isPrefixOf p = true → ok p w') :
    (ws.resolveExistingFrom host candidate).Wp ok err w := by
  rw [Workspace.resolveExistingFrom, wp_bind]
  refine wp_syscallRead hfail fun p w' hcanon hsame => ?_
  rw [wp_ofResult, Workspace.ensureInside]
  by_cases hroot : ws.root.isPrefixOf p = true
  · rw [if_pos hroot]
    exact ⟨by simp, by rintro _ ⟨⟩; exact hdone p w' hsame hcanon hroot⟩
  · rw [if_neg hroot]
    exact ⟨fun e _ => hfail e w' hsame, by simp⟩

theorem wp_resolveExisting {input : PathBuf} {ok : Path → World → Prop}
    (hfail : ∀ e w', w.Same w' → err e w')
    (hdone : ∀ p w', w.Same w' → ws.Names w.fs input p → ok p w') :
    (ws.resolveExisting host input).Wp ok err w := by
  rw [Workspace.resolveExisting, wp_bind, wp_ofResult]
  refine ⟨fun e _ => hfail e w (.refl w), fun candidate hcandidate => ?_⟩
  exact wp_resolveExistingFrom hfail fun p w' hsame hcanon hroot =>
    hdone p w' hsame ⟨candidate, hcandidate, hcanon, hroot⟩

theorem wp_resolveForWrite {input : PathBuf} {ok : Path → World → Prop}
    (hfail : ∀ e w', w.Same w' → err e w')
    (hdone : ∀ p w', w.Same w' → ws.Names w.fs input p ∨ ws.NamesPlace w.fs input p → ok p w') :
    (ws.resolveForWrite host input).Wp ok err w := by
  rw [Workspace.resolveForWrite, wp_bind, wp_ofResult]
  refine ⟨fun e _ => hfail e w (.refl w), fun candidate hcandidate => ?_⟩
  rw [wp_bind, wp_get]
  split
  · exact wp_resolveExistingFrom hfail fun p w' hsame hcanon hroot =>
      hdone p w' hsame (.inl ⟨candidate, hcandidate, hcanon, hroot⟩)
  · simp only [wp_bind, wp_okOr, wp_ofResult, wp_pure]
    refine ⟨fun _ => hfail _ w (.refl w), fun name hname => ?_⟩
    refine wp_syscallRead hfail fun parent w' hcanon hsame => ?_
    rw [Workspace.ensureInside]
    by_cases hroot : ws.root.isPrefixOf parent = true
    · rw [if_pos hroot]
      refine ⟨by simp, ?_⟩
      rintro _ ⟨⟩
      exact hdone _ w' hsame
        (.inr ⟨candidate, parent, name, hcandidate, hname, hcanon, hroot, rfl⟩)
    · rw [if_neg hroot]
      exact ⟨fun e _ => hfail e w' hsame, by simp⟩

/-- A read of an edit target gives the content of the file that is there. -/
theorem wp_readEditTarget {p : Path} {maxBytes : Nat} {ok : ByteArray × Nat → World → Prop}
    (hp : w.fs.Canonical p) (hfail : ∀ e w', w.Same w' → err e w')
    (hdone : ∀ bytes mode w', w.Same w' → w.fs p = some (.file bytes mode) → p ≠ [] →
      ok (bytes, mode) w') :
    (readEditTarget host p ws.root maxBytes).Wp ok err w := by
  simp only [readEditTarget, openVerified, wp_bind]
  refine wp_syscallRead hfail fun opened w₁ hopen hsame₁ => ?_
  refine wp_syscallRead (fun e w' h => hfail e w' (hsame₁.trans h)) fun actual w₂ _ hsame₂ => ?_
  have hsame₂ := hsame₁.trans hsame₂
  simp only [wp_failIf, wp_pure]
  refine ⟨fun _ => hfail _ w₂ hsame₂, fun _ => ?_⟩
  refine wp_syscallRead (fun e w' h => hfail e w' (hsame₂.trans h)) fun _ w₃ _ hsame₃ => ?_
  have hsame₃ := hsame₂.trans hsame₃
  obtain ⟨q, node⟩ := opened
  rcases node with ⟨bytes, mode⟩ | _ | target
  · simp only [wp_bind, wp_failIf]
    refine ⟨fun _ => hfail _ w₃ hsame₃, fun _ => ?_⟩
    refine wp_syscallRead (fun e w' h => hfail e w' (hsame₃.trans h)) fun _ w₄ _ hsame₄ => ?_
    rw [FileSystem.openRead, FileSystem.locate_of_canonical hp] at hopen
    cases p with
    | nil => cases hopen
    | cons c cs =>
      rcases hnode : w.fs (c :: cs) with _ | (⟨bytes', mode'⟩ | _ | target) <;>
        simp only [hnode] at hopen <;> cases hopen
      exact hdone bytes mode w₄ (hsame₃.trans hsame₄) hnode (by simp)
  · exact hfail _ w₃ hsame₃
  · exact hfail _ w₃ hsame₃

end Resolution

/-! ## What a path names, before the patch -/

section Names

variable {host : Host} {ws : Workspace} {fs₀ fs : FileSystem} {patch : StructuredPatch}

/-- The file system is the one before the patch, but for entries with a name drawn for it. -/
def SameSeen (host : Host) (n : Nat) (fs₀ fs : FileSystem) : Prop :=
  ∀ p, (∀ c ∈ p, host.Seen n c) → fs₀ p = fs p

theorem FreshNames.candidate (hfresh : FreshNames host ws fs₀ patch) {edit : EditIntent}
    (hedit : edit ∈ patch.edits) {candidate : List String}
    (h : ws.candidate edit.path = .ok candidate) :
    (∀ c ∈ candidate, host.Seen (2 * patch.edits.length) c) ∧ ∀ c ∈ candidate, c ≠ ".." := by
  rw [Workspace.candidate] at h
  split at h
  · contradiction
  · rename_i hdots
    have hdots : ∀ c ∈ Path.components edit.path, c ≠ ".." := by
      rintro _ hc rfl
      exact hdots (List.any_eq_true.mpr ⟨"..", hc, by simp⟩)
    cases h
    split
    · exact ⟨hfresh.named edit hedit, hdots⟩
    · constructor <;> intro c hc <;> rcases List.mem_append.mp hc with hc | hc
      · exact hfresh.root c hc
      · exact hfresh.named edit hedit c hc
      · exact (ws.canonical c hc).2
      · exact hdots c hc

/-- What an edit names after other edits have been prepared, it named before the patch. -/
theorem FreshNames.names (hfresh : FreshNames host ws fs₀ patch)
    (hsame : SameSeen host (2 * patch.edits.length) fs₀ fs) {edit : EditIntent}
    (hedit : edit ∈ patch.edits) {target : Path} (h : ws.Names fs edit.path target) :
    ws.Names fs₀ edit.path target := by
  obtain ⟨candidate, hcandidate, hcanon, hroot⟩ := h
  refine ⟨candidate, hcandidate, ?_, hroot⟩
  rw [FileSystem.canonicalize_congr hsame hfresh.links (hfresh.candidate hedit hcandidate).1]
  exact hcanon

theorem FreshNames.namesPlace (hfresh : FreshNames host ws fs₀ patch)
    (hsame : SameSeen host (2 * patch.edits.length) fs₀ fs) {edit : EditIntent}
    (hedit : edit ∈ patch.edits) {target : Path} (h : ws.NamesPlace fs edit.path target) :
    ws.NamesPlace fs₀ edit.path target := by
  obtain ⟨candidate, parent, name, hcandidate, hname, hcanon, hroot, rfl⟩ := h
  refine ⟨candidate, parent, name, hcandidate, hname, ?_, hroot, rfl⟩
  have hseen := (hfresh.candidate hedit hcandidate).1
  rw [FileSystem.canonicalize_congr hsame hfresh.links fun c hc =>
    hseen c (List.mem_filter.mp (List.dropLast_subset _ hc)).1]
  exact hcanon

/-- A path that a resolution returned has only names that were seen before the patch. -/
theorem FreshNames.seen (hfresh : FreshNames host ws fs₀ patch) {p q : Path}
    (h : fs₀.canonicalize p = .ok q) : ∀ c ∈ q, host.Seen (2 * patch.edits.length) c := by
  intro c hc
  refine hfresh.entries q ?_ c hc
  rcases (FileSystem.canonical_of_canonicalize h).2 with hdir | ⟨content, mode, hfile⟩
  · rw [FileSystem.isDir, Bool.or_eq_true, decide_eq_true_iff, decide_eq_true_iff] at hdir
    rcases hdir with rfl | hdir
    · cases hc
    · simp [hdir]
  · simp [hfile]

/-- A place that an edit names is below a directory or a file that resolves to itself. -/
theorem FreshNames.place (hfresh : FreshNames host ws fs₀ patch) {edit : EditIntent}
    (hedit : edit ∈ patch.edits) {target : Path} (h : ws.NamesPlace fs₀ edit.path target) :
    (∀ c ∈ target, host.Seen (2 * patch.edits.length) c) ∧ target ≠ [] ∧
      fs₀.canonicalize target.dropLast = .ok target.dropLast ∧
      (fs₀.isDir target.dropLast = true → fs₀.Canonical target) := by
  obtain ⟨candidate, parent, name, hcandidate, hname, hcanon, hroot, rfl⟩ := h
  obtain ⟨hseen, hdots⟩ := hfresh.candidate hedit hcandidate
  have hmem := List.mem_filter.mp (List.mem_of_getLast? hname)
  obtain ⟨hparent, hend⟩ := FileSystem.canonical_of_canonicalize hcanon
  rw [List.dropLast_concat]
  refine ⟨fun c hc => ?_, by simp, FileSystem.canonicalize_of_canonical hparent hend, fun hdir => ?_⟩
  · rcases List.mem_append.mp hc with hc | hc
    · exact hfresh.seen hcanon c hc
    · rw [List.mem_singleton.mp hc]
      exact hseen name hmem.1
  · exact hparent.child hdir ⟨by simpa using hmem.2, hdots name hmem.1⟩

end Names

/-! ## The preparation of one edit -/

/-- The fields of a prepared edit fit its operation, what its target was, and what it asks for. -/
def PreparedEdit.Shape (base : FileSystem) (after : Option Node) (e : PreparedEdit) : Prop :=
  match e.operation with
  | .create => base e.path = none ∧ e.staged.isSome = true
  | .update => (∃ old mode, base e.path = some (.file old mode)) ∧ e.staged.isSome = true
  | .delete => (∃ old mode, base e.path = some (.file old mode)) ∧ e.staged = none ∧ after = none

/-- A target was nothing or a file. -/
theorem PreparedEdit.Shape.plain {base : FileSystem} {after : Option Node} {e : PreparedEdit}
    (h : e.Shape base after) :
    base e.path = none ∨ ∃ content mode, base e.path = some (.file content mode) := by
  unfold Shape at h
  split at h
  · exact .inl h.1
  · exact .inr h.1
  · exact .inr h.1

/-- What `prepare_edit` has done for an edit between two states: it recorded the target, and
staged what the edit asks for beside it, or nothing for a deletion. -/
structure PreparedEdit.Prepares (host : Host) (ws : Workspace) (n : Nat) (fs₀ : FileSystem)
    (w w' : World) (edit : EditIntent) (item : PreparedEdit) (after : Option Node) : Prop where
  requests : edit.Requests host ws fs₀ item.path after
  canonical : fs₀.Canonical item.path
  nonroot : item.path ≠ []
  seen : ∀ c ∈ item.path, host.Seen n c
  relative : item.relative = ws.relative item.path
  backup : item.backup = none
  installed : item.installed = false
  shape : item.Shape fs₀ after
  staged : match item.staged with
    | some staged => staged = host.artifact w item.path "stage" ∧
        (∃ content mode, after = some (.file content mode)) ∧ w'.fs = w.fs.put staged after ∧
        fs₀.Canonical staged ∧ w'.draws = w.draws + 1
    | none => after = none ∧ w'.fs = w.fs ∧ w'.draws = w.draws

section Prepare

variable {host : Host} {ws : Workspace} {fs₀ : FileSystem} {patch : StructuredPatch} {w : World}

theorem SameSeen.canonical {fs : FileSystem} (hfresh : FreshNames host ws fs₀ patch)
    (hsame : SameSeen host (2 * patch.edits.length) fs₀ fs) {p : Path} (hp : fs₀.Canonical p) :
    fs.Canonical p :=
  hp.congr fun q hq => by rw [← hsame q (hfresh.entries q (by simp [hq])), hq]

theorem SameSeen.isDir {fs : FileSystem} {n : Nat} (hsame : SameSeen host n fs₀ fs) {p : Path}
    (hp : ∀ c ∈ p, host.Seen n c) : fs.isDir p = fs₀.isDir p := by
  rw [FileSystem.isDir, FileSystem.isDir, hsame p hp]

/-- What a failed preparation leaves. -/
def Untouched (w w' : World) : Prop :=
  w'.fs = w.fs ∧ w.draws ≤ w'.draws ∧ w'.draws ≤ w.draws + 1

theorem Untouched.of_same {w w' : World} (h : w.Same w') : Untouched w w' :=
  ⟨h.1, Nat.le_of_eq h.2.symm, by rw [h.2]; omega⟩

/-- Staging beside a target, in terms of the file system before the patch. -/
theorem wp_stageBeside (hfresh : FreshNames host ws fs₀ patch)
    (hsteady : ∀ n, host.fault .recovery n = none)
    (hsame : SameSeen host (2 * patch.edits.length) fs₀ w.fs)
    (hfree : ∀ p, w.fs (host.artifact w p "stage") = none) {w₁ : World} (hw₁ : w.Same w₁)
    {p : Path} {content : ByteArray} {permissions mode : Option Nat} {ok : Path → World → Prop}
    (hseen : ∀ c ∈ p, host.Seen (2 * patch.edits.length) c)
    (hplain : fs₀.canonicalize p.dropLast = .ok p.dropLast)
    (hdone : ∀ w', fs₀.isDir p.dropLast = true → w'.draws = w.draws + 1 →
      w'.fs = w.fs.put (host.artifact w p "stage")
        (some (.file content (mode.getD (permissions.getD host.createMode)))) →
      ok (host.artifact w p "stage") w') :
    (stageContent host p content permissions mode).Wp ok (fun _ => Untouched w) w₁ := by
  have hparent : ∀ c ∈ p.dropLast, host.Seen (2 * patch.edits.length) c :=
    fun c hc => hseen c (List.dropLast_subset p hc)
  have hartifact : host.artifact w₁ p "stage" = host.artifact w p "stage" := by
    rw [Host.artifact, Host.artifact, hw₁.2]
  obtain ⟨hcanon, hend⟩ := FileSystem.canonical_of_canonicalize hplain
  rw [hsame p.dropLast hparent, ← hsame.isDir hparent] at hend
  refine wp_stageContent hsteady ?_ ?_ ?_ (fun e w' hfs hd => ?_) fun w' hdir hd hfs => ?_
  · rw [hw₁.1]
    exact hsame.canonical hfresh hcanon
  · rw [hw₁.1]
    exact FileSystem.canonicalize_of_canonical (hsame.canonical hfresh hcanon) hend
  · rw [hartifact, hw₁.1]
    exact hfree p
  · rw [hw₁.1] at hfs
    rw [hw₁.2] at hd
    exact ⟨hfs, by omega, by omega⟩
  · rw [hw₁.1, hsame.isDir hparent] at hdir
    rw [hartifact] at hfs ⊢
    exact hdone w' hdir (by rw [hd, hw₁.2]) (by rw [hfs, hw₁.1])

/-- What an edit names after other edits have been prepared is, as before the patch, at a path
through real directories. -/
theorem FreshNames.target (hfresh : FreshNames host ws fs₀ patch)
    (hsame : SameSeen host (2 * patch.edits.length) fs₀ w.fs) {edit : EditIntent}
    (hedit : edit ∈ patch.edits) {p : Path} (h : ws.Names w.fs edit.path p) :
    ws.Names fs₀ edit.path p ∧ fs₀.Canonical p ∧ w.fs.Canonical p ∧ fs₀ p = w.fs p ∧
      ∀ c ∈ p, host.Seen (2 * patch.edits.length) c := by
  have h₀ := hfresh.names hsame hedit h
  obtain ⟨candidate, _, hcanon₀, _⟩ := id h₀
  have hcanonical := (FileSystem.canonical_of_canonicalize hcanon₀).1
  exact ⟨h₀, hcanonical, hsame.canonical hfresh hcanonical, hsame p (hfresh.seen hcanon₀),
    hfresh.seen hcanon₀⟩

/-- The parent of a file is a directory that resolves to itself. -/
theorem canonicalize_parent {fs : FileSystem} {p : Path} (hp : fs.Canonical p) (hne : p ≠ []) :
    fs.canonicalize p.dropLast = .ok p.dropLast ∧ fs.isDir p.dropLast = true := by
  rcases List.eq_nil_or_concat p with rfl | ⟨q, c, rfl⟩
  · contradiction
  · rw [List.concat_eq_append] at hp ⊢
    rw [List.dropLast_concat]
    exact ⟨FileSystem.canonicalize_of_canonical hp.parent.1 (.inl hp.parent.2.1), hp.parent.2.1⟩

/-- A staged file is at a path through real directories. -/
theorem canonical_artifact {p : Path} (hplain : fs₀.canonicalize p.dropLast = .ok p.dropLast)
    (hdir : fs₀.isDir p.dropLast = true) (purpose : String) :
    fs₀.Canonical (host.artifact w p purpose) := by
  have hname : host.IsArtifact w.draws
      (artifactName (p.getLastD "edit") purpose (host.uuid w.draws)) := ⟨_, _, rfl⟩
  exact (FileSystem.canonical_of_canonicalize hplain).1.child hdir hname.name_ne

/-- **One edit.** Its preparation fails and leaves the file system as it was, or stages what the
edit asks for. -/
theorem prepareEdit_spec (hfresh : FreshNames host ws fs₀ patch)
    (hsteady : ∀ n, host.fault .recovery n = none)
    (hsame : SameSeen host (2 * patch.edits.length) fs₀ w.fs)
    (hfree : ∀ p, w.fs (host.artifact w p "stage") = none) {edit : EditIntent}
    (hedit : edit ∈ patch.edits) (total maxBytes : Nat) :
    (ws.prepareEdit host total maxBytes edit).Wp
      (fun r w' => ∃ after,
        r.1.Prepares host ws (2 * patch.edits.length) fs₀ w w' edit after)
      (fun _ => Untouched w) w := by
  have hquit : ∀ (_ : AxiomError) w', w.Same w' → Untouched w w' := fun _ _ h => .of_same h
  cases edit with
  | create input content mode =>
    simp only [Workspace.prepareEdit, wp_bind, wp_failIf, wp_ofResult]
    refine ⟨fun _ => .of_same (.refl w), fun _ => ⟨fun _ _ => .of_same (.refl w), fun _ _ => ?_⟩⟩
    refine wp_resolveForWrite hquit fun p w₁ hw₁ hp => ?_
    simp only [wp_get, wp_pure]
    refine ⟨fun _ => .of_same hw₁, fun hnew => ?_⟩
    rw [Option.not_isSome_iff_eq_none, hw₁.1] at hnew
    rcases hp with hp | hp
    · -- the path resolves, so the target exists
      exfalso
      obtain ⟨_, _, hcanon, _, _⟩ := hfresh.target hsame hedit hp
      obtain ⟨_, _, hresolves, _⟩ := hp
      rcases (FileSystem.canonical_of_canonicalize hresolves).2 with hdir | ⟨bytes, m, hfile⟩
      · rw [FileSystem.isDir, Bool.or_eq_true, decide_eq_true_iff, decide_eq_true_iff] at hdir
        by_cases hnil : p = []
        · subst hnil
          contradiction
        · rw [FileSystem.lstat_of_canonical hcanon hnil, hdir.resolve_left hnil] at hnew
          contradiction
      · by_cases hnil : p = []
        · subst hnil
          contradiction
        · rw [FileSystem.lstat_of_canonical hcanon hnil, hfile] at hnew
          contradiction
    · have hp₀ := hfresh.namesPlace hsame hedit hp
      obtain ⟨hseen, hne, hplain, hcanonical⟩ := hfresh.place hedit hp₀
      refine wp_stageBeside hfresh hsteady hsame hfree hw₁ hseen hplain fun w' hdir hd hfs => ?_
      have hcanon := hcanonical hdir
      have hnone : fs₀ p = none := by
        rw [hsame p hseen, ← FileSystem.lstat_of_canonical (hsame.canonical hfresh hcanon) hne]
        exact hnew
      exact ⟨_,
        { requests := ⟨hp₀, hnone, rfl⟩
          canonical := hcanon
          nonroot := hne
          seen := hseen
          relative := rfl
          backup := rfl
          installed := rfl
          shape := ⟨hnone, rfl⟩
          staged := ⟨rfl, ⟨_, _, rfl⟩, hfs, canonical_artifact hplain hdir "stage", hd⟩ }⟩
  | update input expectedSha256 content preserveLineEndings =>
    simp only [Workspace.prepareEdit, wp_bind]
    refine wp_resolveExisting hquit fun p w₁ hw₁ hp => ?_
    obtain ⟨hp₀, hcanon, hcanon', hnode₀, hseen⟩ := hfresh.target hsame hedit hp
    refine wp_readEditTarget (hw₁.1 ▸ hcanon') (fun _ w' h => .of_same (hw₁.trans h))
      fun old permissions w₂ hw₂ hnode hne => ?_
    have hw₂ := hw₁.trans hw₂
    rw [hw₁.1, ← hnode₀] at hnode
    simp only [wp_failIf, wp_okOr, wp_ofResult, not_not]
    refine ⟨fun _ => .of_same hw₂, fun hsha => ⟨fun _ => .of_same hw₂, fun oldText htext =>
      ⟨fun _ _ => .of_same hw₂, fun _ _ => ?_⟩⟩⟩
    obtain ⟨hplain, hdir⟩ := canonicalize_parent hcanon hne
    refine wp_stageBeside hfresh hsteady hsame hfree hw₂ hseen hplain fun w' _ hd hfs => ?_
    exact ⟨_,
      { requests := ⟨hp₀, old, oldText, permissions, hnode, hsha.symm, htext, rfl⟩
        canonical := hcanon
        nonroot := hne
        seen := hseen
        relative := rfl
        backup := rfl
        installed := rfl
        shape := ⟨⟨old, permissions, hnode⟩, rfl⟩
        staged := ⟨rfl, ⟨_, _, rfl⟩, hfs, canonical_artifact hplain hdir "stage", hd⟩ }⟩
  | delete input expectedSha256 =>
    simp only [Workspace.prepareEdit, wp_bind]
    refine wp_resolveExisting hquit fun p w₁ hw₁ hp => ?_
    obtain ⟨hp₀, hcanon, hcanon', hnode₀, hseen⟩ := hfresh.target hsame hedit hp
    refine wp_readEditTarget (hw₁.1 ▸ hcanon') (fun _ w' h => .of_same (hw₁.trans h))
      fun old permissions w₂ hw₂ hnode hne => ?_
    have hw₂ := hw₁.trans hw₂
    rw [hw₁.1, ← hnode₀] at hnode
    simp only [wp_failIf, wp_okOr, wp_pure, not_not]
    refine ⟨fun _ => .of_same hw₂, fun hsha => ⟨fun _ => .of_same hw₂, fun oldText htext => ?_⟩⟩
    exact ⟨none,
      { requests := ⟨hp₀, old, permissions, hnode, hsha.symm, rfl⟩
        canonical := hcanon
        nonroot := hne
        seen := hseen
        relative := rfl
        backup := rfl
        installed := rfl
        shape := ⟨⟨old, permissions, hnode⟩, rfl, rfl⟩
        staged := ⟨rfl, hw₂.1, hw₂.2⟩ }⟩

end Prepare

end AxiomDesktop
