import AxiomDesktop.Update.Install

/-!
# Updates move forward

In every interleaving of the processes of an update, what a cache has accepted verifies and only
ascends, a call that is refused changes nothing, a release that is larger in both orders is
accepted, and an installer is run only on bytes that match the artifact of an accepted release that
is newer than the version installed (`updates_move_forward`).

A process that installs has the lease of its staging directory from before it reads the installer's
file until after it runs it; what it knows of that file is so as long as it has the lease
(`UpdateTask.Holds`).
-/

namespace AxiomDesktop

open Manifest

variable {config : UpdateConfig} {decodeJob : List UInt8 → Option UpdateJob} {build : UpdateBuild}
  {directory file : String}

/-! ## What the processes leave -/

/-- A call of `accept_sequence` does what is asked of it. -/
structure AcceptCall.Forward (config : UpdateConfig) (call : AcceptCall) : Prop where
  refused : call.answer ≠ .ok () → call.after = call.before
  accepted : call.answer = .ok () → ∃ bytes, call.after = some bytes ∧
    Accepted config call.release bytes
  /-- A release that verifies and is larger in both orders than the one before passes. -/
  passes : call.fault = none → call.release.Verified config →
    (∀ previous bytes, call.before = some bytes → Accepted config previous bytes →
      previous.sequence < call.release.sequence ∧ previous.parts < call.release.parts) →
    call.answer = .ok ()

/-- An installer is run on what an accepted release has for the installation. -/
structure InstallRun.Checked (config : UpdateConfig) (w : UpdateWorld) (run : InstallRun) :
    Prop where
  accepted : run.job.release ∈ w.history (cacheOf config run.job.installation)
  artifact : ∃ artifact, select run.build run.job.release run.job.installation = some artifact ∧
    run.bytes.length = artifact.bytes ∧
    Text.hexEncode (config.crypto.sha256 run.bytes) = artifact.sha256
  newer : versionOf run.build.version < run.job.release.parts
  /-- The version of the build is the one that is installed. -/
  installed : Text.trim run.reported = "axiomcli " ++ run.build.version

theorem versionParts_versionOf {text : String} {version : Version}
    (h : versionParts text = .ok version) : versionOf text = version := by
  rw [versionOf, h]

theorem jobArtifact_ok {job : UpdateJob} {artifact : Artifact}
    (h : Update.jobArtifact build job = .ok artifact) :
    versionOf build.version < job.release.parts ∧
      select build job.release job.installation = some artifact ∧ artifact.name = job.artifact := by
  obtain ⟨version, hversion, h⟩ := Fallible.result_bind_ok h
  obtain ⟨current, hcurrent, h⟩ := Fallible.result_bind_ok h
  obtain ⟨⟨⟩, hnewer, h⟩ := Fallible.result_bind_ok h
  obtain ⟨selected, hselected, h⟩ := Fallible.result_bind_ok h
  obtain ⟨⟨⟩, hname, h⟩ := Fallible.result_bind_ok h
  cases Except.ok.inj h
  refine ⟨?_, context_ok.mp hselected, ensure_ok.mp hname⟩
  rw [Release.parts, versionParts_versionOf hversion, versionParts_versionOf hcurrent]
  exact ensure_ok.mp hnewer

theorem verifyFile_ok {bytes : List UInt8} {artifact : Artifact}
    (h : verifyFile config bytes artifact = .ok ()) : bytes.length = artifact.bytes ∧
      Text.hexEncode (config.crypto.sha256 bytes) = artifact.sha256 := by
  obtain ⟨⟨⟩, hlength, h⟩ := Fallible.result_bind_ok h
  exact ⟨ensure_ok.mp hlength, ensure_ok.mp h⟩

/-! ## What a process knows -/

/-- What a process of an update knows. -/
structure UpdateTask where
  leased : Option String := none
  /-- The releases that it has put into caches. -/
  accepted : List (String × Release) := []
  /-- The file of a staging directory that it has read last. -/
  read : Option (String × String × List UInt8) := none
  reported : String := ""

/-- A process has checked a job, and the file of its installer, in a directory. -/
structure UpdateTask.HasChecked (φ : UpdateTask) (config : UpdateConfig) (build : UpdateBuild)
    (directory : String) (job : UpdateJob) : Prop where
  accepted : (cacheOf config job.installation, job.release) ∈ φ.accepted
  artifact : ∃ artifact bytes, φ.read = some (directory, job.artifact, bytes) ∧
    Update.jobArtifact build job = .ok artifact ∧ verifyFile config bytes artifact = .ok ()

/-- What a process knows, and what it needs of it. -/
def installing (config : UpdateConfig) :
    Protocol UpdateEffect UpdateEffect.Answer UpdateTask where
  requires
    | .accept _ release, _ => Valid release
    | .install build job directory, φ => φ.leased = some directory ∧
        φ.HasChecked config build directory job ∧
        Text.trim φ.reported = "axiomcli " ++ build.version
    | .release directory, φ | .finish directory, φ => φ.leased = some directory
    | _, _ => True
  admits _ _ _ := True
  next
    | .readFile directory file, φ, .ok bytes => { φ with read := some (directory, file, bytes) }
    | .accept cache release, φ, .ok () => { φ with accepted := (cache, release) :: φ.accepted }
    | .lease directory, φ, .ok () => { φ with leased := some directory, read := none }
    | .release _, φ, _ | .finish _, φ, _ => { φ with leased := none }
    | .version _, φ, .ok (_, stdout) => { φ with reported := stdout }
    | _, φ, _ => φ

namespace UpdateTask

variable {φ : UpdateTask}

/-- The process keeps to the protocol and ends in `Q`. -/
abbrev Keeps {α : Type} (config : UpdateConfig) (p : UpdateProg α) (Q : α → UpdateTask → Prop)
    (φ : UpdateTask) : Prop :=
  (installing config).Keeps p Q φ

/-- The lease is the one that it was. -/
def KeepsLease {α : Type} (φ : UpdateTask) (_ : α) (ψ : UpdateTask) : Prop := ψ.leased = φ.leased

/-- A job is read, with the lease as it was. -/
def Reads (config : UpdateConfig) (build : UpdateBuild) (directory : String) (φ : UpdateTask) :
    Except UpdateError UpdateJob → UpdateTask → Prop
  | .error _, ψ => ψ.leased = φ.leased
  | .ok job, ψ => ψ.leased = φ.leased ∧ ψ.HasChecked config build directory job

theorem acceptJob_keeps {job : UpdateJob} (h : Valid job.release) :
    Keeps config (Update.acceptJob config build directory job) (Reads config build directory φ)
      φ := by
  refine (installing config).keeps_effect_bind.mpr ⟨h, ?_⟩
  rintro (error | ⟨⟩) -
  · rfl
  · dsimp only
    split
    · rfl
    · next artifact hartifact =>
      refine (installing config).keeps_effect_bind.mpr ⟨trivial, ?_⟩
      rintro (error | bytes) -
      · rfl
      · dsimp only
        split
        · rfl
        · next hverified =>
          exact ⟨rfl, List.mem_cons_self, artifact, bytes, rfl, hartifact, hverified⟩

theorem sameInstallation_keeps {installation : Installation}
    {Q : Except UpdateError Unit → UpdateTask → Prop} (hQ : ∀ result, Q result φ) :
    Keeps config (Update.sameInstallation installation) Q φ := by
  unfold Update.sameInstallation
  split
  · exact (installing config).keeps_effect_bind.mpr ⟨trivial, fun _ _ => hQ _⟩
  · refine (installing config).keeps_effect_bind.mpr ⟨trivial, ?_⟩
    rintro (error | found) - <;> exact hQ _

theorem readJobFile_keeps {Q : Except UpdateError UpdateJob → UpdateTask → Prop}
    (hQ : ∀ result read, Q result { φ with read }) :
    Keeps config (Update.readJobFile decodeJob directory file) Q φ := by
  refine (installing config).keeps_effect_bind.mpr ⟨trivial, ?_⟩
  rintro (error | bytes) -
  · exact hQ _ φ.read
  · exact hQ _ (some (directory, file, bytes))

/-- **A job that is read** is checked, with the file of its installer. -/
theorem readJob_keeps : Keeps config (Update.readJob config decodeJob build directory file)
    (Reads config build directory φ) φ := by
  refine (installing config).keeps_bind.mpr (readJobFile_keeps fun result read => ?_)
  cases result with
  | error error => rfl
  | ok job =>
    dsimp only
    split
    · rfl
    · next hparse =>
      refine (installing config).keeps_effect_bind.mpr ⟨trivial, fun inside _ => ?_⟩
      split
      · rfl
      · refine (installing config).keeps_bind.mpr (sameInstallation_keeps fun same => ?_)
        cases same with
        | error error => rfl
        | ok _ =>
          dsimp only
          split
          · rfl
          · split
            · rfl
            · exact acceptJob_keeps (valid_of_toVec hparse)

theorem startupCheck_keeps {job : UpdateJob} {ψ : UpdateTask} (h : ψ.leased = φ.leased) :
    Keeps config (Update.startupCheck job) (KeepsLease φ) ψ := by
  refine (installing config).keeps_effect_bind.mpr ⟨trivial, ?_⟩
  rintro (error | ⟨success, stdout⟩) - <;> exact h

theorem install_keeps {job : UpdateJob} {Q : Except UpdateError Unit → UpdateTask → Prop}
    (hleased : φ.leased = some directory) (hchecked : φ.HasChecked config build directory job)
    (hreported : Text.trim φ.reported = "axiomcli " ++ build.version) (hQ : ∀ result, Q result φ) :
    Keeps config (Update.install build directory job) Q φ := by
  unfold Update.install
  split
  · exact hQ _
  · exact ((installing config).keeps_effect _).mpr ⟨⟨hleased, hchecked, hreported⟩, fun _ _ => hQ _⟩

/-- **An installer is run** on what is checked again under the guard. -/
theorem installExclusive_keeps (hleased : φ.leased = some directory) :
    Keeps config (Update.installExclusive config decodeJob build directory file) (KeepsLease φ)
      φ := by
  refine (installing config).keeps_bind.mpr (Protocol.Keeps.mono _ readJob_keeps ?_)
  rintro (error | checked) ψ hread
  · exact hread
  · obtain ⟨hkept, hchecked⟩ := hread
    refine (installing config).keeps_effect_bind.mpr ⟨trivial, ?_⟩
    rintro (error | ⟨success, stdout⟩) -
    · exact hkept
    · dsimp only
      split
      · exact hkept
      · split
        · exact startupCheck_keeps hkept
        · split
          · exact hkept
          · next hreported =>
            refine (installing config).keeps_bind.mpr
              (install_keeps (hkept.trans hleased) ?_ (not_not.mp hreported) ?_)
            · exact ⟨hchecked.accepted, hchecked.artifact⟩
            · rintro (error | ⟨⟩)
              · exact hkept
              · exact startupCheck_keeps hkept

theorem installStaged_keeps (hleased : φ.leased = some directory) :
    Keeps config (Update.installStaged config decodeJob build directory file) (KeepsLease φ)
      φ := by
  refine (installing config).keeps_bind.mpr (Protocol.Keeps.mono _ readJob_keeps ?_)
  rintro (error | job) ψ hread
  · exact hread
  · obtain ⟨hkept, -⟩ := hread
    refine (installing config).keeps_effect_bind.mpr ⟨trivial, ?_⟩
    rintro (error | ⟨⟩) -
    · exact hkept
    · refine (installing config).keeps_bind.mpr (Protocol.Keeps.mono _
        (installExclusive_keeps (hkept.trans hleased)) fun result χ hχ => ?_)
      refine (installing config).keeps_effect_bind.mpr ⟨trivial, fun _ _ => ?_⟩
      exact hχ.trans hkept

theorem applyLeased_keeps (hleased : φ.leased = some directory) :
    Keeps config (Update.applyLeased config decodeJob build directory file) (fun _ _ => True)
      φ := by
  refine (installing config).keeps_effect_bind.mpr ⟨trivial, ?_⟩
  rintro (error | ⟨⟩) -
  · exact ((installing config).keeps_effect _).mpr ⟨hleased, fun _ _ => trivial⟩
  · refine (installing config).keeps_bind.mpr (Protocol.Keeps.mono _ (installStaged_keeps hleased)
      fun result ψ hψ => ?_)
    exact ((installing config).keeps_effect _).mpr ⟨hψ.trans hleased, fun _ _ => trivial⟩

theorem applyRun_keeps {readyFile : Bool} :
    Keeps config (Update.applyRun config decodeJob build directory file readyFile)
      (fun _ _ => True) φ := by
  refine (installing config).keeps_bind.mpr (Protocol.Keeps.mono _ readJob_keeps ?_)
  rintro (error | job) ψ -
  · trivial
  · refine (installing config).keeps_effect_bind.mpr ⟨trivial, ?_⟩
    rintro (error | ⟨⟩) -
    · trivial
    · dsimp only
      split
      · refine (installing config).keeps_effect_bind.mpr ⟨trivial, ?_⟩
        rintro (error | ⟨⟩) -
        · exact ((installing config).keeps_effect _).mpr ⟨rfl, fun _ _ => trivial⟩
        · exact applyLeased_keeps rfl
      · exact applyLeased_keeps rfl

theorem checkUpdates_keeps {installation : Installation} {feed : List UInt8} :
    Keeps config (Update.checkUpdates config installation feed) (fun _ _ => True) φ := by
  unfold Update.checkUpdates
  split
  · trivial
  · next hparse =>
    split
    · trivial
    · exact (installing config).keeps_effect_bind.mpr
        ⟨parseRelease_valid hparse, fun _ _ => trivial⟩

/-- **Every process keeps to the protocol.** -/
theorem call_keeps (operation : UpdateOperation) :
    Keeps config (operation.call config decodeJob) (fun _ _ => True) φ := by
  cases operation with
  | check installation feed => exact checkUpdates_keeps
  | start build directory file =>
    exact (installing config).keeps_bind.mpr (Protocol.Keeps.mono _ readJob_keeps
      fun _ _ _ => trivial)
  | apply build directory file readyFile => exact applyRun_keeps

end UpdateTask

/-! ## The caches -/

/-- What a process knows is so: the file that it has read is as it was while it has the lease. -/
structure UpdateTask.Holds (φ : UpdateTask) (w : UpdateWorld) (i : Nat) : Prop where
  accepted : ∀ cache release, (cache, release) ∈ φ.accepted → release ∈ w.history cache
  leased : ∀ directory, φ.leased = some directory → i ∉ w.dropped →
    w.leases directory = some i
  read : ∀ directory file bytes, φ.read = some (directory, file, bytes) →
    φ.leased = some directory → i ∉ w.dropped → w.files directory file = some bytes
  reported : w.reported i = φ.reported

/-- The guards of `exclusive` are nothing that a process knows of. -/
theorem UpdateTask.Holds.of_exclusive {φ : UpdateTask} {w : UpdateWorld} {i : Nat}
    {exclusive : String → Option Nat} (h : φ.Holds w i) : φ.Holds { w with exclusive } i :=
  ⟨h.accepted, h.leased, h.read, h.reported⟩

/-- What the processes leave in the caches, over what was there, and what they know, is so. -/
structure UpdateWorld.Holds (config : UpdateConfig) (past : String → List Release)
    (w : UpdateWorld) (φ : Nat → UpdateTask) : Prop where
  grows : ∀ cache, past cache <:+ w.history cache
  /-- `accepted.json` has the last release. -/
  last : ∀ cache, w.accepted cache = (w.history cache).head?.map toVec
  valid : ∀ cache, ∀ release ∈ w.history cache, Valid release ∧ release.Verified config
  follows : ∀ cache, (w.history cache).Pairwise Release.Follows
  calls : ∀ call ∈ w.calls, call.Forward config
  installs : ∀ run ∈ w.installs, run.Checked config w
  tasks : ∀ i, (φ i).Holds w i

namespace UpdateWorld.Holds

variable {past : String → List Release} {w : UpdateWorld} {φ : Nat → UpdateTask} {i : Nat}

/-- The processes other than one know what they knew. -/
theorem others {w' : UpdateWorld} {ψ : UpdateTask} (h : w.Holds config past φ)
    (hothers : ∀ j, j ≠ i → (φ j).Holds w j → (φ j).Holds w' j) (hi : ψ.Holds w' i) :
    ∀ j, (Function.update φ i ψ j).Holds w' j := by
  intro j
  by_cases hj : j = i
  · subst hj
    rwa [Function.update_self]
  · rw [Function.update_of_ne hj]
    exact hothers j hj (h.tasks j)

/-- What is accepted last, where something is. -/
theorem accepted_last {cache : String} {bytes : List UInt8} (h : w.Holds config past φ)
    (hbytes : w.accepted cache = some bytes) :
    ∃ release, release ∈ w.history cache ∧ Accepted config release bytes ∧
      ∀ older ∈ w.history cache, release.Follows older := by
  have hlast := h.last cache
  have hvalid := h.valid cache
  have hfollows := h.follows cache
  rw [hbytes] at hlast
  cases hhistory : w.history cache with
  | nil =>
    rw [hhistory] at hlast
    cases hlast
  | cons release older =>
    rw [hhistory] at hlast hvalid hfollows
    obtain ⟨hrelease, hverified⟩ := hvalid release List.mem_cons_self
    refine ⟨release, List.mem_cons_self, ⟨hrelease, hverified, Option.some.inj hlast⟩, ?_⟩
    rintro other (_ | ⟨_, hother⟩)
    · exact .inl rfl
    · exact (List.pairwise_cons.mp hfollows).1 other hother

/-- **A call does what is asked of it.** -/
theorem call_forward {cache : String} {release : Release} {fault : Option AcceptFault}
    (h : w.Holds config past φ) (hrelease : Valid release) :
    ∀ call ∈ (w.accept config cache release fault).1.calls, call.Forward config := by
  intro call hcall
  unfold UpdateWorld.accept at hcall
  split at hcall
  · next error hrefused =>
    rcases List.mem_cons.mp hcall with rfl | hcall
    · refine ⟨fun _ => rfl, nofun, ?_⟩
      rintro rfl hverified hlarger
      have hpasses := acceptSequence_follows hrelease hverified fun bytes hbytes => by
        obtain ⟨previous, -, haccepted, -⟩ := h.accepted_last hbytes
        exact ⟨previous, haccepted, .inr (hlarger previous bytes hbytes haccepted)⟩
      rw [hpasses] at hrefused
      cases hrefused
    · exact h.calls call hcall
  · next bytes hok =>
    rcases List.mem_cons.mp hcall with rfl | hcall
    · exact ⟨fun hrefused => absurd rfl hrefused, fun _ => ⟨bytes, rfl,
        (acceptSequence_ok hrelease hok).1⟩, fun _ _ _ => rfl⟩
    · exact h.calls call hcall

/-- A release that passes follows what was accepted before it. -/
theorem follows_history {cache : String} {release : Release} {fault : Option AcceptFault}
    {bytes : List UInt8} (h : w.Holds config past φ) (hrelease : Valid release)
    (hok : acceptSequence config fault release (w.accepted cache) = .ok bytes) :
    ∀ older ∈ w.history cache, release.Follows older := by
  intro older holder
  obtain ⟨-, hfollows⟩ := acceptSequence_ok hrelease hok
  have hlast := h.last cache
  cases hhistory : w.history cache with
  | nil => simp [hhistory] at holder
  | cons previous _ =>
    rw [hhistory] at hlast
    obtain ⟨last, -, hprevious, hold⟩ := h.accepted_last hlast
    exact (hfollows _ _ hlast hprevious).trans (hold older holder)

/-- **A call of `accept_sequence`** puts its release before the others, where it passes. -/
theorem accept {cache : String} {release : Release} {fault : Option AcceptFault}
    (h : w.Holds config past φ) (hrelease : Valid release) :
    (w.accept config cache release fault).1.Holds config past (Function.update φ i
      ((installing config).next (.accept cache release) (φ i)
        (w.accept config cache release fault).2)) := by
  have hcalls : ∀ call ∈ (w.accept config cache release fault).1.calls, call.Forward config :=
    h.call_forward hrelease
  unfold UpdateWorld.accept at hcalls ⊢
  split
  · next error hrefused =>
    simp only [hrefused] at hcalls
    exact ⟨h.grows, h.last, h.valid, h.follows, hcalls, fun run hrun =>
      ⟨(h.installs run hrun).accepted, (h.installs run hrun).artifact,
        (h.installs run hrun).newer, (h.installs run hrun).installed⟩,
      h.others (fun j _ hj => ⟨hj.accepted, hj.leased, hj.read, hj.reported⟩)
        ⟨(h.tasks i).accepted, (h.tasks i).leased, (h.tasks i).read, (h.tasks i).reported⟩⟩
  · next bytes hok =>
    simp only [hok] at hcalls
    obtain ⟨haccepted, -⟩ := acceptSequence_ok hrelease hok
    have hself : Function.update w.history cache (release :: w.history cache) cache =
        release :: w.history cache := Function.update_self _ _ _
    have hother {c : String} (hc : c ≠ cache) :
        Function.update w.history cache (release :: w.history cache) c = w.history c :=
      Function.update_of_ne hc _ _
    have hkept (c : String) (old : Release) (hold : old ∈ w.history c) :
        old ∈ Function.update w.history cache (release :: w.history cache) c := by
      by_cases hc : c = cache
      · subst hc
        rw [hself]
        exact List.mem_cons_of_mem _ hold
      · rwa [hother hc]
    have hothers (j : Nat) (hj : (φ j).Holds w j) (c : String) (old : Release)
        (hold : (c, old) ∈ (φ j).accepted) := hkept c old (hj.accepted c old hold)
    refine ⟨fun c => ?_, fun c => ?_, fun c => ?_, fun c => ?_, hcalls, fun run hrun => ?_,
      h.others ?_ ?_⟩
    · dsimp only
      by_cases hc : c = cache
      · subst hc
        rw [hself]
        exact (h.grows c).trans (List.suffix_cons _ _)
      · rw [hother hc]
        exact h.grows c
    · by_cases hc : c = cache
      · subst hc
        simp [haccepted.bytes]
      · simpa [Function.update_of_ne hc] using h.last c
    · dsimp only
      by_cases hc : c = cache
      · subst hc
        rw [hself]
        exact List.forall_mem_cons.mpr ⟨⟨hrelease, haccepted.verified⟩, h.valid c⟩
      · rw [hother hc]
        exact h.valid c
    · dsimp only
      by_cases hc : c = cache
      · subst hc
        rw [hself]
        exact List.pairwise_cons.mpr ⟨h.follows_history hrelease hok, h.follows c⟩
      · rw [hother hc]
        exact h.follows c
    · have hchecked := h.installs run hrun
      exact ⟨hkept _ _ hchecked.accepted, hchecked.artifact, hchecked.newer, hchecked.installed⟩
    · exact fun j _ hj => ⟨hothers j hj, hj.leased, hj.read, hj.reported⟩
    · refine ⟨fun c old hold => ?_, (h.tasks i).leased, (h.tasks i).read, (h.tasks i).reported⟩
      dsimp only
      rcases List.mem_cons.mp hold with heq | hold
      · cases heq
        rw [hself]
        exact List.mem_cons_self
      · exact hothers i (h.tasks i) c old hold

/-- What is in the caches stays so where only the processes, and their files, change. -/
theorem of_tasks {w' : UpdateWorld} {φ' : Nat → UpdateTask} (h : w.Holds config past φ)
    (haccepted : w'.accepted = w.accepted) (hhistory : w'.history = w.history)
    (hcalls : w'.calls = w.calls) (hinstalls : w'.installs = w.installs)
    (htasks : ∀ j, (φ' j).Holds w' j) : w'.Holds config past φ' := by
  refine ⟨?_, ?_, ?_, ?_, ?_, ?_, htasks⟩
  · rw [hhistory]
    exact h.grows
  · rw [haccepted, hhistory]
    exact h.last
  · rw [hhistory]
    exact h.valid
  · rw [hhistory]
    exact h.follows
  · rw [hcalls]
    exact h.calls
  · rw [hinstalls]
    intro run hrun
    have hchecked := h.installs run hrun
    refine ⟨?_, hchecked.artifact, hchecked.newer, hchecked.installed⟩
    rw [hhistory]
    exact hchecked.accepted

theorem readFile {directory file : String} {bytes : List UInt8} (h : w.Holds config past φ)
    (hbytes : w.files directory file = some bytes) :
    w.Holds config past (Function.update φ i { φ i with read := some (directory, file, bytes) }) := by
  refine h.of_tasks rfl rfl rfl rfl (h.others (fun _ _ hj => hj) ?_)
  refine ⟨(h.tasks i).accepted, (h.tasks i).leased, ?_, (h.tasks i).reported⟩
  rintro _ _ _ ⟨⟩ - -
  exact hbytes

theorem lease {directory : String} (h : w.Holds config past φ) (hfree : w.leases directory = none) :
    ({ w with leases := Function.update w.leases directory (some i) } : UpdateWorld).Holds config past
      (Function.update φ i { φ i with leased := some directory, read := none }) := by
  refine h.of_tasks rfl rfl rfl rfl (h.others (fun j _ hj => ?_) ?_)
  · refine ⟨hj.accepted, fun d hd hdropped => ?_, hj.read, hj.reported⟩
    have hlease := hj.leased d hd hdropped
    have hne : d ≠ directory := by
      rintro rfl
      rw [hfree] at hlease
      cases hlease
    exact (Function.update_of_ne hne _ _).trans hlease
  · refine ⟨(h.tasks i).accepted, ?_, nofun, (h.tasks i).reported⟩
    rintro _ ⟨⟩ -
    exact Function.update_self _ _ _

/-- **A lease is given up** by the one that has it; the files of the directory may go with it. -/
theorem release {directory : String} {files : String → String → Option (List UInt8)}
    (h : w.Holds config past φ) (hleased : (φ i).leased = some directory) (hdropped : i ∉ w.dropped)
    (hfiles : ∀ d, d ≠ directory → files d = w.files d) :
    ({ w with files, leases := Function.update w.leases directory none } : UpdateWorld).Holds config past
      (Function.update φ i { φ i with leased := none }) := by
  refine h.of_tasks rfl rfl rfl rfl (h.others (fun j hji hj => ?_) ?_)
  · have hlease := (h.tasks i).leased directory hleased hdropped
    have hne (d : String) (hd : (φ j).leased = some d) (hj' : j ∉ w.dropped) : d ≠ directory := by
      rintro rfl
      rw [hj.leased d hd hj'] at hlease
      exact hji (Option.some.inj hlease)
    refine ⟨hj.accepted, fun d hd hj' => ?_, fun d f bytes hread hd hj' => ?_, hj.reported⟩
    · exact (Function.update_of_ne (hne d hd hj') _ _).trans (hj.leased d hd hj')
    · show files d f = some bytes
      rw [hfiles d (hne d hd hj')]
      exact hj.read d f bytes hread hd hj'
  · exact ⟨(h.tasks i).accepted, nofun, nofun, (h.tasks i).reported⟩

theorem version {stdout : String} (h : w.Holds config past φ) :
    ({ w with reported := Function.update w.reported i stdout } : UpdateWorld).Holds config past
      (Function.update φ i { φ i with reported := stdout }) := by
  refine h.of_tasks rfl rfl rfl rfl (h.others (fun j hji hj => ?_) ?_)
  · exact ⟨hj.accepted, hj.leased, hj.read, (Function.update_of_ne hji _ _).trans hj.reported⟩
  · exact ⟨(h.tasks i).accepted, (h.tasks i).leased, (h.tasks i).read, Function.update_self _ _ _⟩

/-- **An installer is run** on the file that the process has read. -/
theorem install {build : UpdateBuild} {job : UpdateJob} {directory : String} {bytes : List UInt8}
    (h : w.Holds config past φ)
    (hrequires : (installing config).requires (.install build job directory) (φ i))
    (hdropped : i ∉ w.dropped) (hbytes : w.files directory job.artifact = some bytes) :
    ({ w with installs := ⟨build, job, bytes, w.reported i⟩ :: w.installs } : UpdateWorld).Holds
      config past φ := by
  obtain ⟨hleased, ⟨haccepted, artifact, read, hread, hartifact, hverified⟩, hreported⟩ := hrequires
  have hread := (h.tasks i).read _ _ _ hread hleased hdropped
  rw [hbytes] at hread
  cases hread
  obtain ⟨hnewer, hselected, -⟩ := jobArtifact_ok hartifact
  refine ⟨h.grows, h.last, h.valid, h.follows, h.calls, ?_, fun j =>
    ⟨(h.tasks j).accepted, (h.tasks j).leased, (h.tasks j).read, (h.tasks j).reported⟩⟩
  intro run hrun
  rcases List.mem_cons.mp hrun with rfl | hrun
  · refine ⟨(h.tasks i).accepted _ _ haccepted, ⟨artifact, hselected, verifyFile_ok hverified⟩,
      hnewer, ?_⟩
    show Text.trim (w.reported i) = _
    rw [(h.tasks i).reported, hreported]
  · have hchecked := h.installs run hrun
    exact ⟨hchecked.accepted, hchecked.artifact, hchecked.newer, hchecked.installed⟩

/-- A file is written where nobody has the lease of its directory. -/
theorem written {directory file : String} {bytes : Option (List UInt8)} (h : w.Holds config past φ)
    (hfree : w.leases directory = none) :
    ({ w with
      files := Function.update w.files directory
        (Function.update (w.files directory) file bytes) } : UpdateWorld).Holds config past φ := by
  refine h.of_tasks rfl rfl rfl rfl fun j => ?_
  have hj := h.tasks j
  refine ⟨hj.accepted, hj.leased, fun d f bytes hread hd hdropped => ?_, hj.reported⟩
  have hlease := hj.leased d hd hdropped
  have hne : d ≠ directory := by
    rintro rfl
    rw [hfree] at hlease
    cases hlease
  show Function.update w.files directory _ d f = some bytes
  rw [Function.update_of_ne hne]
  exact hj.read d f bytes hread hd hdropped

theorem dropped {j : Nat} (h : w.Holds config past φ) :
    ({ w with
      dropped := j :: w.dropped
      leases := fun directory => (w.leases directory).filter (· ≠ j)
      exclusive := fun cache => (w.exclusive cache).filter (· ≠ j) } : UpdateWorld).Holds config past
        φ := by
  refine h.of_tasks rfl rfl rfl rfl fun k => ?_
  have hk := h.tasks k
  refine ⟨hk.accepted, fun d hd hdropped => ?_, fun d f bytes hread hd hdropped => ?_, hk.reported⟩
  · have hlease := hk.leased d hd (List.not_mem_of_not_mem_cons hdropped)
    simp [hlease, List.ne_of_not_mem_cons hdropped]
  · exact hk.read d f bytes hread hd (List.not_mem_of_not_mem_cons hdropped)

end UpdateWorld.Holds

/-! ## All processes -/

/-- **Every effect of a process, and every event, keeps what is so.** -/
theorem installing_sound (past : String → List Release) :
    TaskSystem.Sound (updateSystem config decodeJob) (installing config)
      (UpdateWorld.Holds config past) {} (fun _ => True) (fun _ _ => True) := by
  constructor
  case exec =>
    intro pool φ i e k choice w r h _ _ hrequires hexec
    refine ⟨trivial, ?_⟩
    simp only [updateSystem] at hexec
    split at hexec
    · cases hexec
    · next hdropped =>
      -- where a process learns nothing, and nothing changes
      have hsame : pool.shared.Holds config past (Function.update φ i (φ i)) := by
        rwa [Function.update_eq_self]
      cases e with
      | insideCache _ _ _ | canonical _ | discoverAt _ | acknowledge | waitParent =>
        cases choice <;> cases hexec <;> exact hsame
      | readFile directory file =>
        cases choice with
        | go =>
          simp only [updateExec] at hexec
          split at hexec
          · next bytes hbytes =>
            cases hexec
            exact h.readFile hbytes
          · cases hexec
            exact hsame
        | failed =>
          cases hexec
          exact hsame
        | _ => cases hexec
      | accept cache release =>
        cases choice with
        | accept fault =>
          have heq := Option.some.inj hexec
          have hw : w = (pool.shared.accept config cache release fault).1 := by rw [heq]
          have hr : r = (pool.shared.accept config cache release fault).2 := by rw [heq]
          subst hw hr
          exact h.accept hrequires
        | _ => cases hexec
      | lease directory =>
        cases choice with
        | go =>
          simp only [updateExec] at hexec
          split at hexec
          · cases hexec
            exact hsame
          · next hfree =>
            cases hexec
            exact h.lease (Option.not_isSome_iff_eq_none.mp hfree)
        | failed =>
          cases hexec
          exact hsame
        | _ => cases hexec
      | release directory =>
        cases choice with
        | go =>
          cases hexec
          exact h.release hrequires hdropped fun _ _ => rfl
        | _ => cases hexec
      | exclusive cache =>
        cases choice with
        | go =>
          simp only [updateExec] at hexec
          split at hexec
          · cases hexec
          · cases hexec
            exact hsame.of_tasks rfl rfl rfl rfl fun j => (hsame.tasks j).of_exclusive
        | failed =>
          cases hexec
          exact hsame
        | _ => cases hexec
      | unlock cache =>
        cases choice with
        | go =>
          cases hexec
          exact hsame.of_tasks rfl rfl rfl rfl fun j => (hsame.tasks j).of_exclusive
        | _ => cases hexec
      | version installation =>
        cases choice with
        | version output =>
          rcases output with error | ⟨success, stdout⟩
          · cases hexec
            exact hsame
          · cases hexec
            exact h.version
        | _ => cases hexec
      | install build job directory =>
        simp only [updateExec] at hexec
        split at hexec
        · cases hexec
          exact hsame
        · next hbytes =>
          cases hexec
          have hinstalled := h.install hrequires hdropped hbytes
          rwa [← Function.update_eq_self i φ] at hinstalled
        · next hbytes =>
          cases hexec
          have hinstalled := h.install hrequires hdropped hbytes
          rwa [← Function.update_eq_self i φ] at hinstalled
        · cases hexec
      | finish directory =>
        cases choice with
        | go =>
          cases hexec
          exact h.release hrequires hdropped fun d hd => Function.update_of_ne hd _ _
        | failed =>
          cases hexec
          exact h.release hrequires hdropped fun _ _ => rfl
        | _ => cases hexec
  case event =>
    intro pool φ e w h _ hevent
    cases e with
    | written directory file bytes =>
      simp only [updateSystem] at hevent
      split at hevent
      · cases hevent
      · next hfree =>
        cases hevent
        exact h.written (Option.not_isSome_iff_eq_none.mp hfree)
    | dropped j =>
      cases hevent
      exact h.dropped
  case start =>
    rintro pool φ operation w p h - - ⟨⟩
    exact ⟨UpdateTask.call_keeps operation, h⟩

/-- What a run reaches is so, and so is what goes on from it. -/
theorem updateRun_holds (config : UpdateConfig) (decodeJob : List UInt8 → Option UpdateJob)
    (steps later : List UpdateStep) :
    ∃ φ, (updateRun config decodeJob (steps ++ later)).Holds config
      (updateRun config decodeJob steps).history φ := by
  have hstart : UpdateWorld.Holds config (fun _ => []) {} fun _ => {} :=
    ⟨fun _ => List.nil_suffix, fun _ => rfl, nofun, fun _ => .nil, nofun, nofun,
      fun _ => ⟨nofun, nofun, nofun, rfl⟩⟩
  have hmeets (pool) (steps : List UpdateStep) :
      (updateSystem config decodeJob).machine.Meets (fun _ _ => True) pool steps :=
    Machine.meets_of_forall _ (fun _ _ _ => trivial) pool
  obtain ⟨φ, hφ⟩ := (installing_sound _).run hstart (hmeets _ steps)
  have hreached := hφ.inv
  have hagain : TaskSystem.Related (installing config)
      (UpdateWorld.Holds config (updateRun config decodeJob steps).history) {} (fun _ => True)
      ((updateSystem config decodeJob).machine.run { shared := {} } steps).1 φ :=
    ⟨⟨fun _ => List.suffix_rfl, hreached.last, hreached.valid, hreached.follows, hreached.calls,
      hreached.installs, hreached.tasks⟩, hφ.tasks, hφ.fresh⟩
  obtain ⟨ψ, hψ⟩ := hagain.run (installing_sound _) (hmeets _ later)
  have hrun : updateRun config decodeJob (steps ++ later) =
      ((updateSystem config decodeJob).machine.run ((updateSystem config decodeJob).machine.run
        { shared := {} } steps).1 later).1.shared := by
    rw [updateRun, Machine.run_append]
  exact ⟨ψ, hrun ▸ hψ.inv⟩

/-- **Updates only move forward.** What a cache has accepted at some time is a release that
verifies; what it has accepted at a later time is one too, and ascends from it. Every call of
`accept_sequence` leaves a cache as it is, or puts a release into it that verifies; and one that
verifies and is larger in both orders is put there, unless an I/O error comes in between. And an
installer is run only on bytes of an artifact that an accepted release, newer than what is
installed, has for the installation. -/
theorem updates_move_forward (config : UpdateConfig) (decodeJob : List UInt8 → Option UpdateJob)
    (steps later : List UpdateStep) :
    (∀ cache bytes, (updateRun config decodeJob steps).accepted cache = some bytes →
      ∃ release, Accepted config release bytes ∧ ∃ newest bytes',
        (updateRun config decodeJob (steps ++ later)).accepted cache = some bytes' ∧
          Accepted config newest bytes' ∧ newest.Ascends release) ∧
    (∀ call ∈ (updateRun config decodeJob steps).calls, call.Forward config) ∧
    ∀ run ∈ (updateRun config decodeJob steps).installs,
      run.Checked config (updateRun config decodeJob steps) := by
  obtain ⟨φ, h⟩ := updateRun_holds config decodeJob steps []
  obtain ⟨ψ, hlater⟩ := updateRun_holds config decodeJob steps later
  rw [List.append_nil] at h
  refine ⟨fun cache bytes hbytes => ?_, h.calls, h.installs⟩
  obtain ⟨release, hmem, haccepted, -⟩ := h.accepted_last hbytes
  refine ⟨release, haccepted, ?_⟩
  have hmem := (hlater.grows cache).mem hmem
  have hlast := hlater.last cache
  cases hhistory : (updateRun config decodeJob (steps ++ later)).history cache with
  | nil => simp [hhistory] at hmem
  | cons newest _ =>
    rw [hhistory] at hlast
    obtain ⟨last, -, hnewest, hfollows⟩ := hlater.accepted_last hlast
    exact ⟨last, _, hlast, hnewest, (hfollows release hmem).ascends⟩

end AxiomDesktop
