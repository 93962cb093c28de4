import AxiomDesktop.Lib.Machine
import AxiomDesktop.Lib.Outermost
import AxiomDesktop.Policy.Effect
import Mathlib.Data.List.Infix
import Mathlib.Data.String.Basic

/-!
# Toolchains in the Linux sandbox

`discover_linux_toolchains`: the entries of `PATH` that belong to a toolchain, and the directories
that are mounted for them. The mounts are apart, within their bound, and cover the entries. They
keep the home directory out exactly if no entry is taken for a Homebrew prefix that is the home
directory or holds it (`discoverLinuxToolchains_safe_iff`).
-/

namespace AxiomDesktop

def MAX_LINUX_PATH_INPUTS : Nat := 128

def MAX_LINUX_TOOLCHAIN_PATHS : Nat := 24

def MAX_LINUX_TOOLCHAIN_MOUNTS : Nat := 12

inductive LinuxToolchainKind where
  | nvm
  | pyenv
  | local
  | volta
  | bun
  | deno
  | pnpm
  | linuxbrew
  deriving DecidableEq

structure LinuxToolchainMatch where
  root : Path
  kind : LinuxToolchainKind
  environmentRoot : Option Path

/-- The environment is a map from its keys. -/
structure LinuxToolchainPlan where
  pathEntries : List Path := []
  mounts : List Path := []
  environment : List (String × Path) := []

/-- What is read of the machine. -/
structure LinuxHost where
  fs : FileSystem
  /-- Someone may search the directory: its mode has a bit of `0o111`. -/
  searchable : Path → Bool

namespace LinuxHost

variable (host : LinuxHost)

def isExecutableDirectory (path : List String) : Bool :=
  match host.fs.canonicalize path with
  | .error _ => false
  | .ok p => host.fs.isDir p && host.searchable p

def admitLinuxToolchainMount (mounts : List Path) (root : Path) : Option (List Path) :=
  if host.isExecutableDirectory root then
    addOutermost (· <+: ·) MAX_LINUX_TOOLCHAIN_MOUNTS mounts root
  else none

def canonicalBrewPrefix (path : PathText) : Option Path :=
  if path.absolute then
    match host.fs.canonicalize path.components with
    | .error _ => none
    | .ok canonical =>
      -- the root counts as a component
      if host.fs.isDir canonical ∧ 3 ≤ canonical.length + 1 ∧
          PathText.startsWith ⟨true, canonical⟩ path ∧ canonical ≠ ["usr"] ∧
          canonical ≠ ["etc"] then
        some canonical
      else none
  else none

end LinuxHost

/-! ## Which toolchain -/

def matchHomeToolchain (candidate root : Path) (kind : LinuxToolchainKind) :
    Option LinuxToolchainMatch :=
  if root.isPrefixOf candidate then
    let relative := candidate.drop root.length
    let isBin := relative.getLast? = some "bin"
    match kind with
    | .nvm =>
      if isBin ∧ relative.length = 4 ∧ relative[0]? = some "versions" ∧
          relative[1]? = some "node" then
        some ⟨candidate.dropLast, kind, none⟩
      else none
    | .pyenv =>
      if relative = ["bin"] ∨ relative = ["shims"] then some ⟨root, kind, some root⟩
      else if isBin ∧ 3 ≤ relative.length ∧ relative[0]? = some "versions" then
        some ⟨candidate.dropLast, kind, none⟩
      else none
    | .local =>
      if relative = ["bin"] then some ⟨candidate, kind, none⟩
      else if relative = ["share", "pnpm"] then some ⟨candidate, .pnpm, some candidate⟩
      else none
    | .volta | .bun | .deno =>
      if relative = ["bin"] then some ⟨root, kind, some root⟩ else none
    | .pnpm =>
      if relative = ["bin"] ∨ relative = [] then some ⟨root, kind, some candidate⟩ else none
    | .linuxbrew =>
      if relative = ["bin"] ∨ relative = ["sbin"] then some ⟨root, kind, some root⟩ else none
  else none

def homeRoots : List (String × LinuxToolchainKind) :=
  [(".nvm", .nvm), (".pyenv", .pyenv), (".local", .local), (".volta", .volta), (".bun", .bun),
    (".deno", .deno), (".pnpm", .pnpm), (".pnpm-global", .pnpm), (".linuxbrew", .linuxbrew)]

/-- The first part of `classify_linux_toolchain`. -/
def homeToolchain (host : LinuxHost) (candidate : Path) (home : Option Path) :
    Option LinuxToolchainMatch :=
  match home with
  | none => none
  | some home =>
    homeRoots.findSome? fun (name, kind) =>
      match host.fs.canonicalize (home ++ [name]) with
      | .error _ => none
      | .ok root =>
        if host.fs.isDir root = false ∨ root = home ∨ ¬home <+: root then none
        else matchHomeToolchain candidate root kind

/-- Its second part. -/
def brewToolchain (candidate : Path) (brewPrefixes : List Path) : Option LinuxToolchainMatch :=
  (brewPrefixes.find? fun root =>
    decide (candidate = root ++ ["bin"] ∨ candidate = root ++ ["sbin"])).map fun root =>
      ⟨root, .linuxbrew, some root⟩

def classifyLinuxToolchain (host : LinuxHost) (candidate : Path) (home : Option Path)
    (brewPrefixes : List Path) : Option LinuxToolchainMatch :=
  (homeToolchain host candidate home).or (brewToolchain candidate brewPrefixes)

def linuxToolchainEnvironment (toolchain : LinuxToolchainMatch) : Option (String × Path) :=
  toolchain.environmentRoot.bind fun root =>
    match toolchain.kind with
    | .pyenv => some ("PYENV_ROOT", root)
    | .volta => some ("VOLTA_HOME", root)
    | .bun => some ("BUN_INSTALL", root)
    | .deno => some ("DENO_INSTALL", root)
    | .pnpm => some ("PNPM_HOME", root)
    | .linuxbrew => some ("HOMEBREW_PREFIX", root)
    | .nvm | .local => none

/-- `entry(key).or_insert(value)`. -/
def orInsert (environment : List (String × Path)) : Option (String × Path) → List (String × Path)
  | none => environment
  | some (key, value) =>
    if environment.any (·.1 = key) then environment else environment ++ [(key, value)]

/-! ## The discovery -/

structure Discovery where
  seenPaths : List Path := []
  plan : LinuxToolchainPlan := {}

/-- The entry that is classified: there is room for it, and it is a new directory. -/
def Discovery.considers (host : LinuxHost) (s : Discovery) (candidate : PathBuf) : Option Path :=
  let path := PathText.ofText candidate
  if s.plan.pathEntries.length ≥ MAX_LINUX_TOOLCHAIN_PATHS ∨ path.absolute = false ∨
      ':' ∈ candidate.toList ∨ host.isExecutableDirectory path.components = false then none
  else
    match host.fs.canonicalize path.components with
    | .error _ => none
    | .ok p => if p ∈ s.seenPaths then none else some p

/-- The loop, an entry of `PATH` at a time. -/
def toolchains (host : LinuxHost) (home : Option Path) (brewPrefixes : List Path) :
    Machine Discovery PathBuf Unit where
  step s candidate :=
    match s.considers host candidate with
    | none => (s, [])
    | some path =>
      let s := { s with seenPaths := path :: s.seenPaths }
      match classifyLinuxToolchain host path home brewPrefixes with
      | none => (s, [])
      | some toolchain =>
        match host.admitLinuxToolchainMount s.plan.mounts toolchain.root with
        | none => (s, [])
        | some mounts =>
          ({ s with
              plan :=
                { pathEntries := s.plan.pathEntries ++ [path]
                  mounts
                  environment :=
                    orInsert s.plan.environment (linuxToolchainEnvironment toolchain) } }, [])

/-- The home directory, with links followed. -/
def homeDirectory (host : LinuxHost) (home : Option PathBuf) : Option Path :=
  home.bind fun text =>
    if (PathText.ofText text).absolute then
      match host.fs.canonicalize (PathText.ofText text).components with
      | .error _ => none
      | .ok p => if host.fs.isDir p then some p else none
    else none

/-- `std::env::split_paths`, as far as it is read. -/
def pathInputs (inheritedPath : Option String) : List PathBuf :=
  match inheritedPath with
  | none => []
  | some text =>
    ((Text.splitChar ':' text.toList).map String.ofList).take MAX_LINUX_PATH_INPUTS

def canonicalBrewPrefixes (host : LinuxHost) (brewPrefixes : List PathBuf) : List Path :=
  brewPrefixes.filterMap fun path => host.canonicalBrewPrefix (PathText.ofText path)

/-- The run of the loop. -/
def discovered (host : LinuxHost) (home : Option PathBuf) (inheritedPath : Option String)
    (brewPrefixes : List PathBuf) : LinuxToolchainPlan :=
  ((toolchains host (homeDirectory host home) (canonicalBrewPrefixes host brewPrefixes)).run {}
    (pathInputs inheritedPath)).1.plan

def discoverLinuxToolchains (host : LinuxHost) (home : Option PathBuf)
    (inheritedPath : Option String) (brewPrefixes : List PathBuf) : LinuxToolchainPlan :=
  let plan := discovered host home inheritedPath brewPrefixes
  { plan with mounts := plan.mounts.mergeSort fun a b => decide (a ≤ b) }

/-! ## The mounts of a plan -/

section

variable {host : LinuxHost} {home : Option Path} {brewPrefixes mounts : List Path}
  {candidate path root : Path} {kind : LinuxToolchainKind} {toolchain : LinuxToolchainMatch}
  {s : Discovery} {input : PathBuf}

theorem admit_eq_some {as bs : List Path} (h : host.admitLinuxToolchainMount as root = some bs) :
    addOutermost (· <+: ·) MAX_LINUX_TOOLCHAIN_MOUNTS as root = some bs := by
  unfold LinuxHost.admitLinuxToolchainMount at h
  split at h
  · exact h
  · cases h

/-- The part of a path in front of its last component, where that is not the last of the root. -/
theorem prefix_dropLast (hroot : root <+: candidate)
    (hlong : 0 < (candidate.drop root.length).length) : root <+: candidate.dropLast := by
  obtain ⟨rest, rfl⟩ := hroot
  rw [List.drop_left] at hlong
  rw [List.dropLast_append_of_ne_nil (List.ne_nil_of_length_pos hlong)]
  exact List.prefix_append _ _

/-- A toolchain of the home directory is mounted within its declared root, and holds its entry. -/
theorem matchHomeToolchain_root (h : matchHomeToolchain candidate root kind = some toolchain) :
    root <+: toolchain.root ∧ toolchain.root <+: candidate := by
  unfold matchHomeToolchain at h
  split at h
  · next hprefix =>
    have hroot : root <+: candidate := List.isPrefixOf_iff_prefix.mp hprefix
    have hself : root <+: root := List.prefix_refl root
    have hparent : 3 ≤ (candidate.drop root.length).length →
        root <+: candidate.dropLast ∧ candidate.dropLast <+: candidate := fun hlong =>
      ⟨prefix_dropLast hroot (by omega), List.dropLast_prefix candidate⟩
    cases kind with
    | nvm =>
      dsimp only at h
      split at h
      · next hmatch =>
        cases h
        exact hparent (by omega)
      · cases h
    | pyenv =>
      dsimp only at h
      split at h
      · cases h
        exact ⟨hself, hroot⟩
      · split at h
        · next hmatch =>
          cases h
          exact hparent hmatch.2.1
        · cases h
    | «local» =>
      dsimp only at h
      split at h
      · cases h
        exact ⟨hroot, List.prefix_refl _⟩
      · split at h
        · cases h
          exact ⟨hroot, List.prefix_refl _⟩
        · cases h
    | _ =>
      dsimp only at h
      split at h
      · cases h
        exact ⟨hself, hroot⟩
      · cases h
  · cases h

/-- A toolchain of the home directory lies strictly below it. -/
theorem homeToolchain_root {h : Path} (hmatch : homeToolchain host path (some h) = some toolchain) :
    toolchain.root <+: path ∧ ¬toolchain.root <+: h := by
  obtain ⟨⟨name, kind⟩, -, hroot⟩ := List.exists_of_findSome?_eq_some hmatch
  dsimp only at hroot
  split at hroot
  · cases hroot
  · next root _ =>
    split at hroot
    · cases hroot
    · next hbelow =>
      rw [not_or, not_or, not_not] at hbelow
      obtain ⟨hle, hentry⟩ := matchHomeToolchain_root hroot
      refine ⟨hentry, fun habove => hbelow.2.1 ?_⟩
      exact antisymm_of (· <+: ·) (hle.trans habove) hbelow.2.2

theorem brewToolchain_root (h : brewToolchain path brewPrefixes = some toolchain) :
    toolchain.root <+: path := by
  obtain ⟨root, hfind, rfl⟩ := Option.map_eq_some_iff.mp h
  have hfound := List.find?_some hfind
  obtain rfl | rfl := of_decide_eq_true hfound
  · exact List.prefix_append _ _
  · exact List.prefix_append _ _

theorem classify_root (h : classifyLinuxToolchain host path home brewPrefixes = some toolchain) :
    toolchain.root <+: path := by
  obtain hhome | ⟨-, hbrew⟩ := Option.or_eq_some_iff.mp h
  · cases home with
    | none => cases hhome
    | some h => exact (homeToolchain_root hhome).1
  · exact brewToolchain_root hbrew

/-- What one entry of `PATH` does to the plan: nothing, or it is added with its mount. -/
theorem toolchains_step (host : LinuxHost) (home : Option Path) (brewPrefixes : List Path)
    (s : Discovery) (input : PathBuf) :
    ((toolchains host home brewPrefixes).step s input).1.plan = s.plan ∨
      ∃ path toolchain mounts, s.considers host input = some path ∧
        classifyLinuxToolchain host path home brewPrefixes = some toolchain ∧
        host.admitLinuxToolchainMount s.plan.mounts toolchain.root = some mounts ∧
        ((toolchains host home brewPrefixes).step s input).1.plan =
          { pathEntries := s.plan.pathEntries ++ [path]
            mounts
            environment := orInsert s.plan.environment (linuxToolchainEnvironment toolchain) } := by
  unfold toolchains
  dsimp only
  cases hpath : s.considers host input with
  | none => exact .inl rfl
  | some path =>
    dsimp only
    cases htoolchain : classifyLinuxToolchain host path home brewPrefixes with
    | none => exact .inl rfl
    | some toolchain =>
      dsimp only
      cases hmounts : host.admitLinuxToolchainMount s.plan.mounts toolchain.root with
      | none => exact .inl rfl
      | some mounts => exact .inr ⟨path, toolchain, mounts, rfl, htoolchain, hmounts, rfl⟩

/-- The mounts are apart, within their bound, and cover the entries. -/
structure Mounted (plan : LinuxToolchainPlan) : Prop where
  apart : Outermost (· <+: ·) plan.mounts
  bounded : plan.mounts.length ≤ MAX_LINUX_TOOLCHAIN_MOUNTS
  covers : ∀ entry ∈ plan.pathEntries, ∃ mount ∈ plan.mounts, mount <+: entry

theorem Mounted.step (h : Mounted s.plan) (input : PathBuf) :
    Mounted ((toolchains host home brewPrefixes).step s input).1.plan := by
  obtain hsame | ⟨path, toolchain, mounts, -, hclass, hadmitted, hplan⟩ :=
    toolchains_step host home brewPrefixes s input
  · rwa [hsame]
  · have hadd := admit_eq_some hadmitted
    rw [hplan]
    refine ⟨h.apart.addOutermost hadd, length_addOutermost h.bounded hadd, fun entry hentry => ?_⟩
    obtain hentry | hentry := List.mem_append.mp hentry
    · exact held_of_addOutermost hadd (.inl (h.covers entry hentry))
    · rw [List.mem_singleton.mp hentry]
      exact held_of_addOutermost hadd (.inr (classify_root hclass))

/-! ## The home directory -/

/-- The entry is not taken for a Homebrew prefix that is the home directory or holds it. -/
def SparesHome (host : LinuxHost) (home : Option Path) (brewPrefixes : List Path) (s : Discovery)
    (input : PathBuf) : Prop :=
  ∀ h path toolchain, home = some h → s.considers host input = some path →
    homeToolchain host path home = none → brewToolchain path brewPrefixes = some toolchain →
    (host.admitLinuxToolchainMount s.plan.mounts toolchain.root).isSome → ¬toolchain.root <+: h

/-- No mount is the home directory or holds it. -/
def KeepsHome (home : Option Path) (plan : LinuxToolchainPlan) : Prop :=
  ∀ h, home = some h → ∀ mount ∈ plan.mounts, ¬mount <+: h

theorem KeepsHome.step (hkeeps : KeepsHome home s.plan)
    (hspares : SparesHome host home brewPrefixes s input) :
    KeepsHome home ((toolchains host home brewPrefixes).step s input).1.plan := by
  obtain hsame | ⟨path, toolchain, mounts, hpath, hclass, hadmitted, hplan⟩ :=
    toolchains_step host home brewPrefixes s input
  · rwa [hsame]
  · rw [hplan]
    intro h hhome mount hmount
    obtain hmount | rfl := mem_addOutermost (admit_eq_some hadmitted) hmount
    · exact hkeeps h hhome mount hmount
    · obtain hmatch | ⟨hnone, hbrew⟩ := Option.or_eq_some_iff.mp hclass
      · rw [hhome] at hmatch
        exact (homeToolchain_root hmatch).2
      · exact hspares h path toolchain hhome hpath hnone hbrew (by rw [hadmitted]; rfl)

/-- Some mount is the home directory or holds it. -/
def HoldsHome (home : Option Path) (plan : LinuxToolchainPlan) : Prop :=
  ∃ h, home = some h ∧ ∃ mount ∈ plan.mounts, mount <+: h

theorem HoldsHome.step (hholds : HoldsHome home s.plan) (input : PathBuf) :
    HoldsHome home ((toolchains host home brewPrefixes).step s input).1.plan := by
  obtain hsame | ⟨path, toolchain, mounts, -, -, hadmitted, hplan⟩ :=
    toolchains_step host home brewPrefixes s input
  · rwa [hsame]
  · obtain ⟨h, hhome, hmount⟩ := hholds
    rw [hplan]
    exact ⟨h, hhome, held_of_addOutermost (admit_eq_some hadmitted) (.inl hmount)⟩

theorem HoldsHome.of_broken (hbroken : ¬SparesHome host home brewPrefixes s input) :
    HoldsHome home ((toolchains host home brewPrefixes).step s input).1.plan := by
  unfold SparesHome at hbroken
  push Not at hbroken
  obtain ⟨h, path, toolchain, hhome, hpath, hnone, hbrew, hroom, habove⟩ := hbroken
  obtain ⟨mounts, hadmitted⟩ := Option.isSome_iff_exists.mp hroom
  have hclass : classifyLinuxToolchain host path home brewPrefixes = some toolchain :=
    Option.or_eq_some_iff.mpr (.inr ⟨hnone, hbrew⟩)
  have hstep : ((toolchains host home brewPrefixes).step s input).1.plan.mounts = mounts := by
    unfold toolchains
    dsimp only
    rw [hpath]
    dsimp only
    rw [hclass]
    dsimp only
    rw [hadmitted]
  refine ⟨h, hhome, ?_⟩
  rw [hstep]
  exact held_of_addOutermost (admit_eq_some hadmitted) (.inr habove)

end

/-- **Sandbox mounts.** For every `PATH`, home directory, list of Homebrew prefixes and file system
the mounts are apart, within their bound, and cover the entries; and none is the home directory or
holds it, exactly if no entry is taken for a Homebrew prefix that does. -/
theorem discoverLinuxToolchains_safe_iff (host : LinuxHost) (home : Option PathBuf)
    (inheritedPath : Option String) (brewPrefixes : List PathBuf) :
    Mounted (discoverLinuxToolchains host home inheritedPath brewPrefixes) ∧
      (KeepsHome (homeDirectory host home)
          (discoverLinuxToolchains host home inheritedPath brewPrefixes) ↔
        (toolchains host (homeDirectory host home)
          (canonicalBrewPrefixes host brewPrefixes)).Meets
            (SparesHome host (homeDirectory host home) (canonicalBrewPrefixes host brewPrefixes)) {}
            (pathInputs inheritedPath)) := by
  have hperm : (discoverLinuxToolchains host home inheritedPath brewPrefixes).mounts.Perm
      (discovered host home inheritedPath brewPrefixes).mounts := List.mergeSort_perm _ _
  have hstart : Mounted {} :=
    ⟨List.Pairwise.nil, Nat.zero_le _, fun _ h => absurd h List.not_mem_nil⟩
  have hmounted : Mounted (discovered host home inheritedPath brewPrefixes) :=
    (toolchains host _ _).run_invariant' (P := fun s => Mounted s.plan)
      (fun _ input h => h.step input) hstart _
  refine ⟨⟨?_, hperm.length_eq ▸ hmounted.bounded, fun entry hentry => ?_⟩, ?_⟩
  · refine (hperm.pairwise_iff ?_).mpr hmounted.apart
    exact fun h => ⟨h.2, h.1⟩
  · obtain ⟨mount, hmount, hcovers⟩ := hmounted.covers entry hentry
    exact ⟨mount, hperm.mem_iff.mpr hmount, hcovers⟩
  · have hkeeps : KeepsHome (homeDirectory host home)
        (discoverLinuxToolchains host home inheritedPath brewPrefixes) ↔
          KeepsHome (homeDirectory host home)
            (discovered host home inheritedPath brewPrefixes) := by
      unfold KeepsHome
      simp only [hperm.mem_iff]
    rw [hkeeps]
    constructor
    · intro h
      by_contra hmeets
      obtain ⟨holder, hhome, mount, hmount, habove⟩ := (toolchains host _ _).run_of_not_meets
        (P := fun s => HoldsHome (homeDirectory host home) s.plan)
        (fun _ _ hbroken => .of_broken hbroken) (fun _ input h => h.step input) hmeets
      exact h holder hhome mount hmount habove
    · intro hmeets
      exact (toolchains host _ _).run_invariant
        (P := fun s => KeepsHome (homeDirectory host home) s.plan)
        (fun _ _ h hspares => h.step hspares) (fun _ _ _ h => absurd h List.not_mem_nil) hmeets

/-- The home directory `/home/linuxbrew/.linuxbrew`, with a `bin`. -/
def brewHome : LinuxHost where
  fs p := if p <+: ["home", "linuxbrew", ".linuxbrew", "bin"] then some .dir else none
  searchable _ := true

/-- A default prefix that is the home directory, and its `bin` in `PATH`: the home directory is
mounted. -/
theorem brewHome_mounted :
    ¬KeepsHome (homeDirectory brewHome (some "/home/linuxbrew/.linuxbrew"))
      (discoverLinuxToolchains brewHome (some "/home/linuxbrew/.linuxbrew")
        (some "/home/linuxbrew/.linuxbrew/bin")
        ["/home/linuxbrew/.linuxbrew", "/linuxbrew/.linuxbrew"]) := by
  have hhome : homeDirectory brewHome (some "/home/linuxbrew/.linuxbrew") =
      some ["home", "linuxbrew", ".linuxbrew"] := by decide
  have hmount : ["home", "linuxbrew", ".linuxbrew"] ∈ (discovered brewHome
      (some "/home/linuxbrew/.linuxbrew") (some "/home/linuxbrew/.linuxbrew/bin")
      ["/home/linuxbrew/.linuxbrew", "/linuxbrew/.linuxbrew"]).mounts := by decide
  intro h
  exact h _ hhome _ ((List.mergeSort_perm _ _).mem_iff.mpr hmount) (List.prefix_refl _)

end AxiomDesktop
