import AxiomDesktop.Lib.FileSystem

/-!
# Where a path leads when what it misses is created

`reach` follows a path as the operating system does, with `..` and links resolved, and takes a
missing name for a directory, or a last file, that is still to be created. It agrees with
`canonicalize` on a path that exists (`reach_of_canonicalize`); behind a directory that a path
leads to, missing names are reached as they stand (`reach_missing`), and nothing is reached behind
a file (`reach_behind_file`).
-/

namespace AxiomDesktop.FileSystem

variable {fs : FileSystem}

/-- Every entry lies in a directory. -/
def WellFormed (fs : FileSystem) : Prop :=
  ∀ p c, (fs (p ++ [c])).isSome → fs.isDir p = true

/-- Walks down from a directory up to the first link. A missing name is created. -/
def reachWalk (fs : FileSystem) : Path → List String → Walk
  | base, [] => .done base
  | base, c :: rest =>
    if c = "." then reachWalk fs base rest
    else if c = ".." then reachWalk fs base.dropLast rest
    else
      match fs (base ++ [c]) with
      | none | some .dir => reachWalk fs (base ++ [c]) rest
      | some (.link target) => .link base target rest
      | some (.file _ _) => if rest = [] then .done (base ++ [c]) else .failed .notADirectory

/-- Resolves components from a directory, following at most a number of links. -/
def reachFrom (fs : FileSystem) : Nat → Path → List String → Except IoError Path
  | 0, _, _ => .error .tooManyLinks
  | links + 1, base, cs =>
    match reachWalk fs base cs with
    | .done p => .ok p
    | .failed e => .error e
    | .link base target rest =>
      reachFrom fs links (if target.absolute then [] else base) (target.components ++ rest)

/-- The location a path leads to, with what it misses created. -/
def reach (fs : FileSystem) (p : Path) : Except IoError Path := reachFrom fs 41 [] p

/-! ## Behind a part that exists -/

/-- A link stops both walks, whatever follows the components before it. -/
theorem walk_link_append {base base' : Path} {cs rest : List String} {target : LinkTarget}
    (h : fs.walk base cs = .link base' target rest) (r : List String) :
    fs.walk base (cs ++ r) = .link base' target (rest ++ r) ∧
      fs.reachWalk base (cs ++ r) = .link base' target (rest ++ r) := by
  induction cs generalizing base with
  | nil => cases h
  | cons c cs ih =>
    rw [List.cons_append, walk, reachWalk]
    rw [walk] at h
    by_cases hdot : c = "."
    · rw [if_pos hdot] at h
      rw [if_pos hdot, if_pos hdot]
      exact ih h
    by_cases hdots : c = ".."
    · rw [if_neg hdot, if_pos hdots] at h
      rw [if_neg hdot, if_pos hdots, if_neg hdot, if_pos hdots]
      exact ih h
    rw [if_neg hdot, if_neg hdots] at h
    rw [if_neg hdot, if_neg hdots, if_neg hdot, if_neg hdots]
    rcases hnode : fs (base ++ [c]) with _ | (⟨content, mode⟩ | _ | target')
    · rw [hnode] at h
      cases h
    · rw [hnode] at h
      by_cases hcs : cs = [] <;> simp [hcs] at h
    · rw [hnode] at h
      exact ih h
    · rw [hnode] at h
      cases h
      exact ⟨rfl, rfl⟩

/-- Both walks go on from the directory the first components lead to; behind a file the second
ends. -/
theorem walk_done_append {base p : Path} {cs : List String} (hbase : fs.Canonical base)
    (hdir : fs.isDir base = true) (h : fs.walk base cs = .done p) (r : List String) :
    (fs.isDir p = true → fs.walk base (cs ++ r) = fs.walk p r ∧
      fs.reachWalk base (cs ++ r) = fs.reachWalk p r) ∧
    (fs.isDir p = false → fs.reachWalk base (cs ++ r) =
      if r = [] then .done p else .failed .notADirectory) := by
  induction cs generalizing base with
  | nil =>
    cases h
    simp [hdir]
  | cons c cs ih =>
    rw [List.cons_append, walk, reachWalk]
    rw [walk] at h
    by_cases hdot : c = "."
    · rw [if_pos hdot] at h
      rw [if_pos hdot, if_pos hdot]
      exact ih hbase hdir h
    by_cases hdots : c = ".."
    · rw [if_neg hdot, if_pos hdots] at h
      rw [if_neg hdot, if_pos hdots, if_neg hdot, if_pos hdots]
      exact ih (hbase.dropLast hdir).1 (hbase.dropLast hdir).2 h
    rw [if_neg hdot, if_neg hdots] at h
    rw [if_neg hdot, if_neg hdots, if_neg hdot, if_neg hdots]
    rcases hnode : fs (base ++ [c]) with _ | (⟨content, mode⟩ | _ | target')
    · rw [hnode] at h
      cases h
    · rw [hnode] at h
      by_cases hcs : cs = []
      · subst hcs
        cases h
        simp [isDir, hnode]
      · simp [hcs] at h
    · rw [hnode] at h
      exact ih (hbase.child hdir ⟨hdot, hdots⟩) (by simp [isDir, hnode]) h
    · rw [hnode] at h
      cases h

/-- Behind components that resolve, a path leads where its rest leads from there. -/
theorem resolve_append {links : Nat} {base p : Path} {cs : List String}
    (hbase : fs.Canonical base) (hdir : fs.isDir base = true)
    (h : fs.resolve links base cs = .ok p) :
    ∃ links', ∀ r,
      (fs.isDir p = true → fs.resolve links base (cs ++ r) = fs.resolve (links' + 1) p r ∧
        fs.reachFrom links base (cs ++ r) = fs.reachFrom (links' + 1) p r) ∧
      (fs.isDir p = false → fs.reachFrom links base (cs ++ r) =
        if r = [] then .ok p else .error .notADirectory) := by
  induction links generalizing base cs with
  | zero => cases h
  | succ links ih =>
    rw [resolve] at h
    have hwalk := walk_canonical cs hbase hdir
    rcases hw : fs.walk base cs with q | ⟨base', target, rest⟩ | e <;> rw [hw] at h hwalk
    · cases h
      refine ⟨links, fun r => ⟨?_, ?_⟩⟩
      · intro hp
        obtain ⟨hwalk', hreach⟩ := (walk_done_append hbase hdir hw r).1 hp
        rw [resolve, hwalk', resolve, reachFrom, hreach, reachFrom]
        exact ⟨rfl, rfl⟩
      · intro hp
        rw [reachFrom, (walk_done_append hbase hdir hw r).2 hp]
        by_cases hr : r = [] <;> simp [hr]
    · have hstart : fs.Canonical (if target.absolute then [] else base') ∧
          fs.isDir (if target.absolute then [] else base') = true := by
        split
        · exact ⟨canonical_root fs, rfl⟩
        · exact hwalk
      obtain ⟨links', hlinks⟩ := ih hstart.1 hstart.2 h
      refine ⟨links', fun r => ?_⟩
      rw [resolve, (walk_link_append hw r).1, reachFrom, (walk_link_append hw r).2]
      simp only [← List.append_assoc]
      exact hlinks r
    · cases h

/-- A path that exists leads where it resolves to. -/
theorem reach_of_canonicalize {cs p : Path} (h : fs.canonicalize cs = .ok p) :
    fs.reach cs = .ok p := by
  obtain ⟨links', hlinks⟩ := resolve_append (canonical_root fs) rfl h
  have hnil := hlinks []
  rw [List.append_nil] at hnil
  cases hp : fs.isDir p with
  | true =>
    rw [reach, (hnil.1 hp).2]
    rfl
  | false =>
    rw [reach, hnil.2 hp]
    rfl

/-- Behind a file nothing is reached. -/
theorem reach_behind_file {cs p : Path} (h : fs.canonicalize cs = .ok p)
    (hp : fs.isDir p = false) {r : List String} (hr : r ≠ []) :
    fs.reach (cs ++ r) = .error .notADirectory := by
  obtain ⟨links', hlinks⟩ := resolve_append (canonical_root fs) rfl h
  rw [reach, (hlinks r).2 hp, if_neg hr]

/-- Names below a missing one are missing too, and are reached as they stand. -/
theorem reachWalk_missing (hfs : fs.WellFormed) {base : Path} (hnone : fs base = none)
    (hne : base ≠ []) {r : List String} (hr : ".." ∉ r) :
    fs.reachWalk base r = .done (base ++ r.filter (· ≠ ".")) := by
  induction r generalizing base with
  | nil => simp [reachWalk]
  | cons c r ih =>
    rw [List.mem_cons, not_or] at hr
    rw [reachWalk]
    by_cases hdot : c = "."
    · rw [if_pos hdot, ih hnone hne hr.2]
      simp [hdot]
    · have hchild : fs (base ++ [c]) = none := by
        by_contra hsome
        have hdir := hfs base c (Option.isSome_iff_ne_none.mpr hsome)
        simp [isDir, hnone, hne] at hdir
      rw [if_neg hdot, if_neg (Ne.symm hr.1), hchild]
      rw [ih hchild (by simp) hr.2]
      simp [hdot]

/-- Single dots lead nowhere. -/
theorem walk_dots {base : Path} {dots : List String} (hdots : ∀ d ∈ dots, d = ".")
    (r : List String) : fs.walk base (dots ++ r) = fs.walk base r ∧
      fs.reachWalk base (dots ++ r) = fs.reachWalk base r := by
  induction dots with
  | nil => exact ⟨rfl, rfl⟩
  | cons d dots ih =>
    rw [List.forall_mem_cons] at hdots
    rw [List.cons_append, walk, reachWalk, if_pos hdots.1, if_pos hdots.1]
    exact ih hdots.2

section Behind

variable {cs p : Path} (h : fs.canonicalize cs = .ok p) (hp : fs.isDir p = true)
  {dots : List String} (hdots : ∀ d ∈ dots, d = ".") {c : String} (hc : c ≠ "." ∧ c ≠ "..")
  {r : List String}

include h hp hdots hc

/-- A missing name behind a directory that a path leads to, with what follows it. -/
theorem reach_missing (hfs : fs.WellFormed) (hnone : fs (p ++ [c]) = none) (hr : ".." ∉ r) :
    fs.reach (cs ++ (dots ++ c :: r)) = .ok (p ++ c :: r.filter (· ≠ ".")) := by
  obtain ⟨links', hlinks⟩ := resolve_append (canonical_root fs) rfl h
  rw [reach, ((hlinks _).1 hp).2, reachFrom, (walk_dots hdots _).2, reachWalk, if_neg hc.1,
    if_neg hc.2, hnone]
  dsimp only
  rw [reachWalk_missing hfs hnone (by simp) hr]
  simp

/-- A directory behind a directory that a path leads to. -/
theorem canonicalize_dir (hnode : fs (p ++ [c]) = some .dir) (hr : ∀ d ∈ r, d = ".") :
    fs.canonicalize (cs ++ (dots ++ c :: r)) = .ok (p ++ [c]) := by
  obtain ⟨links', hlinks⟩ := resolve_append (canonical_root fs) rfl h
  rw [canonicalize, ((hlinks _).1 hp).1, resolve, (walk_dots hdots _).1, walk, if_neg hc.1,
    if_neg hc.2, hnode]
  dsimp only
  have hend : fs.walk (p ++ [c]) (r ++ []) = fs.walk (p ++ [c]) [] := (walk_dots hr []).1
  rw [List.append_nil] at hend
  rw [hend, walk]

/-- A file behind a directory that a path leads to exists, and nothing is reached behind it. -/
theorem reach_file {content : ByteArray} {mode : Nat}
    (hnode : fs (p ++ [c]) = some (.file content mode)) :
    (r = [] → fs.canonicalize (cs ++ (dots ++ c :: r)) = .ok (p ++ [c])) ∧
      (r ≠ [] → fs.reach (cs ++ (dots ++ c :: r)) = .error .notADirectory) := by
  obtain ⟨links', hlinks⟩ := resolve_append (canonical_root fs) rfl h
  constructor
  · rintro rfl
    rw [canonicalize, ((hlinks _).1 hp).1, resolve, (walk_dots hdots _).1, walk, if_neg hc.1,
      if_neg hc.2, hnode]
    rfl
  · intro hr
    rw [reach, ((hlinks _).1 hp).2, reachFrom, (walk_dots hdots _).2, reachWalk, if_neg hc.1,
      if_neg hc.2, hnode]
    simp [hr]

end Behind

end AxiomDesktop.FileSystem
