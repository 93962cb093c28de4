import Mathlib.Logic.Function.Basic
import Mathlib.Tactic.Common

/-!
# A file system of files, directories and symbolic links

A file system maps the paths that lead through real directories to their entries. A path a
program names is resolved to such a path first (`canonicalize`, and `locate`, which leaves a link
in the last place alone), and the system calls act on the entry it resolves to.

The rules a proof about a program uses are:

* `canonical_of_canonicalize`: what a resolution returns leads through real directories;
* `locate_of_canonical` and `canonicalize_of_canonical`: such a path resolves to itself, in every
  file system with the same directories (`Canonical.congr`);
* `canonicalize_congr`: a resolution does not see entries whose names nobody mentions.
-/

namespace AxiomDesktop

/-- The components of a path, from the root. -/
abbrev Path := List String

instance : LawfulBEq Path := inferInstance

instance decidableEqByteArray : DecidableEq ByteArray := ByteArray.instDecidableEq

structure LinkTarget where
  absolute : Bool
  components : List String
  deriving DecidableEq

inductive Node where
  | file (content : ByteArray) (mode : Nat)
  | dir
  | link (target : LinkTarget)
  deriving DecidableEq

inductive IoError where
  | notFound
  | notADirectory
  | isADirectory
  | alreadyExists
  | tooManyLinks
  | other (message : String)
  deriving DecidableEq, Repr

/-- The text of an error, as `std::io::Error` prints it. -/
def IoError.message : IoError → String
  | notFound => "No such file or directory (os error 2)"
  | notADirectory => "Not a directory (os error 20)"
  | isADirectory => "Is a directory (os error 21)"
  | alreadyExists => "File exists (os error 17)"
  | tooManyLinks => "Too many levels of symbolic links (os error 40)"
  | other message => message

/-- The entries of a file system below its root, each at the path that leads to it through real
directories. -/
abbrev FileSystem := Path → Option Node

namespace FileSystem

/-- The path leads to a directory; the root is one. -/
def isDir (fs : FileSystem) (p : Path) : Bool :=
  p = [] || fs p = some .dir

/-- How far a resolution gets without following a link. -/
inductive Walk where
  | done (p : Path)
  | link (base : Path) (target : LinkTarget) (rest : List String)
  | failed (e : IoError)

/-- Walks down from a directory up to the first link. -/
def walk (fs : FileSystem) : Path → List String → Walk
  | base, [] => .done base
  | base, c :: rest =>
    if c = "." then walk fs base rest
    else if c = ".." then walk fs base.dropLast rest
    else
      match fs (base ++ [c]) with
      | none => .failed .notFound
      | some .dir => walk fs (base ++ [c]) rest
      | some (.link target) => .link base target rest
      | some (.file _ _) => if rest = [] then .done (base ++ [c]) else .failed .notADirectory

/-- Resolves components from a directory, following at most a number of links. -/
def resolve (fs : FileSystem) : Nat → Path → List String → Except IoError Path
  | 0, _, _ => .error .tooManyLinks
  | links + 1, base, cs =>
    match walk fs base cs with
    | .done p => .ok p
    | .failed e => .error e
    | .link base target rest =>
      resolve fs links (if target.absolute then [] else base) (target.components ++ rest)

/-- `realpath`: the path through real directories to what the components name, links followed. -/
def canonicalize (fs : FileSystem) (p : Path) : Except IoError Path := resolve fs 41 [] p

/-- The entry a path names, with a link in the last place left alone. -/
def locate (fs : FileSystem) (p : Path) : Except IoError Path :=
  match p.getLast? with
  | none => .ok []
  | some name =>
    if name = "." ∨ name = ".." then fs.canonicalize p
    else
      match fs.canonicalize p.dropLast with
      | .error e => .error e
      | .ok parent => if fs.isDir parent then .ok (parent ++ [name]) else .error .notADirectory

/-- `lstat`: the entry a path names, if there is one. -/
def lstat (fs : FileSystem) (p : Path) : Option Node :=
  match fs.locate p with
  | .error _ => none
  | .ok [] => some .dir
  | .ok q => fs q

/-- `stat` succeeds: the path leads somewhere when its links are followed. -/
def exists? (fs : FileSystem) (p : Path) : Bool :=
  match fs.canonicalize p with
  | .ok _ => true
  | .error _ => false

/-- The file system with an entry set, or removed. -/
def put (fs : FileSystem) (p : Path) (node : Option Node) : FileSystem := Function.update fs p node

/-- `open` for reading with `O_NOFOLLOW`: the entry opened, and the path through real directories
to it. -/
def openRead (fs : FileSystem) (p : Path) : Except IoError (Path × Node) :=
  match fs.locate p with
  | .error e => .error e
  | .ok [] => .ok ([], .dir)
  | .ok q =>
    match fs q with
    | none => .error .notFound
    | some (.link _) => .error .tooManyLinks
    | some node => .ok (q, node)

/-- `open` with `O_CREAT` and `O_EXCL`: an empty file with a mode. -/
def createNew (fs : FileSystem) (p : Path) (mode : Nat) : Except IoError FileSystem :=
  match fs.locate p with
  | .error e => .error e
  | .ok q =>
    if q = [] ∨ (fs q).isSome then .error .alreadyExists
    else .ok (fs.put q (some (.file ⟨#[]⟩ mode)))

/-- `write` to a file just opened. -/
def write (fs : FileSystem) (p : Path) (content : ByteArray) : Except IoError FileSystem :=
  match fs.locate p with
  | .error e => .error e
  | .ok q =>
    match fs q with
    | some (.file _ mode) => .ok (fs.put q (some (.file content mode)))
    | _ => .error .notFound

/-- `chmod`. -/
def chmod (fs : FileSystem) (p : Path) (mode : Nat) : Except IoError FileSystem :=
  match fs.canonicalize p with
  | .error e => .error e
  | .ok q =>
    match fs q with
    | some (.file content _) => .ok (fs.put q (some (.file content mode)))
    | _ => .error .isADirectory

/-- `rename` of a file or a link. Renaming a directory is outside the model and fails. -/
def rename (fs : FileSystem) (a b : Path) : Except IoError FileSystem :=
  match fs.locate a, fs.locate b with
  | .error e, _ => .error e
  | _, .error e => .error e
  | .ok a, .ok b =>
    match fs a with
    | none => .error .notFound
    | some .dir => .error .isADirectory
    | some node =>
      if fs.isDir b then .error .isADirectory
      else if a = b then .ok fs
      else .ok ((fs.put a none).put b (some node))

/-- `unlink`. -/
def unlink (fs : FileSystem) (p : Path) : Except IoError FileSystem :=
  match fs.locate p with
  | .error e => .error e
  | .ok q =>
    match fs q with
    | none => .error .notFound
    | some .dir => .error .isADirectory
    | some _ => .ok (fs.put q none)

/-! ## Paths through real directories -/

/-- The components lead down from a path through real directories, but for the last, which may
lead to anything. -/
def Leads (fs : FileSystem) : Path → List String → Prop
  | _, [] => True
  | base, c :: rest =>
    (c ≠ "." ∧ c ≠ "..") ∧ (rest ≠ [] → fs (base ++ [c]) = some .dir) ∧ Leads fs (base ++ [c]) rest

/-- The path leads through real directories. -/
def Canonical (fs : FileSystem) (p : Path) : Prop := fs.Leads [] p

theorem canonical_root (fs : FileSystem) : fs.Canonical [] := trivial

theorem leads_append (fs : FileSystem) (base : Path) (cs : List String) (c : String) :
    fs.Leads base (cs ++ [c]) ↔
      fs.Leads base cs ∧ (cs ≠ [] → fs (base ++ cs) = some .dir) ∧ c ≠ "." ∧ c ≠ ".." := by
  induction cs generalizing base with
  | nil => simp [Leads]
  | cons d cs ih =>
    simp only [List.cons_append, Leads, ih]
    by_cases hcs : cs = []
    · subst hcs
      simp [Leads]
    · simp [hcs]
      tauto

/-- Directories alone decide whether a path leads through real directories. -/
theorem Leads.congr {fs fs' : FileSystem} (h : ∀ p, fs p = some .dir → fs' p = some .dir)
    {base : Path} {cs : List String} (hcs : fs.Leads base cs) : fs'.Leads base cs := by
  induction cs generalizing base with
  | nil => trivial
  | cons c cs ih => exact ⟨hcs.1, fun hne => h _ (hcs.2.1 hne), ih hcs.2.2⟩

theorem Canonical.congr {fs fs' : FileSystem} (h : ∀ p, fs p = some .dir → fs' p = some .dir)
    {p : Path} (hp : fs.Canonical p) : fs'.Canonical p :=
  Leads.congr h hp

/-- The part of a canonical path before its last component is a canonical directory. -/
theorem Canonical.parent {fs : FileSystem} {p : Path} {c : String} (h : fs.Canonical (p ++ [c])) :
    fs.Canonical p ∧ fs.isDir p = true ∧ c ≠ "." ∧ c ≠ ".." := by
  obtain ⟨hp, hdir, hc⟩ := (leads_append fs [] p c).mp h
  refine ⟨hp, ?_, hc⟩
  rw [List.nil_append] at hdir
  by_cases hnil : p = []
  · simp [isDir, hnil]
  · simp [isDir, hdir hnil]

theorem Canonical.child {fs : FileSystem} {p : Path} {c : String} (hp : fs.Canonical p)
    (hdir : fs.isDir p = true) (hc : c ≠ "." ∧ c ≠ "..") : fs.Canonical (p ++ [c]) := by
  refine (leads_append fs [] p c).mpr ⟨hp, fun hnil => ?_, hc⟩
  simpa [isDir, hnil] using hdir

theorem Canonical.dropLast {fs : FileSystem} {p : Path} (h : fs.Canonical p)
    (hdir : fs.isDir p = true) : fs.Canonical p.dropLast ∧ fs.isDir p.dropLast = true := by
  rcases List.eq_nil_or_concat p with rfl | ⟨q, c, rfl⟩
  · exact ⟨h, hdir⟩
  · rw [List.concat_eq_append] at h ⊢
    rw [List.dropLast_concat]
    exact ⟨h.parent.1, h.parent.2.1⟩

theorem walk_leads {fs : FileSystem} {base : Path} {cs : List String} (h : fs.Leads base cs)
    (hend : cs = [] ∨ fs (base ++ cs) = some .dir ∨ ∃ content mode,
      fs (base ++ cs) = some (.file content mode)) : fs.walk base cs = .done (base ++ cs) := by
  induction cs generalizing base with
  | nil => simp [walk]
  | cons c cs ih =>
    obtain ⟨⟨hdot, hdots⟩, hdir, hrest⟩ := h
    rw [walk, if_neg hdot, if_neg hdots]
    have hassoc : base ++ c :: cs = base ++ [c] ++ cs := by simp
    rw [hassoc] at hend ⊢
    by_cases hcs : cs = []
    · subst hcs
      simp only [List.append_nil, List.cons_ne_nil, false_or] at hend ⊢
      rcases hend with hend | ⟨content, mode, hend⟩
      · simp [hend, walk]
      · simp [hend]
    · rw [hdir hcs]
      exact ih hrest (hend.imp (fun h => by simp at h) id)

/-- A path through real directories to a directory or a file resolves to itself. -/
theorem canonicalize_of_canonical {fs : FileSystem} {p : Path} (h : fs.Canonical p)
    (hend : fs.isDir p = true ∨ ∃ content mode, fs p = some (.file content mode)) :
    fs.canonicalize p = .ok p := by
  have hwalk : fs.walk [] p = .done ([] ++ p) := by
    refine walk_leads h ?_
    rw [List.nil_append]
    rcases hend with hend | hend
    · rw [isDir, Bool.or_eq_true, decide_eq_true_iff, decide_eq_true_iff] at hend
      exact hend.imp_right .inl
    · exact .inr (.inr hend)
  simp [canonicalize, resolve, hwalk]

/-- A path through real directories names the entry it leads to. -/
theorem locate_of_canonical {fs : FileSystem} {p : Path} (h : fs.Canonical p) :
    fs.locate p = .ok p := by
  rcases List.eq_nil_or_concat p with rfl | ⟨q, c, rfl⟩
  · rfl
  · rw [List.concat_eq_append] at h ⊢
    obtain ⟨hq, hdir, hc⟩ := h.parent
    simp [locate, hc, canonicalize_of_canonical hq (.inl hdir), hdir]

theorem walk_canonical {fs : FileSystem} {base : Path} (cs : List String)
    (hbase : fs.Canonical base) (hdir : fs.isDir base = true) :
    match fs.walk base cs with
    | .done p => fs.Canonical p ∧
        (fs.isDir p = true ∨ ∃ content mode, fs p = some (.file content mode))
    | .link base' _ _ => fs.Canonical base' ∧ fs.isDir base' = true
    | .failed _ => True := by
  induction cs generalizing base with
  | nil => exact ⟨hbase, .inl hdir⟩
  | cons c cs ih =>
    rw [walk]
    by_cases hdot : c = "."
    · rw [if_pos hdot]
      exact ih hbase hdir
    by_cases hdots : c = ".."
    · rw [if_neg hdot, if_pos hdots]
      exact ih (hbase.dropLast hdir).1 (hbase.dropLast hdir).2
    rw [if_neg hdot, if_neg hdots]
    have hchild : fs.Canonical (base ++ [c]) := hbase.child hdir ⟨hdot, hdots⟩
    rcases hnode : fs (base ++ [c]) with _ | (⟨content, mode⟩ | _ | target)
    · trivial
    · by_cases hcs : cs = []
      · simp only [hcs, if_true]
        exact ⟨hchild, .inr ⟨content, mode, hnode⟩⟩
      · simp only [hcs, if_false]
    · exact ih hchild (by simp [isDir, hnode])
    · exact ⟨hbase, hdir⟩

theorem canonical_of_resolve {fs : FileSystem} {links : Nat} {base p : Path} {cs : List String}
    (hbase : fs.Canonical base) (hdir : fs.isDir base = true)
    (h : fs.resolve links base cs = .ok p) :
    fs.Canonical p ∧ (fs.isDir p = true ∨ ∃ content mode, fs p = some (.file content mode)) := by
  induction links generalizing base cs with
  | zero => cases h
  | succ links ih =>
    rw [resolve] at h
    have hwalk := walk_canonical cs hbase hdir
    rcases hw : fs.walk base cs with q | ⟨base', target, rest⟩ | e <;> rw [hw] at h hwalk
    · cases h
      exact hwalk
    · by_cases habs : target.absolute = true
      · simp only [habs, if_true] at h
        exact ih (canonical_root fs) rfl h
      · simp only [habs] at h
        exact ih hwalk.1 hwalk.2 h
    · cases h

/-- What a resolution returns leads through real directories to a directory or a file. -/
theorem canonical_of_canonicalize {fs : FileSystem} {p q : Path}
    (h : fs.canonicalize p = .ok q) :
    fs.Canonical q ∧ (fs.isDir q = true ∨ ∃ content mode, fs q = some (.file content mode)) :=
  canonical_of_resolve (canonical_root fs) rfl h

/-! ## Entries that no resolution sees -/

section Unseen

variable {fs fs' : FileSystem} {seen : String → Prop}

theorem walk_congr (hsame : ∀ p, (∀ c ∈ p, seen c) → fs p = fs' p) {base : Path}
    {cs : List String} (hbase : ∀ c ∈ base, seen c) (hcs : ∀ c ∈ cs, seen c) :
    fs.walk base cs = fs'.walk base cs ∧
      ∀ base' target rest, fs.walk base cs = .link base' target rest →
        (∀ c ∈ base', seen c) ∧ (∀ c ∈ rest, seen c) ∧ ∃ p, fs p = some (.link target) := by
  induction cs generalizing base with
  | nil => simp [walk]
  | cons c cs ih =>
    rw [List.forall_mem_cons] at hcs
    rw [walk, walk]
    by_cases hdot : c = "."
    · rw [if_pos hdot, if_pos hdot]
      exact ih hbase hcs.2
    by_cases hdots : c = ".."
    · rw [if_neg hdot, if_neg hdot, if_pos hdots, if_pos hdots]
      exact ih (fun d hd => hbase d (List.dropLast_subset base hd)) hcs.2
    rw [if_neg hdot, if_neg hdot, if_neg hdots, if_neg hdots]
    have hchild : ∀ d ∈ base ++ [c], seen d := by
      intro d hd
      rcases List.mem_append.mp hd with hd | hd
      · exact hbase d hd
      · rw [List.mem_singleton.mp hd]
        exact hcs.1
    rw [← hsame _ hchild]
    rcases hnode : fs (base ++ [c]) with _ | (⟨content, mode⟩ | _ | target)
    · simp
    · by_cases hnil : cs = [] <;> simp [hnil]
    · exact ih hchild hcs.2
    · refine ⟨rfl, ?_⟩
      rintro _ _ _ ⟨⟩
      exact ⟨hbase, hcs.2, _, hnode⟩

/-- A resolution of components that are all seen is the same in a file system that differs only in
entries with other names, if no link names one of those. -/
theorem canonicalize_congr (hsame : ∀ p, (∀ c ∈ p, seen c) → fs p = fs' p)
    (hlinks : ∀ p target, fs p = some (.link target) → ∀ c ∈ target.components, seen c)
    {p : Path} (hp : ∀ c ∈ p, seen c) : fs.canonicalize p = fs'.canonicalize p := by
  have hresolve : ∀ links base cs, (∀ c ∈ base, seen c) → (∀ c ∈ cs, seen c) →
      fs.resolve links base cs = fs'.resolve links base cs := by
    intro links
    induction links with
    | zero => intros; rfl
    | succ links ih =>
      intro base cs hbase hcs
      obtain ⟨heq, hlink⟩ := walk_congr hsame hbase hcs
      rw [resolve, resolve, ← heq]
      rcases hw : fs.walk base cs with q | ⟨base', target, rest⟩ | e
      · rfl
      · obtain ⟨hbase', hrest, r, hr⟩ := hlink base' target rest hw
        refine ih _ _ ?_ ?_
        · split
          · simp
          · exact hbase'
        · intro c hc
          rcases List.mem_append.mp hc with hc | hc
          · exact hlinks r target hr c hc
          · exact hrest c hc
      · rfl
  exact hresolve 41 [] p (by simp) hp

end Unseen

/-! ## The system calls on canonical paths -/

section Calls

variable {fs : FileSystem} {p q : Path}

theorem lstat_of_canonical (h : fs.Canonical p) (hne : p ≠ []) : fs.lstat p = fs p := by
  rw [lstat, locate_of_canonical h]
  cases p with
  | nil => contradiction
  | cons c cs => rfl

theorem exists?_file (h : fs.Canonical p) {content : ByteArray} {mode : Nat}
    (hnode : fs p = some (.file content mode)) : fs.exists? p = true := by
  rw [exists?, canonicalize_of_canonical h (.inr ⟨content, mode, hnode⟩)]

theorem createNew_ok (h : fs.Canonical p) {mode : Nat} {fs' : FileSystem}
    (hok : fs.createNew p mode = .ok fs') :
    fs p = none ∧ fs' = fs.put p (some (.file ⟨#[]⟩ mode)) := by
  rw [createNew, locate_of_canonical h] at hok
  simp only at hok
  split at hok
  · contradiction
  · rename_i hnew
    rw [not_or, Option.not_isSome_iff_eq_none] at hnew
    exact ⟨hnew.2, by cases hok; rfl⟩

theorem chmod_ok (h : fs.Canonical p) {content : ByteArray} {mode mode' : Nat}
    {fs' : FileSystem} (hnode : fs p = some (.file content mode))
    (hok : fs.chmod p mode' = .ok fs') : fs' = fs.put p (some (.file content mode')) := by
  rw [chmod, canonicalize_of_canonical h (.inr ⟨content, mode, hnode⟩)] at hok
  simp only [hnode] at hok
  cases hok
  rfl

theorem unlink_file (h : fs.Canonical p) {content : ByteArray} {mode : Nat}
    (hnode : fs p = some (.file content mode)) : fs.unlink p = .ok (fs.put p none) := by
  rw [unlink, locate_of_canonical h]
  simp only [hnode]

theorem unlink_none (h : fs.Canonical p) (hnode : fs p = none) :
    fs.unlink p = .error .notFound := by
  rw [unlink, locate_of_canonical h]
  simp only [hnode]

theorem rename_file (hp : fs.Canonical p) (hq : fs.Canonical q) (hne : q ≠ [])
    {content : ByteArray} {mode : Nat} (hnode : fs p = some (.file content mode))
    (hfree : fs q = none) :
    fs.rename p q = .ok ((fs.put p none).put q (some (.file content mode))) := by
  have hpq : p ≠ q := by
    rintro rfl
    rw [hnode] at hfree
    contradiction
  rw [rename, locate_of_canonical hp, locate_of_canonical hq]
  simp [hnode, isDir, hne, hfree, hpq]

end Calls

/-! ## Removing several files -/

/-- The file system without the entries at some paths. -/
def without (fs : FileSystem) (ps : List Path) : FileSystem := fun p => if p ∈ ps then none else fs p

@[simp] theorem without_nil (fs : FileSystem) : fs.without [] = fs := by
  funext p
  simp [without]

theorem without_put (fs : FileSystem) (p : Path) (ps : List Path) :
    (fs.put p none).without ps = fs.without (p :: ps) := by
  funext q
  by_cases hq : q = p
  · subst hq
    simp [without, put]
  · simp [without, put, hq]

/-- Files at different paths, each reached through real directories. -/
structure Files (fs : FileSystem) (ps : List Path) : Prop where
  nodup : ps.Nodup
  file : ∀ p ∈ ps, fs.Canonical p ∧ ∃ content mode, fs p = some (.file content mode)

/-- Files stay files when another is removed. -/
theorem Files.tail {fs : FileSystem} {p : Path} {ps : List Path} (h : fs.Files (p :: ps)) :
    (fs.put p none).Files ps := by
  obtain ⟨hnodup, hfile⟩ := h
  obtain ⟨_, content, mode, hp⟩ := hfile p (List.mem_cons_self ..)
  rw [List.nodup_cons] at hnodup
  refine ⟨hnodup.2, fun q hq => ?_⟩
  obtain ⟨hcanon, content', mode', hnode⟩ := hfile q (List.mem_cons_of_mem _ hq)
  refine ⟨hcanon.congr fun r hr => ?_, content', mode', ?_⟩
  · rw [put, Function.update_of_ne, hr]
    rintro rfl
    simp [hp] at hr
  · rw [put, Function.update_of_ne, hnode]
    rintro rfl
    exact hnodup.1 hq

/-- A new file hides no directory. -/
theorem Canonical.put_file {fs : FileSystem} {p q : Path} (hp : fs.Canonical p) (hq : fs q = none)
    (node : Node) : (fs.put q (some node)).Canonical p :=
  hp.congr fun r hr => by
    rw [put, Function.update_of_ne, hr]
    rintro rfl
    simp [hq] at hr

/-- Files stay files when another is added. -/
theorem Files.put_file {fs : FileSystem} {q : Path} {ps : List Path} (h : fs.Files ps)
    (hq : fs q = none) (node : Node) : (fs.put q (some node)).Files ps := by
  refine ⟨h.nodup, fun p hp => ?_⟩
  obtain ⟨hcanon, content, mode, hnode⟩ := h.file p hp
  refine ⟨hcanon.put_file hq node, content, mode, ?_⟩
  rw [put, Function.update_of_ne, hnode]
  rintro rfl
  simp [hq] at hnode

theorem put_without {fs : FileSystem} {q : Path} {ps : List Path} (hq : q ∉ ps)
    (node : Option Node) : (fs.put q node).without ps = (fs.without ps).put q node := by
  funext p
  by_cases hp : p = q
  · subst hp
    simp [without, put, hq]
  · simp [without, put, hp]

/-- Removing a file that was added restores the file system. -/
theorem put_put_none {fs : FileSystem} {q : Path} (hq : fs q = none) (node : Option Node) :
    (fs.put q node).put q none = fs := by
  rw [put, put, Function.update_idem, ← hq, Function.update_eq_self]

end FileSystem

end AxiomDesktop
