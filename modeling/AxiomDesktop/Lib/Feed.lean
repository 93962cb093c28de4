import Mathlib.Data.List.Basic
import Mathlib.Tactic.Common

/-!
# Readers that are fed in chunks

A reader takes elements in a state, and fails or gives a new state with outputs. `readFrom` is a
reader that takes one element at a time, and `feedAll` feeds a reader a list of chunks.
-/

namespace AxiomDesktop

universe u v w x

namespace Feeding

variable {σ : Type u} {α : Type v} {ο : Type w} {ε : Type x}

/-- What a reader gives: its new state and its outputs. -/
abbrev Outcome (ε : Type x) (σ : Type u) (ο : Type w) : Type _ := Except ε (σ × List ο)

/-- Two readings, one after the other. -/
def andThen (first : Outcome ε σ ο) (second : σ → Outcome ε σ ο) : Outcome ε σ ο :=
  match first with
  | .error e => .error e
  | .ok (s, os) =>
    match second s with
    | .error e => .error e
    | .ok (t, more) => .ok (t, os ++ more)

@[simp] theorem andThen_error (e : ε) (second : σ → Outcome ε σ ο) :
    andThen (.error e) second = .error e := rfl

theorem andThen_ok (s : σ) (os : List ο) (second : σ → Outcome ε σ ο) :
    andThen (.ok (s, os)) second = (second s).map fun r => (r.1, os ++ r.2) := by
  unfold andThen
  dsimp only
  cases second s <;> rfl

@[simp] theorem andThen_nil (s : σ) (second : σ → Outcome ε σ ο) :
    andThen (.ok (s, [])) second = second s := by
  rw [andThen_ok]
  cases second s <;> rfl

theorem andThen_assoc (first : Outcome ε σ ο) (second third : σ → Outcome ε σ ο) :
    andThen (andThen first second) third = andThen first fun s => andThen (second s) third := by
  cases first with
  | error e => rfl
  | ok r =>
    obtain ⟨s, os⟩ := r
    rw [andThen_ok, andThen_ok]
    cases second s with
    | error e => rfl
    | ok q =>
      obtain ⟨t, more⟩ := q
      rw [andThen_ok, show (Except.ok (t, more) : Outcome ε σ ο).map (fun r => (r.1, os ++ r.2)) =
        .ok (t, os ++ more) from rfl, andThen_ok]
      cases third t with
      | error e => rfl
      | ok u => exact congrArg (fun os => Except.ok (u.1, os)) (List.append_assoc os more u.2)

theorem andThen_eq_ok {first : Outcome ε σ ο} {second : σ → Outcome ε σ ο} {t : σ} {os : List ο}
    (h : andThen first second = .ok (t, os)) :
    ∃ s before after, first = .ok (s, before) ∧ second s = .ok (t, after) ∧ os = before ++ after := by
  unfold andThen at h
  split at h
  · cases h
  · next s before =>
    split at h
    · cases h
    · next after hsecond =>
      cases h
      exact ⟨s, before, _, rfl, hsecond, rfl⟩

theorem eq_ok_of_toOption {r : Except ε α} {a : α} (h : r.toOption = some a) : r = .ok a := by
  cases r with
  | error e => cases h
  | ok b => exact congrArg Except.ok (Option.some.inj h)

theorem toOption_map {β : Type*} (r : Except ε α) (f : α → β) :
    (r.map f).toOption = r.toOption.map f := by
  cases r <;> rfl

/-- The elements are taken one after the other. -/
def readFrom (step : σ → α → Outcome ε σ ο) : σ → List α → Outcome ε σ ο
  | s, [] => .ok (s, [])
  | s, a :: as => andThen (step s a) fun t => readFrom step t as

/-- The chunks are fed one after the other. -/
def feedAll (feed : σ → List α → Outcome ε σ ο) : σ → List (List α) → Outcome ε σ ο
  | s, [] => .ok (s, [])
  | s, chunk :: chunks => andThen (feed s chunk) fun t => feedAll feed t chunks

theorem feedAll_cons (feed : σ → List α → Outcome ε σ ο) (s : σ) (chunk : List α)
    (chunks : List (List α)) :
    feedAll feed s (chunk :: chunks) = andThen (feed s chunk) fun t => feedAll feed t chunks := rfl

section
variable (step : σ → α → Outcome ε σ ο)

@[simp] theorem readFrom_nil (s : σ) : readFrom step s [] = .ok (s, []) := rfl

@[simp] theorem readFrom_cons (s : σ) (a : α) (as : List α) :
    readFrom step s (a :: as) = andThen (step s a) fun t => readFrom step t as := rfl

theorem readFrom_append (s : σ) (as bs : List α) :
    readFrom step s (as ++ bs) = andThen (readFrom step s as) fun t => readFrom step t bs := by
  induction as generalizing s with
  | nil => simp
  | cons a as ih =>
    rw [List.cons_append, readFrom_cons, readFrom_cons, andThen_assoc]
    simp only [ih]

/-- A property of the outputs and the state that every step keeps. -/
theorem readFrom_induction {I : List ο → σ → Prop}
    (hstep : ∀ before s a t os, I before s → step s a = .ok (t, os) → I (before ++ os) t)
    {before : List ο} {s t : σ} {as : List α} {os : List ο} (hs : I before s)
    (h : readFrom step s as = .ok (t, os)) : I (before ++ os) t := by
  induction as generalizing s os before with
  | nil =>
    cases h
    rw [List.append_nil]
    exact hs
  | cons a as ih =>
    obtain ⟨r, first, rest, hfirst, hrest, rfl⟩ := andThen_eq_ok h
    rw [← List.append_assoc]
    exact ih (hstep before s a r first hs hfirst) hrest

/-- A property of the state alone. -/
theorem readFrom_invariant {J : σ → Prop}
    (hstep : ∀ s a t os, J s → step s a = .ok (t, os) → J t) {s t : σ} {as : List α} {os : List ο}
    (hs : J s) (h : readFrom step s as = .ok (t, os)) : J t := by
  induction as generalizing s os with
  | nil =>
    cases h
    exact hs
  | cons a as ih =>
    obtain ⟨r, first, rest, hfirst, hrest, rfl⟩ := andThen_eq_ok h
    exact ih (hstep s a r first hs hfirst) hrest

end

/-- A property of the outputs and the state that every chunk keeps. -/
theorem feedAll_induction {feed : σ → List α → Outcome ε σ ο} {I : List ο → σ → Prop}
    (hfeed : ∀ before s chunk t os, I before s → feed s chunk = .ok (t, os) → I (before ++ os) t)
    {before : List ο} {s t : σ} {chunks : List (List α)} {os : List ο} (hs : I before s)
    (h : feedAll feed s chunks = .ok (t, os)) : I (before ++ os) t := by
  induction chunks generalizing s os before with
  | nil =>
    cases h
    rw [List.append_nil]
    exact hs
  | cons chunk chunks ih =>
    obtain ⟨r, first, rest, hfirst, hrest, rfl⟩ := andThen_eq_ok h
    rw [← List.append_assoc]
    exact ih (hfeed before s chunk r first hs hfirst) hrest

end Feeding

end AxiomDesktop
