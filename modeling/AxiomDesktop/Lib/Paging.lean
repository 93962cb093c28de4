import Mathlib.Data.List.Basic
import Mathlib.Order.Lattice
import Mathlib.Tactic.Common

/-!
# Lists that are fetched page by page

A listing is fetched a page at a time, each with the cursor of the next where more rows follow
(`Paged`). Pages that are followed from the first one on give the whole listing, in its order, where
their number suffices (`collect_of_le`), and are given up otherwise (`collect_of_lt`).
-/

namespace AxiomDesktop.Paging

variable {α β γ ε : Type*}

/-- The pages from a cursor on, at most so many of them, put together. -/
def collect (fetch : Option γ → Except ε (List β × Option γ)) (exceeded : ε) :
    Nat → Option γ → List β → Except ε (List β)
  | 0, _, _ => .error exceeded
  | pages + 1, cursor, taken =>
    match fetch cursor with
    | .error e => .error e
    | .ok (rows, none) => .ok (taken ++ rows)
    | .ok (rows, some next) => collect fetch exceeded pages (some next) (taken ++ rows)

/-- The page of the rows that are left, and the cursor of the next page where rows follow it. -/
def answer (view : α → β) (cursorOf : α → γ) (limit : Nat) (rest : List α) : List β × Option γ :=
  ((rest.take limit).map view,
    if limit < rest.length then (rest.take limit).getLast?.map cursorOf else none)

/-- A page is what lies behind the row of its cursor. -/
structure Paged (fetch : Option γ → Except ε (List β × Option γ)) (view : α → β) (cursorOf : α → γ)
    (limit : Nat) (rows : List α) : Prop where
  first : fetch none = .ok (answer view cursorOf limit rows)
  behind : ∀ front a rest, rows = front ++ a :: rest →
    fetch (some (cursorOf a)) = .ok (answer view cursorOf limit rest)

/-- A row more than the page has tells whether more rows follow. -/
theorem length_lookahead (limit : Nat) (rest : List α) :
    limit < (rest.take (limit + 1)).length ↔ limit < rest.length := by
  rw [List.length_take]
  omega

theorem dropLast_lookahead {limit : Nat} {rest : List α} (h : limit < rest.length) :
    (rest.take (limit + 1)).dropLast = rest.take limit := by
  rw [List.dropLast_eq_take, List.length_take_of_le (Nat.succ_le_of_lt h), List.take_take]
  congr 1
  omega

variable {fetch : Option γ → Except ε (List β × Option γ)} {view : α → β} {cursorOf : α → γ} {limit : Nat}
  {rows : List α} {exceeded : ε}

/-- A page that is not the last one ends with the row of its cursor. -/
theorem answer_next (hlimit : 0 < limit) {rest : List α} (hmore : limit < rest.length) :
    ∃ front a, rest = front ++ a :: rest.drop limit ∧
      answer view cursorOf limit rest = ((front ++ [a]).map view, some (cursorOf a)) := by
  have hne : rest.take limit ≠ [] := List.ne_nil_of_length_pos (by rw [List.length_take]; omega)
  obtain ⟨front, a, htake⟩ := (List.eq_nil_or_concat (rest.take limit)).resolve_left hne
  rw [List.concat_eq_append] at htake
  refine ⟨front, a, ?_, ?_⟩
  · conv_lhs => rw [← List.take_append_drop limit rest, htake]
    rw [List.append_assoc]
    rfl
  · rw [answer, if_pos hmore, htake, List.getLast?_concat]
    rfl

theorem answer_last {rest : List α} (hlast : rest.length ≤ limit) :
    answer view cursorOf limit rest = (rest.map view, none) := by
  rw [answer, if_neg (Nat.not_lt.mpr hlast), List.take_of_length_le hlast]

/-- **The pages that are followed** are the rows that are left, where their number suffices. -/
theorem collect_eq (h : Paged fetch view cursorOf limit rows) (hlimit : 0 < limit) (pages : Nat)
    {front rest : List α} {cursor : Option γ} (taken : List β) (hrows : rows = front ++ rest)
    (hcursor : fetch cursor = .ok (answer view cursorOf limit rest)) :
    collect fetch exceeded pages cursor taken =
      if 0 < pages ∧ rest.length ≤ pages * limit then .ok (taken ++ rest.map view)
      else .error exceeded := by
  induction pages generalizing front rest cursor taken with
  | zero => rw [if_neg (fun hpages => absurd hpages.1 (Nat.lt_irrefl 0)), collect]
  | succ pages ih =>
    rw [collect, hcursor]
    by_cases hmore : limit < rest.length
    · obtain ⟨before, a, hrest, hanswer⟩ := @answer_next _ _ _ view cursorOf _ hlimit _ hmore
      rw [hanswer]
      have hsplit : rows = (front ++ before) ++ a :: rest.drop limit := by
        rw [hrows, List.append_assoc, ← hrest]
      have hnext := h.behind _ a _ hsplit
      have hrows' : rows = (front ++ before ++ [a]) ++ rest.drop limit := by
        rw [hsplit, List.append_assoc]
        simp
      have htaken : taken ++ (before ++ [a]).map view ++ (rest.drop limit).map view =
          taken ++ rest.map view := by
        conv_rhs => rw [hrest]
        simp
      dsimp only
      rw [ih (taken ++ (before ++ [a]).map view) hrows' hnext, htaken]
      refine if_congr ?_ rfl rfl
      rw [List.length_drop, Nat.succ_mul]
      constructor
      · rintro ⟨_, hle⟩
        exact ⟨Nat.succ_pos _, by omega⟩
      · rintro ⟨_, hle⟩
        refine ⟨Nat.pos_of_ne_zero fun hzero => ?_, by omega⟩
        rw [hzero, Nat.zero_mul] at hle
        omega
    · have hlast := Nat.le_of_not_lt hmore
      rw [answer_last hlast, if_pos ⟨Nat.succ_pos _, Nat.le_trans hlast (Nat.le_mul_of_pos_left _ (Nat.succ_pos _))⟩]

theorem collect_first (h : Paged fetch view cursorOf limit rows) (hlimit : 0 < limit) {pages : Nat}
    (hpages : 0 < pages) :
    collect fetch exceeded pages none [] =
      if rows.length ≤ pages * limit then .ok (rows.map view) else .error exceeded := by
  have hall : collect fetch exceeded pages none [] = _ :=
    collect_eq h hlimit pages [] (List.nil_append rows).symm h.first
  rw [hall]
  exact if_congr (and_iff_right hpages) rfl rfl

/-! ## Pages by key -/

section Keys

variable {κ : Type*} [LinearOrder κ] {key : α → κ}

/-- What has a greater key than a row of a sorted list is what follows it. -/
theorem filter_behind {front rest : List α} {a : α}
    (h : (front ++ a :: rest).Pairwise fun a b => key a < key b) :
    (front ++ a :: rest).filter (fun b => key a < key b) = rest := by
  obtain ⟨_, htail, hcross⟩ := List.pairwise_append.mp h
  obtain ⟨hrest, _⟩ := List.pairwise_cons.mp htail
  have hfront : front.filter (fun b => key a < key b) = [] :=
    List.filter_eq_nil_iff.mpr fun b hb => by
      have hless := hcross b hb a List.mem_cons_self
      simpa using hless.le
  have hall : rest.filter (fun b => key a < key b) = rest :=
    List.filter_eq_self.mpr fun b hb => by simpa using hrest b hb
  rw [List.filter_append, hfront, List.filter_cons_of_neg (by simp), hall]
  rfl

end Keys

end AxiomDesktop.Paging
