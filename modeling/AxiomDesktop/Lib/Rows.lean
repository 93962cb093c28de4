import Mathlib.Data.List.Nodup
import Mathlib.Tactic.Common

/-!
# Tables of rows with a key

A table of a relational database: its rows in the order of their row ids, no two of them with one
primary key (`Rows`). The statements of SQL are functions on it: `INSERT` (`Rows.insert?`, which
fails where the key is taken), `UPDATE .. SET .. WHERE` (`Rows.update`, for a change that leaves
the key), and `DELETE .. WHERE` (`Rows.delete`). A query filters `rows`.

The module has what each statement does to the membership of a row (`mem_update`, `mem_insert?`,
`mem_delete`) and to the answer of a query it does not concern (`filter_update_of_disjoint`,
`filter_insert?`).
-/

namespace AxiomDesktop

universe u v

/-- The rows of a table, no two with one key. -/
structure Rows {α : Type u} {κ : Type v} (key : α → κ) where
  rows : List α
  unique : (rows.map key).Nodup

namespace Rows

variable {α : Type u} {κ : Type v} {key : α → κ}

/-- The table with no rows. -/
def empty : Rows key := ⟨[], List.nodup_nil⟩

/-- A row changed where the condition holds. -/
def edit (p : α → Bool) (f : α → α) (a : α) : α := if p a then f a else a

theorem edit_pos {p : α → Bool} {f : α → α} {a : α} (h : p a = true) : edit p f a = f a := if_pos h

theorem edit_neg {p : α → Bool} {f : α → α} {a : α} (h : p a = false) : edit p f a = a :=
  if_neg (by simp [h])

/-- What the change keeps, the conditional change keeps. -/
theorem edit_keeps {β : Type*} {g : α → β} {p : α → Bool} {f : α → α} (h : ∀ a, g (f a) = g a)
    (a : α) : g (edit p f a) = g a := by
  unfold edit
  split
  · exact h a
  · rfl

theorem map_edit {β : Type*} {g : α → β} {p : α → Bool} {f : α → α} (h : ∀ a, g (f a) = g a)
    (as : List α) : (as.map (edit p f)).map g = as.map g := by
  rw [List.map_map]
  exact List.map_congr_left fun a _ => edit_keeps h a

theorem map_edit_false (f : α → α) (as : List α) :
    as.map (edit (fun _ => false) f) = as := by
  rw [List.map_congr_left fun a _ => edit_neg (f := f) (p := fun _ => false) (a := a) rfl]
  exact List.map_id as

theorem map_edit_id (p : α → Bool) (as : List α) : as.map (edit p id) = as := by
  have hid : edit p id = id := by
    funext a
    unfold edit
    split <;> rfl
  rw [hid, List.map_id]

/-- `UPDATE .. SET .. WHERE`, for a change that leaves the key. -/
def update (t : Rows key) (p : α → Bool) (f : α → α) (hf : ∀ a, key (f a) = key a) : Rows key where
  rows := t.rows.map (edit p f)
  unique := by
    rw [List.map_map]
    have : key ∘ edit p f = key := funext fun a => edit_keeps hf a
    rw [this]
    exact t.unique

/-- `DELETE .. WHERE`. -/
def delete (t : Rows key) (p : α → Bool) : Rows key where
  rows := t.rows.filter fun a => !p a
  unique := t.unique.sublist (List.filter_sublist.map key)

/-- `EXISTS`. -/
def any (t : Rows key) (p : α → Bool) : Bool := t.rows.any p

/-- The row with a key. -/
def get? [DecidableEq κ] (t : Rows key) (k : κ) : Option α := t.rows.find? fun a => key a = k

/-- `INSERT`: fails where the key is taken. -/
def insert? [DecidableEq κ] (t : Rows key) (a : α) : Option (Rows key) :=
  if h : key a ∉ t.rows.map key then
    some ⟨t.rows ++ [a], by
      rw [List.map_append]
      exact List.nodup_append.mpr ⟨t.unique, List.nodup_singleton _, by
        rintro b hb c hc rfl
        exact h (List.mem_singleton.mp hc ▸ hb)⟩⟩
  else none

/-! ## Keys -/

/-- The rows of a key are one row. -/
theorem eq_of_key (t : Rows key) {a b : α} (ha : a ∈ t.rows) (hb : b ∈ t.rows)
    (h : key a = key b) : a = b :=
  List.inj_on_of_nodup_map t.unique ha hb h

theorem get?_mem [DecidableEq κ] {t : Rows key} {k : κ} {a : α} (h : t.get? k = some a) :
    a ∈ t.rows ∧ key a = k :=
  ⟨List.mem_of_find?_eq_some h, by simpa using List.find?_some h⟩

theorem get?_of_mem [DecidableEq κ] {t : Rows key} {a : α} (h : a ∈ t.rows) :
    t.get? (key a) = some a := by
  cases hb : t.get? (key a) with
  | none =>
    have := List.find?_eq_none.mp hb a h
    simp at this
  | some b =>
    obtain ⟨hmem, hkey⟩ := get?_mem hb
    rw [t.eq_of_key hmem h hkey]

/-- The row of a key after an update. -/
theorem eq_update {t t' : Rows key} {p : α → Bool} {f : α → α} (hf : ∀ a, key (f a) = key a)
    (h : t'.rows = t.rows.map (edit p f)) : t' = t.update p f hf := by
  cases t'
  cases h
  rfl

theorem get?_update [DecidableEq κ] (t : Rows key) (p : α → Bool) (f : α → α)
    (hf : ∀ a, key (f a) = key a) (k : κ) :
    (t.update p f hf).get? k = (t.get? k).map (edit p f) := by
  show (t.rows.map (edit p f)).find? _ = _
  rw [List.find?_map]
  have : (fun a => decide (key a = k)) ∘ edit p f = fun a => decide (key a = k) :=
    funext fun a => by simp [edit_keeps hf a]
  rw [this]
  rfl

/-! ## Membership -/

section Membership

variable {t : Rows key} {p : α → Bool} {f : α → α} {hf : ∀ a, key (f a) = key a} {a b : α}

theorem mem_update : b ∈ (t.update p f hf).rows ↔ ∃ a ∈ t.rows, edit p f a = b := List.mem_map

theorem mem_delete : b ∈ (t.delete p).rows ↔ b ∈ t.rows ∧ p b = false := by
  simp [delete]

theorem insert?_eq_some [DecidableEq κ] {t' : Rows key} (h : t.insert? a = some t') :
    t'.rows = t.rows ++ [a] ∧ key a ∉ t.rows.map key := by
  unfold insert? at h
  split at h
  · rename_i hkey
    exact ⟨by rw [← Option.some.inj h], hkey⟩
  · cases h

theorem mem_insert? [DecidableEq κ] {t' : Rows key} (h : t.insert? a = some t') :
    b ∈ t'.rows ↔ b ∈ t.rows ∨ b = a := by
  rw [(insert?_eq_some h).1, List.mem_append, List.mem_singleton]

/-- A row whose key is not taken can be inserted. -/
theorem insert?_isSome [DecidableEq κ] (h : key a ∉ t.rows.map key) :
    (t.insert? a).isSome = true := by
  unfold insert?
  rw [dif_pos h]
  rfl

end Membership

/-! ## Queries a statement does not concern -/

section Queries

variable {t : Rows key} {p q : α → Bool} {f : α → α} {a : α}

/-- An update of rows outside a query, which stay outside it, leaves the answer. -/
theorem filter_update_of_disjoint (hf : ∀ a, key (f a) = key a)
    (hp : ∀ a ∈ t.rows, p a = true → q a = false ∧ q (f a) = false) :
    (t.update p f hf).rows.filter q = t.rows.filter q := by
  show (t.rows.map (edit p f)).filter q = t.rows.filter q
  generalize t.rows = as at hp
  induction as with
  | nil => rfl
  | cons a as ih =>
    have hrest := ih fun b hb => hp b (List.mem_cons_of_mem a hb)
    by_cases ha : p a = true
    · obtain ⟨hqa, hqf⟩ := hp a List.mem_cons_self ha
      rw [List.map_cons, edit_pos ha, List.filter_cons_of_neg (by simp [hqf]),
        List.filter_cons_of_neg (by simp [hqa]), hrest]
    · rw [List.map_cons, edit_neg (by simpa using ha), List.filter_cons, List.filter_cons, hrest]

/-- An update that keeps what a query asks for changes the rows of the answer in place. -/
theorem filter_update (hf : ∀ a, key (f a) = key a) (hq : ∀ a, q (f a) = q a) :
    (t.update p f hf).rows.filter q = (t.rows.filter q).map (edit p f) := by
  show (t.rows.map (edit p f)).filter q = _
  rw [List.filter_map]
  have : q ∘ edit p f = q := funext fun a => edit_keeps hq a
  rw [this]

theorem filter_insert? [DecidableEq κ] {t' : Rows key} (h : t.insert? a = some t') :
    t'.rows.filter q = t.rows.filter q ++ if q a then [a] else [] := by
  rw [(insert?_eq_some h).1, List.filter_append]
  by_cases ha : q a = true <;> simp [ha]

/-- A deletion of rows outside a query leaves the answer. -/
theorem filter_delete_of_disjoint (hp : ∀ a ∈ t.rows, p a = true → q a = false) :
    (t.delete p).rows.filter q = t.rows.filter q := by
  show (t.rows.filter fun a => !p a).filter q = _
  rw [List.filter_filter]
  refine List.filter_congr fun a ha => ?_
  cases hpa : p a with
  | false => simp
  | true => simp [hp a ha hpa]

end Queries

end Rows

end AxiomDesktop
