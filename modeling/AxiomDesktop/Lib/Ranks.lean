import Mathlib.Data.List.Range
import Mathlib.Data.List.Sort
import Mathlib.Data.List.InsertIdx

/-!
# Ranks

Records that carry their place in an order as a number. The ranks are dense (`Ranked`) where they
are `0, 1, ..` in some order of the records; a list of the records sorted by rank then has the
ranks in order (`Ranked.ranks_eq`), and ranks that are read off a list of keys sort the records as
that list (`keys_eq_of_ranked`). `moveTo` moves one key of such a list.
-/

namespace AxiomDesktop

variable {α κ : Type*} {rank : α → Nat}

/-- The ranks are `0, 1, ..`, in some order of the records. -/
def Ranked (rank : α → Nat) (as : List α) : Prop :=
  (as.map rank).Perm (List.range as.length)

theorem ranked_nil : Ranked rank [] := List.Perm.refl _

/-- A permutation of dense ranks is dense. -/
theorem Ranked.perm {as bs : List α} (h : Ranked rank as) (hperm : bs.Perm as) :
    Ranked rank bs := by
  unfold Ranked
  rw [hperm.length_eq]
  exact (hperm.map rank).trans h

/-- Records sorted by a dense rank have the ranks in order. -/
theorem Ranked.ranks_eq {as : List α} (h : Ranked rank as)
    (hsorted : (as.map rank).Pairwise (· ≤ ·)) : as.map rank = List.range as.length := by
  refine List.Perm.eq_of_pairwise' (r := (· ≤ ·)) hsorted ?_ h
  exact List.pairwise_lt_range.imp fun hlt => Nat.le_of_lt hlt

/-- A new record takes the next rank. -/
theorem Ranked.concat {as : List α} {a : α} (h : Ranked rank as) (ha : rank a = as.length) :
    Ranked rank (as ++ [a]) := by
  unfold Ranked
  rw [List.map_append, List.length_append, List.map_singleton, List.length_singleton, ha,
    List.range_succ]
  exact h.append_right _

/-- What leaves the ranks leaves them dense. -/
theorem Ranked.map {as : List α} {f : α → α} (h : Ranked rank as)
    (hf : ∀ a ∈ as, rank (f a) = rank a) : Ranked rank (as.map f) := by
  unfold Ranked
  have hmap : (as.map f).map rank = as.map rank := by
    rw [List.map_map]
    exact List.map_congr_left hf
  rw [hmap, List.length_map]
  exact h

/-- The rank after the largest one: where there is none, zero. -/
def nextRank (ranks : List Nat) : Nat :=
  match ranks.max? with
  | some m => m + 1
  | none => 0

/-- Behind dense ranks the next one is their number. -/
theorem Ranked.nextRank_eq {as : List α} (h : Ranked rank as) :
    nextRank (as.map rank) = as.length := by
  unfold nextRank
  cases hmax : (as.map rank).max? with
  | none =>
    rw [List.max?_eq_none_iff, List.map_eq_nil_iff] at hmax
    rw [hmax]
    rfl
  | some m =>
    obtain ⟨hmem, hle⟩ := List.max?_eq_some_iff.mp hmax
    have hlt : m < as.length := List.mem_range.mp (h.mem_iff.mp hmem)
    have hlast : as.length - 1 ∈ as.map rank := h.mem_iff.mpr (List.mem_range.mpr (by omega))
    have := hle _ hlast
    show m + 1 = as.length
    omega

/-! ## Ranks read off a list of keys -/

section Keys

variable [DecidableEq κ]

theorem map_idxOf_self {keys : List κ} (h : keys.Nodup) :
    keys.map (fun k => keys.idxOf k) = List.range keys.length := by
  refine List.ext_getElem (by simp) fun n hn _ => ?_
  rw [List.getElem_map, List.getElem_range]
  exact h.idxOf_getElem n _

/-- Records ranked by the place of their key among all keys are ranked densely. -/
theorem ranked_of_keys (key : α → κ) {as : List α} {keys : List κ} (hkeys : keys.Nodup)
    (hperm : (as.map key).Perm keys) (hrank : ∀ a ∈ as, rank a = keys.idxOf (key a)) :
    Ranked rank as := by
  unfold Ranked
  have hlength : as.length = keys.length := by
    rw [← List.length_map key]
    exact hperm.length_eq
  have hmap : as.map rank = (as.map key).map fun k => keys.idxOf k := by
    rw [List.map_map]
    exact List.map_congr_left hrank
  rw [hmap, hlength, ← map_idxOf_self hkeys]
  exact hperm.map _

/-- Sorted by such ranks, the records stand in the order of the keys. -/
theorem keys_eq_of_ranked (key : α → κ) {as : List α} {keys : List κ} (hkeys : keys.Nodup)
    (hperm : (as.map key).Perm keys) (hrank : ∀ a ∈ as, rank a = keys.idxOf (key a))
    (hsorted : (as.map rank).Pairwise (· ≤ ·)) : as.map key = keys := by
  have hranks := (ranked_of_keys key hkeys hperm hrank).ranks_eq hsorted
  have hlength : as.length = keys.length := by
    rw [← List.length_map key]
    exact hperm.length_eq
  refine List.ext_getElem (by rw [List.length_map, hlength]) fun n hn hn' => ?_
  have hn'' : n < as.length := by rwa [List.length_map] at hn
  have hplace : rank as[n] = n := by
    have hin : n < (as.map rank).length := by rwa [List.length_map]
    have hget : (as.map rank)[n] = n := by
      rw [List.getElem_of_eq hranks, List.getElem_range]
    rwa [List.getElem_map] at hget
  rw [List.getElem_map]
  have hidx : keys.idxOf (key as[n]) = n := by
    rw [← hrank _ (List.getElem_mem hn'')]
    exact hplace
  have hmem : key as[n] ∈ keys := hperm.mem_iff.mp (List.mem_map_of_mem (List.getElem_mem hn''))
  have hget := List.getElem_idxOf (List.idxOf_lt_length_iff.mpr hmem)
  rw [← hget]
  congr 1

end Keys

/-! ## Moves -/

section Moves

variable [DecidableEq κ] {keys : List κ} {k : κ} {position : Nat}

/-- `keys.remove(current)` and `keys.insert(position, moved)`. -/
def moveTo (keys : List κ) (k : κ) (position : Nat) : List κ :=
  (keys.erase k).insertIdx position k

theorem moveTo_perm (hk : k ∈ keys) (hposition : position < keys.length) :
    (moveTo keys k position).Perm keys := by
  refine (List.perm_insertIdx k _ ?_).trans (List.perm_cons_erase hk).symm
  rw [List.length_erase_of_mem hk]
  omega

/-- The other keys keep their order. -/
theorem erase_moveTo (hkeys : keys.Nodup) (hk : k ∈ keys) (hposition : position < keys.length) :
    (moveTo keys k position).erase k = keys.erase k := by
  have hlength : position ≤ (keys.erase k).length := by
    rw [List.length_erase_of_mem hk]
    omega
  have hnot : k ∉ keys.erase k := hkeys.not_mem_erase
  unfold moveTo
  generalize keys.erase k = rest at hlength hnot ⊢
  induction rest generalizing position with
  | nil =>
    obtain rfl : position = 0 := by simpa using hlength
    simp
  | cons a rest ih =>
    cases position with
    | zero => simp
    | succ position =>
      have hne : a ≠ k := fun h => hnot (h ▸ List.mem_cons_self)
      rw [List.insertIdx_succ_cons, List.erase_cons_tail (by simpa using hne),
        ih (Nat.lt_of_succ_lt ‹_›) (by simpa using hlength) fun h =>
          hnot (List.mem_cons_of_mem a h)]

/-- The moved key stands where it was moved to. -/
theorem getElem?_moveTo (hk : k ∈ keys) (hposition : position < keys.length) :
    (moveTo keys k position)[position]? = some k := by
  unfold moveTo
  rw [List.getElem?_insertIdx_self, if_pos]
  rw [List.length_erase_of_mem hk]
  omega

end Moves

end AxiomDesktop
