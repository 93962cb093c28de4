import Mathlib.Data.List.Basic
import Mathlib.Tactic.Common

/-!
# Clusters of a list

A segmentation cuts every list into clusters (`Segmentation`), reading it from its beginning: what
a cluster is depends on no cluster before it (`cut`), and what is put behind a list can only be
joined to its last cluster (`grow`). The places between the clusters are the boundaries
(`Boundary`). Whether two lists meet at a boundary is seen from the last cluster of the one and the
first element of the other (`boundary_cons_iff`).

A segmentation can be given by a rule that says which elements join the cluster before them
(`Segmentation.ofJoins`).
-/

namespace AxiomDesktop

universe u

variable {α : Type u}

/-- A way to cut lists into clusters. -/
structure Segmentation (α : Type u) where
  /-- The clusters of a list, in order. -/
  clusters : List α → List (List α)
  flatten_clusters : ∀ as, (clusters as).flatten = as
  ne_nil : ∀ {as g}, g ∈ clusters as → g ≠ []
  /-- On both sides of a place between two clusters there are the clusters that each side has
  alone. -/
  cut : ∀ {as gs hs}, clusters as = gs ++ hs → clusters gs.flatten = gs ∧ clusters hs.flatten = hs
  /-- Of the clusters of a list only the last one can be longer in a longer list. -/
  grow : ∀ {as gs g} bs, clusters as = gs ++ [g] →
    ∃ more hs, clusters (as ++ bs) = gs ++ (g ++ more) :: hs

namespace Segmentation

variable {S : Segmentation α} {as bs cs g : List α} {gs hs : List (List α)} {a b c : α}

/-- The place between two lists is one between two clusters of the whole. -/
def Boundary (S : Segmentation α) (as bs : List α) : Prop :=
  S.clusters (as ++ bs) = S.clusters as ++ S.clusters bs

instance [DecidableEq α] : Decidable (S.Boundary as bs) :=
  inferInstanceAs (Decidable (S.clusters (as ++ bs) = _))

@[simp] theorem clusters_nil : S.clusters [] = [] := by
  have h := S.flatten_clusters []
  cases hgs : S.clusters [] with
  | nil => rfl
  | cons g gs =>
    rw [hgs, List.flatten_cons, List.append_eq_nil_iff] at h
    exact absurd h.1 (S.ne_nil (hgs ▸ List.mem_cons_self))

theorem clusters_eq_nil_iff : S.clusters as = [] ↔ as = [] := by
  constructor
  · intro h
    rw [← S.flatten_clusters as, h, List.flatten_nil]
  · rintro rfl
    exact clusters_nil

theorem boundary_of_clusters (h : S.clusters as = gs ++ hs) : S.Boundary gs.flatten hs.flatten := by
  obtain ⟨hgs, hhs⟩ := S.cut h
  have has : gs.flatten ++ hs.flatten = as := by
    rw [← List.flatten_append, ← h, S.flatten_clusters]
  rw [Boundary, has, hgs, hhs, h]

theorem boundary_of_append (h : S.clusters (as ++ bs) = gs ++ hs) (hgs : gs.flatten = as) :
    S.Boundary as bs := by
  have hhs : hs.flatten = bs := by
    have hflat := S.flatten_clusters (as ++ bs)
    rw [h, List.flatten_append, hgs] at hflat
    exact List.append_cancel_left hflat
  rw [← hgs, ← hhs]
  exact boundary_of_clusters h

@[simp] theorem boundary_nil_left : S.Boundary [] bs := by
  rw [Boundary, clusters_nil, List.nil_append, List.nil_append]

@[simp] theorem boundary_nil_right : S.Boundary as [] := by
  rw [Boundary, clusters_nil, List.append_nil, List.append_nil]

/-- The clusters of a list up to one of its boundaries. -/
theorem Boundary.left (h : S.Boundary as bs) (hcs : S.clusters as = gs ++ hs) :
    S.Boundary gs.flatten (hs.flatten ++ bs) := by
  have hwhole : S.clusters (as ++ bs) = gs ++ (hs ++ S.clusters bs) := by
    rw [h, hcs, List.append_assoc]
  have hflat := boundary_of_clusters hwhole
  rwa [List.flatten_append, S.flatten_clusters] at hflat

/-- A boundary inside a list is one of every longer list. -/
theorem Boundary.append (h : S.Boundary as bs) (hbs : bs ≠ []) (cs : List α) :
    S.Boundary as (bs ++ cs) := by
  obtain ⟨hs, g, hg⟩ : ∃ hs g, S.clusters bs = hs ++ [g] := by
    obtain hnil | ⟨hs, g, hg⟩ := List.eq_nil_or_concat (S.clusters bs)
    · exact absurd (clusters_eq_nil_iff.mp hnil) hbs
    · exact ⟨hs, g, by rw [hg, List.concat_eq_append]⟩
  have hwhole : S.clusters (as ++ bs) = (S.clusters as ++ hs) ++ [g] := by
    rw [h, hg, List.append_assoc]
  obtain ⟨more, rest, hmore⟩ := S.grow cs hwhole
  rw [List.append_assoc, List.append_assoc] at hmore
  exact boundary_of_append hmore (S.flatten_clusters as)

/-- A boundary of what is behind a boundary is one of the whole list. -/
theorem Boundary.trans (h : S.Boundary as (bs ++ cs)) (hbs : S.Boundary bs cs) :
    S.Boundary (as ++ bs) cs := by
  have hwhole : S.clusters (as ++ bs ++ cs) =
      (S.clusters as ++ S.clusters bs) ++ S.clusters cs := by
    rw [List.append_assoc, h, hbs, List.append_assoc]
  refine boundary_of_append hwhole ?_
  rw [List.flatten_append, S.flatten_clusters, S.flatten_clusters]

/-- A cluster alone is one cluster. -/
theorem clusters_of_mem (hg : g ∈ S.clusters as) : S.clusters g = [g] := by
  obtain ⟨gs, hs, h⟩ := List.append_of_mem hg
  obtain ⟨-, htail⟩ := S.cut h
  have hcons : S.clusters (g :: hs).flatten = [g] ++ hs := htail
  have hhead := (S.cut hcons).1
  rwa [List.flatten_singleton] at hhead

theorem clusters_flatten (hgs : gs <:+: S.clusters as) :
    S.clusters gs.flatten = gs := by
  obtain ⟨before, after, hcs⟩ := hgs
  exact (S.cut (S.cut hcs.symm).1).2

/-! ## The place before an element -/

/-- An element begins a cluster behind a cluster. -/
def Begins (S : Segmentation α) (g : List α) (c : α) : Prop := S.clusters (g ++ [c]) = [g, [c]]

instance [DecidableEq α] : Decidable (S.Begins g c) :=
  inferInstanceAs (Decidable (S.clusters (g ++ [c]) = _))

/-- **What is behind a cluster is a new cluster or not by its first element.** -/
theorem boundary_cluster_iff (hg : S.clusters g = [g]) :
    S.Boundary g (c :: bs) ↔ S.Begins g c := by
  have hsplit : g ++ c :: bs = g ++ [c] ++ bs := by simp
  constructor
  · intro h
    obtain ⟨hs, q, hq⟩ : ∃ hs q, S.clusters (g ++ [c]) = hs ++ [q] := by
      obtain hnil | ⟨hs, q, hq⟩ := List.eq_nil_or_concat (S.clusters (g ++ [c]))
      · have hne := clusters_eq_nil_iff.mp hnil
        simp at hne
      · exact ⟨hs, q, by rw [hq, List.concat_eq_append]⟩
    obtain ⟨more, rest, hmore⟩ := S.grow bs hq
    have hflat : (hs ++ [q]).flatten = g ++ [c] := by rw [← hq, S.flatten_clusters]
    rw [Boundary, hsplit, hmore, hg, List.singleton_append] at h
    cases hs with
    | nil =>
      -- the cluster before the element would be longer than itself
      obtain ⟨hqg, -⟩ := List.cons.inj h
      have hlen := congrArg List.length hqg
      have hlenq := congrArg List.length hflat
      simp at hlen hlenq
      omega
    | cons first hs =>
      obtain ⟨rfl, -⟩ := List.cons.inj h
      rw [List.cons_append, List.flatten_cons] at hflat
      have htail := List.append_cancel_left hflat
      cases hs with
      | nil =>
        rw [List.nil_append, List.flatten_singleton] at htail
        rw [Begins, hq, htail]
        rfl
      | cons second hs =>
        have hne : second ≠ [] := S.ne_nil (by rw [hq]; simp)
        have hqne : q ≠ [] := S.ne_nil (by rw [hq]; simp)
        have hlen := congrArg List.length htail
        have h1 := List.length_pos_iff.mpr hne
        have h2 := List.length_pos_iff.mpr hqne
        simp at hlen
        omega
  · intro h
    have hlast : S.clusters (g ++ [c]) = [g] ++ [[c]] := h
    obtain ⟨more, rest, hmore⟩ := S.grow bs hlast
    rw [← hsplit] at hmore
    exact boundary_of_append hmore (List.flatten_singleton)

/-- **The place before an element is a boundary or not by the last cluster before it.** -/
theorem boundary_cons_iff (has : S.clusters as = gs ++ [g]) :
    S.Boundary as (c :: bs) ↔ S.Begins g c := by
  have hg : S.clusters g = [g] := clusters_of_mem (by rw [has]; simp)
  rw [← @boundary_cluster_iff _ _ bs _ _ hg]
  have hflat : as = gs.flatten ++ g := by
    rw [← S.flatten_clusters as, has, List.flatten_append, List.flatten_singleton]
  obtain ⟨more, rest, hmore⟩ := S.grow (c :: bs) has
  obtain ⟨hgs, htail⟩ := S.cut hmore
  have htext : ((g ++ more) :: rest).flatten = g ++ c :: bs := by
    have hwhole := S.flatten_clusters (as ++ c :: bs)
    rw [hmore, List.flatten_append, hflat, List.append_assoc] at hwhole
    exact List.append_cancel_left hwhole
  rw [htext] at htail
  constructor
  · intro h
    rw [Boundary, has, hmore, List.append_assoc] at h
    rw [Boundary, htail, hg]
    exact List.append_cancel_left h
  · intro h
    rw [Boundary, htail, hg] at h
    rw [Boundary, has, hmore, h, List.append_assoc]

/-- The first element of a list joins the last cluster of the one before it. -/
def Joined (S : Segmentation α) (as bs : List α) : Prop :=
  ∃ g ∈ (S.clusters as).getLast?, ∃ c ∈ bs.head?, ¬ S.Begins g c

/-- **Two lists meet at a boundary where the second does not join the first.** -/
theorem boundary_iff_not_joined : S.Boundary as bs ↔ ¬ S.Joined as bs := by
  cases bs with
  | nil => simp [Joined]
  | cons c bs =>
    obtain hnil | ⟨gs, g, hgs⟩ := List.eq_nil_or_concat (S.clusters as)
    · rw [clusters_eq_nil_iff.mp hnil]
      simp [Joined]
    · rw [List.concat_eq_append] at hgs
      rw [boundary_cons_iff hgs, Joined, hgs]
      simp

instance [DecidableEq α] : Decidable (S.Joined as bs) :=
  decidable_of_iff (¬ S.Boundary as bs) (by rw [boundary_iff_not_joined, Classical.not_not])

/-! ## A segmentation by a rule -/

section Joins

variable {joins : List α → α → Bool} {x : List α}

/-- The clusters of a list behind the beginning of a cluster: an element that joins it makes it
longer, and any other begins the next one. -/
def clustersFrom (joins : List α → α → Bool) (g : List α) : List α → List (List α)
  | [] => [g]
  | a :: as =>
    if joins g a then clustersFrom joins (g ++ [a]) as else g :: clustersFrom joins [a] as

/-- The clusters of a list by a rule. -/
def clustersBy (joins : List α → α → Bool) : List α → List (List α)
  | [] => []
  | a :: as => clustersFrom joins [a] as

theorem flatten_clustersFrom (g as : List α) : (clustersFrom joins g as).flatten = g ++ as := by
  induction as generalizing g with
  | nil => simp [clustersFrom]
  | cons a as ih =>
    rw [clustersFrom]
    split
    · rw [ih, List.append_assoc, List.singleton_append]
    · rw [List.flatten_cons, ih, List.singleton_append]

theorem flatten_clustersBy (as : List α) : (clustersBy joins as).flatten = as := by
  cases as with
  | nil => rfl
  | cons a as => exact flatten_clustersFrom [a] as

theorem ne_nil_of_mem_clustersFrom {h : List α} (hg : g ≠ []) (hmem : h ∈ clustersFrom joins g as) :
    h ≠ [] := by
  induction as generalizing g with
  | nil => exact List.mem_singleton.mp hmem ▸ hg
  | cons a as ih =>
    rw [clustersFrom] at hmem
    split at hmem
    · exact ih (by simp) hmem
    · obtain rfl | hmem := List.mem_cons.mp hmem
      · exact hg
      · exact ih (List.cons_ne_nil a []) hmem

/-- The first cluster, and what begins behind it. -/
theorem clustersFrom_cases (joins : List α → α → Bool) (g as : List α) :
    ∃ x rest, as = x ++ rest ∧ clustersFrom joins g x = [g ++ x] ∧
      (∀ c ∈ rest.head?, joins (g ++ x) c = false) ∧
      clustersFrom joins g as = (g ++ x) :: clustersBy joins rest := by
  induction as generalizing g with
  | nil => exact ⟨[], [], rfl, by simp [clustersFrom], nofun, by simp [clustersFrom, clustersBy]⟩
  | cons a as ih =>
    cases ha : joins g a with
    | true =>
      obtain ⟨x, rest, rfl, hx, hrest, heq⟩ := ih (g ++ [a])
      refine ⟨a :: x, rest, rfl, ?_, ?_, ?_⟩
      · rw [clustersFrom, if_pos ha, hx, List.append_assoc, List.singleton_append]
      · simpa using hrest
      · rw [clustersFrom, if_pos ha, heq, List.append_assoc, List.singleton_append]
    | false =>
      refine ⟨[], a :: as, rfl, by simp [clustersFrom], by simpa using ha, ?_⟩
      rw [clustersFrom, if_neg (by simp [ha]), clustersBy, List.append_nil]

theorem clustersFrom_append (hx : clustersFrom joins g x = [g ++ x]) (as : List α) :
    clustersFrom joins g (x ++ as) = clustersFrom joins (g ++ x) as := by
  induction x generalizing g with
  | nil => simp
  | cons a x ih =>
    rw [clustersFrom] at hx
    split at hx
    · next ha =>
      rw [List.cons_append, clustersFrom, if_pos ha, ih (by simpa using hx)]
      simp
    · exfalso
      obtain ⟨hg, -⟩ := List.cons.inj hx
      simp at hg

/-- Behind a whole cluster the next one begins, where its first element does not join. -/
theorem clustersFrom_whole (hx : clustersFrom joins g x = [g ++ x])
    (has : ∀ c ∈ as.head?, joins (g ++ x) c = false) :
    clustersFrom joins g (x ++ as) = (g ++ x) :: clustersBy joins as := by
  rw [clustersFrom_append hx]
  cases as with
  | nil => rfl
  | cons a as => rw [clustersFrom, if_neg (by simp [has a rfl]), clustersBy]

theorem clustersBy_cut (h : clustersBy joins as = gs ++ hs) :
    clustersBy joins gs.flatten = gs ∧ clustersBy joins hs.flatten = hs := by
  induction gs generalizing as with
  | nil =>
    rw [List.nil_append] at h
    rw [← h, flatten_clustersBy]
    exact ⟨rfl, rfl⟩
  | cons g gs ih =>
    cases as with
    | nil => cases h
    | cons a as =>
      obtain ⟨x, rest, rfl, hx, hrest, heq⟩ := clustersFrom_cases joins [a] as
      have hcons : ([a] ++ x) :: clustersBy joins rest = g :: (gs ++ hs) := by rw [← heq]; exact h
      obtain ⟨hg, htail⟩ := List.cons.inj hcons
      obtain ⟨hgs, hhs⟩ := ih htail
      have hflat : gs.flatten ++ hs.flatten = rest := by
        rw [← List.flatten_append, ← htail, flatten_clustersBy]
      refine ⟨?_, hhs⟩
      rw [List.flatten_cons, ← hg, List.append_assoc]
      refine (clustersFrom_whole hx ?_).trans (by rw [hgs])
      intro c hc
      refine hrest c ?_
      rw [← hflat]
      cases hfirst : gs.flatten with
      | nil => rw [hfirst] at hc; cases hc
      | cons b bs => rw [hfirst] at hc; exact hc

theorem clustersBy_grow (bs : List α) (h : clustersBy joins as = gs ++ [g]) :
    ∃ more hs, clustersBy joins (as ++ bs) = gs ++ (g ++ more) :: hs := by
  induction gs generalizing as with
  | nil =>
    cases as with
    | nil => cases h
    | cons a as =>
      obtain ⟨x, rest, hrest, hx, -, heq⟩ := clustersFrom_cases joins [a] as
      rw [List.nil_append, clustersBy, heq] at h
      obtain ⟨hg, htail⟩ := List.cons.inj h
      obtain rfl : rest = [] := by
        have hflat : (clustersBy joins rest).flatten = [] := by rw [htail]; rfl
        rwa [flatten_clustersBy] at hflat
      obtain rfl : as = x := by simpa using hrest
      obtain ⟨y, after, -, -, -, heq'⟩ := clustersFrom_cases joins ([a] ++ as) bs
      exact ⟨y, clustersBy joins after, by
        rw [List.cons_append, clustersBy, clustersFrom_append hx, heq', ← hg]; rfl⟩
  | cons first gs ih =>
    cases as with
    | nil => cases h
    | cons a as =>
      obtain ⟨x, rest, rfl, hx, hrest, heq⟩ := clustersFrom_cases joins [a] as
      have hcons : ([a] ++ x) :: clustersBy joins rest = first :: (gs ++ [g]) := by
        rw [← heq]
        exact h
      obtain ⟨hfirst, htail⟩ := List.cons.inj hcons
      obtain ⟨more, hs, hmore⟩ := ih htail
      refine ⟨more, hs, ?_⟩
      cases rest with
      | nil => simp [clustersBy] at htail
      | cons b rest =>
        have hwhole : clustersFrom joins [a] (x ++ (b :: rest ++ bs)) =
            ([a] ++ x) :: clustersBy joins (b :: rest ++ bs) := clustersFrom_whole hx hrest
        rw [List.cons_append, List.append_assoc, clustersBy, hwhole, hmore, ← hfirst]
        rfl

/-- The segmentation whose clusters are as long as elements join them. -/
def ofJoins (joins : List α → α → Bool) : Segmentation α where
  clusters := clustersBy joins
  flatten_clusters := flatten_clustersBy
  ne_nil := by
    intro as g hg
    cases as with
    | nil => cases hg
    | cons a as => exact ne_nil_of_mem_clustersFrom (List.cons_ne_nil a []) hg
  cut := clustersBy_cut
  grow := clustersBy_grow

theorem begins_ofJoins (hg : (ofJoins joins).clusters g = [g]) (hne : g ≠ []) :
    (ofJoins joins).Begins g c ↔ joins g c = false := by
  obtain ⟨a, x, rfl⟩ := List.exists_cons_of_ne_nil hne
  have hfrom : clustersFrom joins [a] (x ++ [c]) = clustersFrom joins (a :: x) [c] :=
    clustersFrom_append hg [c]
  have hcons : (ofJoins joins).clusters (a :: x ++ [c]) = clustersFrom joins (a :: x) [c] := hfrom
  rw [Begins, hcons]
  cases hc : joins (a :: x) c with
  | true => simp [clustersFrom, hc]
  | false => simp [clustersFrom, hc]

/-- The place before an element, by the rule and the cluster before it, which ends as the list
does. -/
theorem boundary_ofJoins (hne : as ≠ []) :
    ∃ g, g.getLast? = as.getLast? ∧
      ((ofJoins joins).Boundary as (c :: bs) ↔ joins g c = false) := by
  obtain hnil | ⟨gs, g, hgs⟩ := List.eq_nil_or_concat ((ofJoins joins).clusters as)
  · exact absurd (clusters_eq_nil_iff.mp hnil) hne
  · rw [List.concat_eq_append] at hgs
    have hmem : g ∈ (ofJoins joins).clusters as := by
      rw [hgs]
      simp
    have hg : g ≠ [] := (ofJoins joins).ne_nil hmem
    refine ⟨g, ?_, (boundary_cons_iff hgs).trans (begins_ofJoins (clusters_of_mem hmem) hg)⟩
    rw [← (ofJoins joins).flatten_clusters as, hgs, List.flatten_append, List.flatten_singleton,
      List.getLast?_append_of_ne_nil _ hg]

end Joins

end Segmentation

end AxiomDesktop
