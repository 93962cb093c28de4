import AxiomDesktop.Inference.Response
import Mathlib.Data.List.Nodup
import Mathlib.Data.List.Range
import Mathlib.Data.Option.Basic

/-!
# The IDs of accumulated tool calls

The call at an index has the ID that the fragments of its index carry (`wp_pushAll`). So
the calls of a finished accumulator have IDs of their own exactly where no ID is carried
for two indices (`finish_ids`).
-/

namespace AxiomDesktop

/-- The index and the ID of a fragment. -/
def ToolCallDelta.fragment (delta : ToolCallDelta) : Nat × Option String := (delta.index, delta.id)

/-- No ID is carried for two indices. -/
def IdsApart (fragments : List (Nat × Option String)) : Prop :=
  ∀ f ∈ fragments, ∀ g ∈ fragments, f.2.isSome → f.2 = g.2 → f.1 = g.1

namespace ToolCallAccumulator

open Fallible

theorem entry_insert (i j : Nat) (call : PartialToolCall) (calls : List (Nat × PartialToolCall)) :
    entry j (insert i call calls) = if i = j then call else entry j calls := by
  induction calls with
  | nil => rfl
  | cons c rest ih =>
    obtain ⟨k, old⟩ := c
    unfold insert
    split
    · next hk =>
      subst hk
      show (if k = j then call else entry j rest) = if k = j then call else if k = j then old else _
      split <;> rfl
    · next hk =>
      split
      · rfl
      · show (if k = j then old else entry j (insert i call rest)) = _
        rw [ih]
        show _ = if i = j then call else if k = j then old else entry j rest
        split
        · next hj =>
          rw [if_neg fun hi => hk (hj.trans hi.symm)]
        · rfl

/-- A call that has an ID is there. -/
theorem mem_of_entry {i : Nat} {id : String} {calls : List (Nat × PartialToolCall)}
    (h : (entry i calls).id = some id) : (i, entry i calls) ∈ calls := by
  induction calls with
  | nil => cases h
  | cons c rest ih =>
    obtain ⟨k, call⟩ := c
    unfold entry at h ⊢
    split
    · next hk =>
      rw [hk]
      exact List.mem_cons_self
    · next hk =>
      rw [if_neg hk] at h
      exact List.mem_cons_of_mem _ (ih h)

theorem entry_of_mem {i : Nat} {call : PartialToolCall} {calls : List (Nat × PartialToolCall)}
    (hnodup : (calls.map (·.1)).Nodup) (h : (i, call) ∈ calls) : entry i calls = call := by
  induction calls with
  | nil => cases h
  | cons c rest ih =>
    obtain ⟨k, other⟩ := c
    obtain ⟨hk, hrest⟩ := List.nodup_cons.mp hnodup
    rcases List.mem_cons.mp h with heq | hmem
    · cases heq
      exact if_pos rfl
    · have hne : ¬ k = i := by
        rintro rfl
        exact hk (List.mem_map.mpr ⟨(k, call), hmem, rfl⟩)
      show (if k = i then other else entry i rest) = call
      rw [if_neg hne]
      exact ih hrest hmem

theorem wp_mergeStable (field : String) (fragment old : Option String) :
    (mergeStable field fragment).Wp
      (fun _ new => new = fragment.or old ∧ ∀ x ∈ fragment, ∀ y ∈ old, x = y) (fun _ _ => True) old := by
  cases fragment with
  | none => exact ⟨rfl, nofun⟩
  | some value =>
    unfold mergeStable
    simp only [wp_bind, wp_get, wp_failIf, wp_set]
    refine ⟨fun _ => trivial, fun hsame => ⟨rfl, ?_⟩⟩
    rintro x ⟨⟩ y hy
    rw [Option.mem_def.mp hy] at hsame
    have hyx : y = value := by simpa using hsame
    exact hyx.symm

theorem wp_appendFragment (field : String) (maximum : Nat) (fragment : Option String) (old : String) :
    (appendFragment field maximum fragment).Wp (fun _ _ => True) (fun _ _ => True) old := by
  cases fragment with
  | none => trivial
  | some value => simp [appendFragment]

/-- A fragment that is accepted sets the ID of its call, or repeats it. -/
theorem wp_mergeCall (delta : ToolCallDelta) (call : PartialToolCall) :
    (mergeCall delta).Wp
      (fun _ new => new.id = delta.id.or call.id ∧ ∀ x ∈ delta.id, ∀ y ∈ call.id, x = y)
      (fun _ _ => True) call := by
  simp only [mergeCall, wp_bind, wp_focus]
  refine (wp_mergeStable _ _ _).mono (fun _ id hid => ?_) fun _ _ _ => trivial
  refine (wp_mergeStable _ _ _).mono (fun _ kind _ => ?_) fun _ _ _ => trivial
  refine (wp_appendFragment _ _ _ _).mono (fun _ name _ => ?_) fun _ _ _ => trivial
  exact (wp_appendFragment _ _ _ _).mono (fun _ arguments _ => hid) fun _ _ _ => trivial

/-- **The IDs of calls.** After fragments that were all accepted, the call at an index has the ID
that some fragment carries for it. -/
theorem wp_pushAll (deltas : List ToolCallDelta) :
    (deltas.forM push).Wp
      (fun _ acc => ∀ i x, (entry i acc.calls).id = some x ↔
        (i, some x) ∈ deltas.map ToolCallDelta.fragment)
      (fun _ _ => True) {} := by
  refine Wp.forM (I := fun done (acc : ToolCallAccumulator) => ∀ i x, (entry i acc.calls).id = some x ↔
    (i, some x) ∈ done.map ToolCallDelta.fragment) ?_ ?_ deltas
  · intro i x
    exact ⟨nofun, nofun⟩
  · intro done delta acc hacc
    simp only [push, wp_bind, wp_failIf, wp_focus]
    refine ⟨fun _ => trivial, fun _ => ?_⟩
    refine (wp_mergeCall _ _).mono (fun _ call hcall => ?_) fun _ _ _ => trivial
    obtain ⟨hid, hsame⟩ := hcall
    intro i x
    rw [entry_insert, List.map_append, List.mem_append, List.map_singleton, List.mem_singleton,
      ToolCallDelta.fragment, Prod.mk.injEq]
    split
    · next hi =>
      subst hi
      rw [hid]
      cases hdelta : delta.id with
      | none =>
        rw [Option.none_or, hacc]
        simp
      | some y =>
        rw [Option.some_or, ← hacc]
        constructor
        · intro h
          exact .inr ⟨rfl, h.symm⟩
        · rintro (hold | ⟨_, hnew⟩)
          · exact congrArg some (hsame y hdelta x hold)
          · exact hnew.symm
    · next hi =>
      rw [hacc]
      exact ⟨.inl, fun h => h.resolve_right fun hnew => hi hnew.1.symm⟩

/-- The calls that are finished have the indices in a row, and are those that were accumulated. -/
theorem finishFrom_ok {n : Nat} {calls : List (Nat × PartialToolCall)} {tools : List ToolCall}
    (h : finishFrom n calls = .ok tools) :
    calls.map (·.1) = List.range' n calls.length ∧
      calls.map (·.2.id) = tools.map fun tool => some tool.id := by
  induction calls generalizing n tools with
  | nil =>
    cases h
    exact ⟨rfl, rfl⟩
  | cons c rest ih =>
    obtain ⟨index, call⟩ := c
    unfold finishFrom at h
    split at h
    · cases h
    · next hindex =>
      obtain ⟨tool, htool, h⟩ := result_bind_ok h
      obtain ⟨others, hothers, h⟩ := result_bind_ok h
      cases h
      obtain ⟨hindices, hids⟩ := ih hothers
      have hid : call.id = some tool.id := by
        unfold complete at htool
        split at htool
        · cases htool
        · next id hid =>
          obtain ⟨_, _, htool⟩ := result_bind_ok htool
          cases htool
          exact (Option.filter_eq_some_iff.mp hid).1
      rw [List.map_cons, List.map_cons, List.map_cons, List.length_cons, List.range'_succ, hindices, hids,
        hid, not_not.mp hindex]
      exact ⟨rfl, rfl⟩

/-- **The finished calls have IDs of their own** exactly where no ID was carried for two indices. -/
theorem finish_ids {deltas : List ToolCallDelta} {acc : ToolCallAccumulator} {tools : List ToolCall}
    (hpush : (deltas.forM push).exec {} = (.ok ⟨⟩, acc)) (hfinish : acc.finish = .ok tools) :
    (tools.map (·.id)).Nodup ↔ IdsApart (deltas.map ToolCallDelta.fragment) := by
  obtain ⟨hindices, hids⟩ := finishFrom_ok hfinish
  have hcarried : ∀ i x, (entry i acc.calls).id = some x ↔
      (i, some x) ∈ deltas.map ToolCallDelta.fragment := by
    have h := wp_pushAll deltas
    unfold Wp at h
    rw [hpush] at h
    exact h
  have hnodup : (acc.calls.map (·.1)).Nodup := by
    rw [hindices]
    exact List.nodup_range'
  have hsome : (tools.map (·.id)).Nodup ↔ (acc.calls.map (·.2.id)).Nodup := by
    rw [hids, ← List.nodup_map_iff (Option.some_injective String), List.map_map]
    rfl
  rw [hsome, List.nodup_map_iff_inj_on hnodup.of_map]
  constructor
  · rintro hinj ⟨i, x⟩ hf ⟨j, y⟩ hg hx heq
    obtain ⟨id, hid⟩ := Option.isSome_iff_exists.mp hx
    dsimp only at hid heq ⊢
    rw [← heq] at hg
    rw [hid] at hf hg
    have hi := (hcarried i id).mpr hf
    have hj := (hcarried j id).mpr hg
    have hsame := hinj _ (mem_of_entry hi) _ (mem_of_entry hj) (hi.trans hj.symm)
    exact congrArg Prod.fst hsame
  · rintro hapart ⟨i, call⟩ hp ⟨j, other⟩ hq heq
    dsimp only at heq
    have hmem : call.id ∈ tools.map fun tool => some tool.id :=
      hids ▸ List.mem_map.mpr ⟨(i, call), hp, rfl⟩
    obtain ⟨tool, _, hid⟩ := List.mem_map.mp hmem
    have hcall := entry_of_mem hnodup hp
    have hother := entry_of_mem hnodup hq
    have hf := (hcarried i tool.id).mp (by rw [hcall, hid])
    have hg := (hcarried j tool.id).mp (by rw [hother, hid, heq])
    have hij : i = j := hapart _ hf _ hg rfl rfl
    rw [← hcall, ← hother, hij]

end ToolCallAccumulator

end AxiomDesktop
