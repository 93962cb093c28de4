import AxiomDesktop.Inference.Fragments

/-!
# Tool calls in fragments

A list of tool calls is accumulated alike however the calls are cut into fragments, and however the
fragments of different calls are interleaved (`accumulate_splits`): what is accumulated at an index
depends on the fragments of that index in their order only (`wp_gathered`), and a fragment is
refused exactly where the call it belongs to would be too large as a whole.
-/

namespace AxiomDesktop.ToolCallAccumulator

open Fallible

/-- Every fragment is pushed, and the calls are finished. -/
def accumulate (deltas : List ToolCallDelta) : Except ValidationError (List ToolCall) :=
  match (deltas.forM push).exec {} with
  | (.ok _, acc) => acc.finish
  | (.error e, _) => .error e

/-! ## Fragments of one call -/

section Parts

variable {α : Type}

/-- All fragments that carry a value carry the same. -/
def Stable (read : α → Option String) (parts : List α) : Prop :=
  ∀ d ∈ parts, ∀ e ∈ parts, ∀ x ∈ read d, ∀ y ∈ read e, x = y

/-- The text the fragments carry. -/
def textOf (read : α → Option String) (parts : List α) : String :=
  String.join (parts.map fun d => (read d).getD "")

variable {read : α → Option String} {parts : List α} {d : α}

theorem stable_concat : Stable read (parts ++ [d]) ↔
    Stable read parts ∧ ∀ x ∈ read d, ∀ y ∈ parts.findSome? read, x = y := by
  constructor
  · intro h
    refine ⟨fun a ha b hb => h a (List.mem_append_left _ ha) b (List.mem_append_left _ hb), ?_⟩
    intro x hx y hy
    obtain ⟨e, he, hread⟩ := List.exists_of_findSome?_eq_some hy
    exact h d (List.mem_append_right _ (List.mem_singleton.mpr rfl)) e (List.mem_append_left _ he)
      x hx y hread
  · rintro ⟨hparts, hnew⟩
    have hlast : ∀ e ∈ parts, ∀ x ∈ read d, ∀ y ∈ read e, x = y := by
      intro e he x hx y hy
      obtain ⟨z, hz⟩ := Option.isSome_iff_exists.mp
        (List.findSome?_isSome_iff.mpr ⟨e, he, Option.isSome_iff_exists.mpr ⟨y, hy⟩⟩)
      obtain ⟨f, hf, hread⟩ := List.exists_of_findSome?_eq_some hz
      exact (hnew x hx z hz).trans (hparts f hf e he z hread y hy)
    intro a ha b hb x hx y hy
    obtain hpart | hlast' := List.mem_append.mp ha
    · obtain hpart' | hlast' := List.mem_append.mp hb
      · exact hparts a hpart b hpart' x hx y hy
      · rw [List.mem_singleton.mp hlast'] at hy
        exact (hlast a hpart y hy x hx).symm
    · rw [List.mem_singleton.mp hlast'] at hx
      obtain hpart' | hlast' := List.mem_append.mp hb
      · exact hlast b hpart' x hx y hy
      · rw [List.mem_singleton.mp hlast'] at hy
        exact Option.some.inj (hx.symm.trans hy)

/-- A value that is repeated, or carried first, is the one the fragments carry. -/
theorem findSome?_concat (h : ∀ x ∈ read d, ∀ y ∈ parts.findSome? read, x = y) :
    (read d).or (parts.findSome? read) = (parts ++ [d]).findSome? read := by
  rw [List.findSome?_append, List.findSome?_singleton]
  cases hold : parts.findSome? read with
  | none => rw [Option.or_none, Option.none_or]
  | some y =>
    cases hnew : read d with
    | none => rfl
    | some x => rw [Option.some_or, Option.some_or, h x hnew y hold]

theorem textOf_concat : textOf read (parts ++ [d]) = textOf read parts ++ (read d).getD "" := by
  unfold textOf String.join
  rw [List.map_append, List.foldl_append]
  rfl

end Parts

/-- The call that fragments of one index make. -/
def merged (parts : List ToolCallDelta) : PartialToolCall where
  id := parts.findSome? (·.id)
  kind := parts.findSome? (·.kind)
  name := textOf (·.name) parts
  arguments := textOf (·.arguments) parts

/-- Fragments of one index that are all accepted. -/
structure Accepted (parts : List ToolCallDelta) : Prop where
  id : Stable (·.id) parts
  kind : Stable (·.kind) parts
  name : (textOf (·.name) parts).utf8ByteSize ≤ MAX_FUNCTION_NAME_CHARS
  arguments : (textOf (·.arguments) parts).utf8ByteSize ≤ MAX_TOOL_ARGUMENTS_BYTES

theorem accepted_nil : Accepted [] :=
  ⟨fun _ h => absurd h List.not_mem_nil, fun _ h => absurd h List.not_mem_nil, by decide, by decide⟩

theorem Accepted.of_concat {parts : List ToolCallDelta} {d : ToolCallDelta}
    (h : Accepted (parts ++ [d])) : Accepted parts := by
  have hsize : ∀ read : ToolCallDelta → Option String,
      (textOf read parts).utf8ByteSize ≤ (textOf read (parts ++ [d])).utf8ByteSize := fun read => by
    rw [textOf_concat, String.utf8ByteSize_append]
    exact Nat.le_add_right _ _
  exact ⟨(stable_concat.mp h.id).1, (stable_concat.mp h.kind).1, (hsize _).trans h.name,
    (hsize _).trans h.arguments⟩

/-- A fragment is merged into a value where it does not contradict it. -/
theorem wp_mergeStable_iff (field : String) (fragment old : Option String) :
    (mergeStable field fragment).Wp
      (fun _ new => new = fragment.or old ∧ ∀ x ∈ fragment, ∀ y ∈ old, x = y)
      (fun _ _ => ¬∀ x ∈ fragment, ∀ y ∈ old, x = y) old := by
  cases fragment with
  | none => exact ⟨rfl, nofun⟩
  | some value =>
    unfold mergeStable
    simp only [wp_bind, wp_get, wp_failIf, wp_set, Option.any_eq_true, Option.mem_def]
    constructor
    · rintro ⟨y, hy, hne⟩ hsame
      simp only [decide_eq_true_eq] at hne
      exact hne (hsame value rfl y hy).symm
    · intro hsame
      refine ⟨rfl, fun x hx y hy => ?_⟩
      by_contra hne
      refine hsame ⟨y, hy, decide_eq_true fun heq => hne ?_⟩
      rw [← Option.some.inj hx, heq]

/-- A fragment is appended where the whole is not too long. -/
theorem wp_appendFragment_iff (field : String) {maximum : Nat} (fragment : Option String)
    {old : String} (h : old.utf8ByteSize ≤ maximum) :
    (appendFragment field maximum fragment).Wp
      (fun _ new => new = old ++ fragment.getD "" ∧ (old ++ fragment.getD "").utf8ByteSize ≤ maximum)
      (fun _ _ => ¬(old ++ fragment.getD "").utf8ByteSize ≤ maximum) old := by
  cases fragment with
  | none =>
    show old = old ++ "" ∧ (old ++ "").utf8ByteSize ≤ maximum
    rw [String.append_empty]
    exact ⟨rfl, h⟩
  | some value =>
    unfold appendFragment
    simp only [wp_bind, wp_modify, wp_get, wp_failIf, Option.getD_some]
    exact ⟨fun hgt => Nat.not_le.mpr hgt, fun hle => ⟨trivial, Nat.not_lt.mp hle⟩⟩

/-- One fragment more of a call. -/
theorem wp_mergeCall_iff {parts : List ToolCallDelta} {d : ToolCallDelta} (h : Accepted parts) :
    (mergeCall d).Wp (fun _ call => call = merged (parts ++ [d]) ∧ Accepted (parts ++ [d]))
      (fun _ _ => ¬Accepted (parts ++ [d])) (merged parts) := by
  simp only [mergeCall, wp_bind, wp_focus]
  refine (wp_mergeStable_iff _ _ _).mono ?_ fun _ _ hbad haccepted =>
    hbad (stable_concat.mp haccepted.id).2
  rintro _ id ⟨rfl, hid⟩
  refine (wp_mergeStable_iff _ _ _).mono ?_ fun _ _ hbad haccepted =>
    hbad (stable_concat.mp haccepted.kind).2
  rintro _ kind ⟨rfl, hkind⟩
  refine (wp_appendFragment_iff _ _ h.name).mono ?_ fun _ _ hbad haccepted =>
    hbad (textOf_concat ▸ haccepted.name)
  rintro _ name ⟨rfl, hname⟩
  refine (wp_appendFragment_iff _ _ h.arguments).mono ?_ fun _ _ hbad haccepted =>
    hbad (textOf_concat ▸ haccepted.arguments)
  rintro _ arguments ⟨rfl, harguments⟩
  constructor
  · unfold merged
    rw [← findSome?_concat hid, ← findSome?_concat hkind, textOf_concat, textOf_concat]
  · exact ⟨stable_concat.mpr ⟨h.id, hid⟩, stable_concat.mpr ⟨h.kind, hkind⟩,
      textOf_concat ▸ hname, textOf_concat ▸ harguments⟩

/-! ## All fragments -/

/-- The fragments of the call at an index. -/
def atIndex (i : Nat) (deltas : List ToolCallDelta) : List ToolCallDelta :=
  deltas.filter fun d => d.index = i

theorem atIndex_concat (i : Nat) (deltas : List ToolCallDelta) (d : ToolCallDelta) :
    atIndex i (deltas ++ [d]) = if d.index = i then atIndex i deltas ++ [d] else atIndex i deltas := by
  unfold atIndex
  rw [List.filter_append]
  split
  · next h => simp [h]
  · next h => simp [h]

/-- Fragments that are all accepted, at every index. -/
def AllAccepted (deltas : List ToolCallDelta) : Prop :=
  (∀ d ∈ deltas, d.index < MAX_TOOL_CALLS) ∧ ∀ i, Accepted (atIndex i deltas)

theorem allAccepted_concat {deltas : List ToolCallDelta} {d : ToolCallDelta} :
    AllAccepted (deltas ++ [d]) ↔
      AllAccepted deltas ∧ d.index < MAX_TOOL_CALLS ∧ Accepted (atIndex d.index deltas ++ [d]) := by
  constructor
  · rintro ⟨hindices, haccepted⟩
    refine ⟨⟨fun e he => hindices e (List.mem_append_left _ he), fun i => ?_⟩,
      hindices d (List.mem_append_right _ (List.mem_singleton.mpr rfl)), ?_⟩
    · have h := haccepted i
      rw [atIndex_concat] at h
      split at h
      · exact h.of_concat
      · exact h
    · have h := haccepted d.index
      rwa [atIndex_concat, if_pos rfl] at h
  · rintro ⟨⟨hindices, haccepted⟩, hindex, hnew⟩
    refine ⟨fun e he => ?_, fun i => ?_⟩
    · obtain he | he := List.mem_append.mp he
      · exact hindices e he
      · rwa [List.mem_singleton.mp he]
    · rw [atIndex_concat]
      split
      · next hi => rwa [← hi]
      · exact haccepted i

theorem mem_keys_insert {i j : Nat} {call : PartialToolCall} {calls : List (Nat × PartialToolCall)} :
    j ∈ (insert i call calls).map (·.1) ↔ j = i ∨ j ∈ calls.map (·.1) := by
  induction calls with
  | nil => simp [insert]
  | cons c rest ih =>
    obtain ⟨k, old⟩ := c
    unfold insert
    split
    · next hk =>
      subst hk
      simp
    · split
      · simp
      · rw [List.map_cons, List.map_cons, List.mem_cons, List.mem_cons, ih]
        exact or_left_comm

/-- The calls stay in the order of their indices. -/
theorem pairwise_insert {i : Nat} {call : PartialToolCall} {calls : List (Nat × PartialToolCall)}
    (h : (calls.map (·.1)).Pairwise (· < ·)) :
    ((insert i call calls).map (·.1)).Pairwise (· < ·) := by
  induction calls with
  | nil => exact List.pairwise_singleton _ _
  | cons c rest ih =>
    obtain ⟨k, old⟩ := c
    obtain ⟨hk, hrest⟩ := List.pairwise_cons.mp h
    unfold insert
    split
    · next heq =>
      subst heq
      exact List.pairwise_cons.mpr ⟨hk, hrest⟩
    · next hne =>
      split
      · next hlt =>
        refine List.pairwise_cons.mpr ⟨fun j hj => ?_, h⟩
        obtain rfl | hj := List.mem_cons.mp hj
        · exact hlt
        · exact hlt.trans (hk j hj)
      · next hge =>
        refine List.pairwise_cons.mpr ⟨fun j hj => ?_, ih hrest⟩
        obtain rfl | hj := mem_keys_insert.mp hj
        · show k < j
          omega
        · exact hk j hj

/-- What is accumulated of fragments: at every index what the fragments of that index make, and
calls at the indices that fragments have, in order. -/
structure Gathered (deltas : List ToolCallDelta) (acc : ToolCallAccumulator) : Prop where
  entry : ∀ i, entry i acc.calls = merged (atIndex i deltas)
  keys : ∀ i, i ∈ acc.calls.map (·.1) ↔ ∃ d ∈ deltas, d.index = i
  sorted : (acc.calls.map (·.1)).Pairwise (· < ·)

/-- **What is accumulated.** Fragments are pushed exactly where the fragments of each index can be
put together. -/
theorem wp_gathered (deltas : List ToolCallDelta) :
    (deltas.forM push).Wp (fun _ acc => Gathered deltas acc ∧ AllAccepted deltas)
      (fun _ _ => ¬AllAccepted deltas) {} := by
  induction deltas using List.reverseRecOn with
  | nil =>
    exact ⟨⟨fun _ => rfl, fun i => ⟨nofun, nofun⟩, List.Pairwise.nil⟩,
      fun d h => absurd h List.not_mem_nil, fun _ => accepted_nil⟩
  | append_singleton deltas d ih =>
    show (forM (deltas ++ [d]) push).Wp _ _ _
    rw [List.forM_append, wp_bind]
    refine ih.mono ?_ fun _ _ hbad haccepted => hbad (allAccepted_concat.mp haccepted).1
    rintro _ acc ⟨hacc, haccepted⟩
    show (push d >>= fun _ => pure PUnit.unit).Wp _ _ acc
    simp only [push, wp_bind, wp_failIf, wp_focus, wp_pure]
    refine ⟨fun hindex hall => absurd (allAccepted_concat.mp hall).2.1 (Nat.not_lt.mpr hindex),
      fun hindex => ?_⟩
    rw [hacc.entry]
    refine (wp_mergeCall_iff (haccepted.2 d.index)).mono ?_ fun _ _ hbad hall =>
      hbad (allAccepted_concat.mp hall).2.2
    rintro _ call ⟨rfl, hcall⟩
    refine ⟨⟨fun i => ?_, fun i => ?_, pairwise_insert hacc.sorted⟩,
      allAccepted_concat.mpr ⟨haccepted, Nat.not_le.mp hindex, hcall⟩⟩
    · rw [entry_insert, atIndex_concat]
      split
      · next hi => rw [hi]
      · exact hacc.entry i
    · rw [mem_keys_insert, hacc.keys]
      constructor
      · rintro (rfl | ⟨e, he, hi⟩)
        · exact ⟨d, List.mem_append_right _ (List.mem_singleton.mpr rfl), rfl⟩
        · exact ⟨e, List.mem_append_left _ he, hi⟩
      · rintro ⟨e, he, hi⟩
        obtain he | he := List.mem_append.mp he
        · exact .inr ⟨e, he, hi⟩
        · rw [List.mem_singleton.mp he] at hi
          exact .inl hi.symm

/-! ## Calls that are cut -/

/-- The fragments of a call: they carry its ID, and its kind unless it is the one that is supposed,
each as often as they like, and their names and arguments are put together to its own. -/
structure Carries (call : ToolCall) (parts : List ToolCallDelta) : Prop where
  ids : ∀ d ∈ parts, ∀ id ∈ d.id, id = call.id
  id : ∃ d ∈ parts, d.id = some call.id
  kinds : ∀ d ∈ parts, ∀ kind ∈ d.kind, kind = call.kind
  kind : (∃ d ∈ parts, d.kind = some call.kind) ∨ call.kind = "function"
  name : textOf (·.name) parts = call.function.name
  arguments : textOf (·.arguments) parts = call.function.arguments

/-- Fragments of a list of calls, those of different calls in any order: each belongs to the call at
its index. -/
structure Splits (calls : List ToolCall) (deltas : List ToolCallDelta) : Prop where
  index : ∀ d ∈ deltas, d.index < calls.length
  carries : ∀ i call, calls[i]? = some call → Carries call (atIndex i deltas)

/-- A call in one fragment. -/
def whole (i : Nat) (call : ToolCall) : ToolCallDelta where
  index := i
  id := some call.id
  kind := some call.kind
  name := some call.function.name
  arguments := some call.function.arguments

/-- The calls of a list, each in one fragment. -/
def wholes (calls : List ToolCall) : List ToolCallDelta := calls.mapIdx whole

/-- A call as it is when all of it has arrived. -/
def arrived (call : ToolCall) : PartialToolCall where
  id := some call.id
  kind := some call.kind
  name := call.function.name
  arguments := call.function.arguments

theorem atIndex_wholes (i : Nat) (calls : List ToolCall) :
    atIndex i (wholes calls) = calls[i]?.toList.map (whole i) := by
  induction calls using List.reverseRecOn with
  | nil => rfl
  | append_singleton calls call ih =>
    unfold wholes at ih ⊢
    rw [List.mapIdx_concat, atIndex_concat, ih]
    show (if calls.length = i then _ else _) = _
    split
    · next hi =>
      subst hi
      rw [List.getElem?_eq_none le_rfl, List.getElem?_concat_length]
      rfl
    · next hi =>
      rcases Nat.lt_or_gt_of_ne hi with hlt | hgt
      · have hlength : (calls ++ [call]).length ≤ i := by
          rw [List.length_append, List.length_singleton]
          exact hlt
        rw [List.getElem?_eq_none hlt.le, List.getElem?_eq_none hlength]
      · rw [List.getElem?_append_left hgt]

theorem splits_wholes (calls : List ToolCall) : Splits calls (wholes calls) := by
  refine ⟨fun d hd => ?_, fun i call hcall => ?_⟩
  · obtain ⟨i, hi, rfl⟩ := List.mem_mapIdx.mp hd
    exact hi
  · have hat : atIndex i (wholes calls) = [whole i call] := by
      rw [atIndex_wholes, hcall]
      rfl
    rw [hat]
    refine ⟨?_, ⟨_, List.mem_singleton.mpr rfl, rfl⟩, ?_, .inl ⟨_, List.mem_singleton.mpr rfl, rfl⟩,
      ?_, ?_⟩
    · rintro d hd id hid
      rw [List.mem_singleton.mp hd] at hid
      exact (Option.some.inj hid).symm
    · rintro d hd kind hkind
      rw [List.mem_singleton.mp hd] at hkind
      exact (Option.some.inj hkind).symm
    · exact String.empty_append
    · exact String.empty_append

/-- What the fragments of a call are completed to. -/
theorem Carries.complete {call : ToolCall} {parts : List ToolCallDelta} (h : Carries call parts) :
    complete (merged parts) = complete (arrived call) := by
  have hid : parts.findSome? (·.id) = some call.id := by
    obtain ⟨d, hd, hid⟩ := h.id
    obtain ⟨x, hx⟩ := Option.isSome_iff_exists.mp
      (List.findSome?_isSome_iff.mpr ⟨d, hd, Option.isSome_iff_exists.mpr ⟨_, hid⟩⟩)
    obtain ⟨e, he, hread⟩ := List.exists_of_findSome?_eq_some hx
    rw [hx, h.ids e he x hread]
  have hkind : (parts.findSome? (·.kind)).getD "function" = call.kind := by
    cases hfound : parts.findSome? (·.kind) with
    | some x =>
      obtain ⟨e, he, hread⟩ := List.exists_of_findSome?_eq_some hfound
      exact h.kinds e he x hread
    | none =>
      obtain ⟨d, hd, hkind⟩ | hkind := h.kind
      · rw [List.findSome?_eq_none_iff.mp hfound d hd] at hkind
        cases hkind
      · exact hkind.symm
  unfold ToolCallAccumulator.complete merged arrived
  dsimp only
  rw [hid, hkind, h.name, h.arguments]
  rfl

/-- The fragments of a call are accepted where the call is not too large. -/
theorem Carries.accepted {call : ToolCall} {parts : List ToolCallDelta} (h : Carries call parts) :
    Accepted parts ↔ call.function.name.utf8ByteSize ≤ MAX_FUNCTION_NAME_CHARS ∧
      call.function.arguments.utf8ByteSize ≤ MAX_TOOL_ARGUMENTS_BYTES := by
  rw [← h.name, ← h.arguments]
  constructor
  · exact fun haccepted => ⟨haccepted.name, haccepted.arguments⟩
  · rintro ⟨hname, harguments⟩
    refine ⟨?_, ?_, hname, harguments⟩
    · exact fun d hd e he x hx y hy => (h.ids d hd x hx).trans (h.ids e he y hy).symm
    · exact fun d hd e he x hx y hy => (h.kinds d hd x hx).trans (h.kinds e he y hy).symm

/-- Calls that are not too many, and none too large. -/
def Small (calls : List ToolCall) : Prop :=
  calls.length ≤ MAX_TOOL_CALLS ∧ ∀ call ∈ calls,
    call.function.name.utf8ByteSize ≤ MAX_FUNCTION_NAME_CHARS ∧
      call.function.arguments.utf8ByteSize ≤ MAX_TOOL_ARGUMENTS_BYTES

section Splits

variable {calls : List ToolCall} {deltas : List ToolCallDelta}

/-- Every call has a fragment. -/
theorem Splits.mem_index (h : Splits calls deltas) (i : Nat) :
    (∃ d ∈ deltas, d.index = i) ↔ i < calls.length := by
  constructor
  · rintro ⟨d, hd, rfl⟩
    exact h.index d hd
  · intro hi
    obtain ⟨d, hd, -⟩ := (h.carries i calls[i] (List.getElem?_eq_getElem hi)).id
    obtain ⟨hd, hindex⟩ := List.mem_filter.mp hd
    exact ⟨d, hd, of_decide_eq_true hindex⟩

/-- Whether fragments are accepted depends on the calls only. -/
theorem Splits.allAccepted (h : Splits calls deltas) : AllAccepted deltas ↔ Small calls := by
  constructor
  · rintro ⟨hindices, haccepted⟩
    refine ⟨Nat.not_lt.mp fun hlt => ?_, fun call hcall => ?_⟩
    · obtain ⟨d, hd, hindex⟩ := (h.mem_index MAX_TOOL_CALLS).mpr hlt
      exact lt_irrefl _ (hindex ▸ hindices d hd)
    · obtain ⟨i, hi⟩ := List.mem_iff_getElem?.mp hcall
      exact (h.carries i call hi).accepted.mp (haccepted i)
  · rintro ⟨hlength, hsmall⟩
    refine ⟨fun d hd => (h.index d hd).trans_le hlength, fun i => ?_⟩
    cases hcall : calls[i]? with
    | some call => exact (h.carries i call hcall).accepted.mpr (hsmall call (List.mem_of_getElem? hcall))
    | none =>
      have hnone : atIndex i deltas = [] := by
        refine List.filter_eq_nil_iff.mpr fun d hd hindex => ?_
        have hlt := h.index d hd
        rw [of_decide_eq_true hindex] at hlt
        exact absurd hlt (Nat.not_lt.mpr (List.getElem?_eq_none_iff.mp hcall))
      rw [hnone]
      exact accepted_nil

theorem finishFrom_eq {n : Nat} {gathered : List (Nat × PartialToolCall)}
    (hkeys : gathered.map (·.1) = List.range' n gathered.length)
    (h : List.Forall₂ (fun p call => complete p.2 = complete (arrived call)) gathered calls) :
    finishFrom n gathered = calls.mapM fun call => complete (arrived call) := by
  induction h generalizing n with
  | nil => rfl
  | @cons p call gathered calls hp hrest ih =>
    obtain ⟨index, entry⟩ := p
    rw [List.map_cons, List.length_cons, List.range'_succ] at hkeys
    obtain ⟨rfl, hkeys⟩ := List.cons.inj hkeys
    rw [finishFrom, if_neg (not_not.mpr rfl), List.mapM_cons, ih hkeys]
    exact congrArg (· >>= _) hp

/-- The calls that are gathered of their fragments are finished as the calls themselves. -/
theorem Splits.finish {acc : ToolCallAccumulator} (h : Splits calls deltas)
    (hacc : Gathered deltas acc) :
    acc.finish = calls.mapM fun call => complete (arrived call) := by
  have hkeys : acc.calls.map (·.1) = List.range calls.length := by
    refine List.Perm.eq_of_pairwise (fun i j _ _ hij hji => absurd hij (lt_asymm hji)) hacc.sorted
      List.pairwise_lt_range ?_
    refine (List.perm_ext_iff_of_nodup (hacc.sorted.imp ne_of_lt) List.nodup_range).mpr fun i => ?_
    rw [hacc.keys, h.mem_index, List.mem_range]
  have hlength : acc.calls.length = calls.length := by
    have := congrArg List.length hkeys
    rwa [List.length_map, List.length_range] at this
  refine finishFrom_eq ?_ (List.forall₂_iff_get.mpr ⟨hlength, fun i hi hi' => ?_⟩)
  · rw [hkeys, List.range_eq_range', hlength]
  · have hindex : (acc.calls.get ⟨i, hi⟩).1 = i := by
      have := List.getElem_of_eq hkeys (by simpa using hi)
      simpa using this
    have hmem : (i, (acc.calls.get ⟨i, hi⟩).2) ∈ acc.calls := by
      rw [show (i, (acc.calls.get ⟨i, hi⟩).2) = acc.calls.get ⟨i, hi⟩ from
        Prod.ext hindex.symm rfl]
      exact List.get_mem _ _
    rw [← entry_of_mem (hacc.sorted.imp ne_of_lt) hmem, hacc.entry]
    exact (h.carries i _ (List.getElem?_eq_getElem hi')).complete

end Splits

/-- A call that arrived is completed to itself. -/
theorem complete_arrived {call tool : ToolCall} (h : complete (arrived call) = .ok tool) :
    tool = call := by
  unfold complete arrived at h
  dsimp only at h
  split at h
  · cases h
  · next id hid =>
    obtain ⟨_, _, h⟩ := result_bind_ok h
    rw [← Except.ok.inj h, ← Option.some.inj (Option.filter_eq_some_iff.mp hid).1]
    rfl

/-- Fragments of calls are refused, or finished as the calls themselves. -/
theorem Splits.accumulate {calls : List ToolCall} {deltas : List ToolCallDelta}
    (h : Splits calls deltas) :
    (Small calls ∧ accumulate deltas = calls.mapM fun call => complete (arrived call)) ∨
      ¬Small calls ∧ ∃ e, accumulate deltas = .error e := by
  have hwp := wp_gathered deltas
  unfold Wp at hwp
  unfold ToolCallAccumulator.accumulate
  rcases hexec : (deltas.forM push).exec {} with ⟨e | _, acc⟩
  · rw [hexec] at hwp
    exact .inr ⟨fun hsmall => hwp (h.allAccepted.mpr hsmall), e, rfl⟩
  · rw [hexec] at hwp
    exact .inl ⟨h.allAccepted.mp hwp.2, h.finish hwp.1⟩

theorem mapM_arrived {calls tools : List ToolCall}
    (h : (calls.mapM fun call => complete (arrived call)) = .ok tools) : tools = calls := by
  induction calls generalizing tools with
  | nil => exact (Except.ok.inj h).symm
  | cons call calls ih =>
    rw [List.mapM_cons] at h
    obtain ⟨tool, htool, h⟩ := result_bind_ok h
    obtain ⟨others, hothers, h⟩ := result_bind_ok h
    rw [← Except.ok.inj h, complete_arrived htool, ih hothers]

/-- **Tool calls in fragments.** However the calls of a list are cut into fragments, and in whatever
order the fragments of different calls come, they are accumulated as the calls in one fragment each
are, to the calls of the list in their order, or fail where these fail. And the indices of fragments
that are finished are those of the calls, without a gap. -/
theorem accumulate_splits (calls : List ToolCall) (deltas : List ToolCallDelta) :
    (Splits calls deltas →
      (accumulate deltas).toOption = (accumulate (wholes calls)).toOption ∧
      ∀ tools, accumulate deltas = .ok tools → tools = calls) ∧
    ∀ tools, accumulate deltas = .ok tools →
      ∀ i, (∃ d ∈ deltas, d.index = i) ↔ i < tools.length := by
  refine ⟨fun h => ?_, fun tools htools i => ?_⟩
  · obtain ⟨hsmall, hdeltas⟩ | ⟨hlarge, e, hdeltas⟩ := h.accumulate
    · obtain ⟨-, hwholes⟩ | ⟨hlarge, -⟩ := (splits_wholes calls).accumulate
      · rw [hdeltas, hwholes]
        exact ⟨rfl, fun tools htools => mapM_arrived htools⟩
      · exact absurd hsmall hlarge
    · obtain ⟨hsmall, -⟩ | ⟨-, e', hwholes⟩ := (splits_wholes calls).accumulate
      · exact absurd hsmall hlarge
      · rw [hdeltas, hwholes]
        exact ⟨rfl, nofun⟩
  · have hwp := wp_gathered deltas
    unfold Wp at hwp
    unfold accumulate at htools
    rcases hexec : (deltas.forM push).exec {} with ⟨e | _, acc⟩
    · rw [hexec] at htools
      cases htools
    · rw [hexec] at hwp htools
      obtain ⟨hkeys, hids⟩ := finishFrom_ok htools
      have hlength := congrArg List.length hids
      rw [List.length_map, List.length_map] at hlength
      rw [← hwp.1.keys, hkeys, ← hlength]
      simp

/-- Two calls, the arguments of the first in two fragments around the second. -/
example : accumulate [⟨1, some "b", none, some "read", none⟩, ⟨0, some "a", none, some "read", some "\x7b"⟩,
    ⟨0, some "a", none, none, some "\x7d"⟩] =
      .ok [⟨"a", "function", ⟨"read", "\x7b\x7d"⟩⟩, ⟨"b", "function", ⟨"read", ""⟩⟩] := by
  decide +kernel

/-- `accumulate_splits` for a call whose name and arguments come in two fragments. -/
theorem accumulate_splits_two :
    (accumulate [⟨0, some "a", some "function", some "re", some "1"⟩,
      ⟨0, none, none, some "ad", some "2"⟩]).toOption =
        (accumulate (wholes [⟨"a", "function", ⟨"read", "12"⟩⟩])).toOption := by
  refine ((accumulate_splits _ _).1 ⟨?_, ?_⟩).1
  · decide
  · intro i call hcall
    cases i with
    | succ i => cases hcall
    | zero =>
      cases hcall
      exact ⟨by decide, by decide, by decide, by decide, by decide, by decide⟩

end AxiomDesktop.ToolCallAccumulator
