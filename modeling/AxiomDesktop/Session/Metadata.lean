import AxiomDesktop.Session.Statements

/-!
# The metadata of tool, plan and notice rows

What the rows beside the messages keep in their metadata through every event (`Noted`): they are
never marked as verified, an image's progress and proof stay readable beside the name of an image
tool, and a task list stays readable. Redaction, which runs again on every rewrite of the
metadata, keeps all of it (`Noted.redact`).
-/

namespace AxiomDesktop

open Store

/-! ## Redaction of what is read back -/

theorem keys_redactFields (fields : List (String × Json)) :
    (redactFields fields).map (·.1) = fields.map (·.1) := by
  induction fields with
  | nil => rfl
  | cons field rest ih =>
    obtain ⟨k, v⟩ := field
    simp [redactFields, ih]

/-- A key whose value is redacted in itself. -/
theorem get?_redactValue_plain {key : String} (h : isSecretKey key = false) (v : Json) :
    (redactValue v).get? key = (v.get? key).map redactValue := by
  rw [get?_redactValue]
  simp [h]

theorem redactValues_eq_map (values : List Json) : redactValues values = values.map redactValue := by
  induction values with
  | nil => rfl
  | cons v rest ih => rw [redactValues, ih, List.map_cons]

/-- A string field, redacted. -/
theorem string?_redactValue {key : String} (h : isSecretKey key = false) (v : Json) {s : String}
    (hs : v.string? key = some s) : (redactValue v).string? key = some (redactText s) := by
  unfold Json.string? at hs ⊢
  rw [get?_redactValue_plain h]
  cases hv : v.get? key with
  | none => simp [hv] at hs
  | some w =>
    rw [hv] at hs
    cases w with
    | str text =>
      cases hs
      rfl
    | null | bool | num | arr | obj => cases hs

/-- The words of a row's metadata hold no secret. -/
theorem redactText_words : ∀ word ∈ ["generate", "generate_image", "edit_image", "pending",
    "in_progress", "completed", "queued", "generating", "finishing"], redactText word = word := by
  decide +kernel

/-- The keys of a row's metadata are no keys of secrets. -/
theorem isSecretKey_metadata : ∀ key ∈ ["id", "title", "status", "stage", "percent", "name",
    "image_progress", "generated_image", "content", "items"], isSecretKey key = false := by
  decide +kernel

theorem redactText_imageTool {name : String}
    (h : name = "generate" ∨ name = "generate_image" ∨ name = "edit_image") :
    redactText name = name := by
  rcases h with rfl | rfl | rfl <;> exact redactText_words _ (by decide)

theorem redactText_taskStatus {name : String} {status : TaskStatus}
    (h : TaskStatus.ofName? name = some status) : redactText name = name := by
  unfold TaskStatus.ofName? at h
  split at h
  · exact redactText_words _ (by decide)
  · exact redactText_words _ (by decide)
  · exact redactText_words _ (by decide)
  · cases h

theorem redactText_stage {name : String} {stage : ImageGenerationStage}
    (h : ImageGenerationStage.ofName? name = some stage) : redactText name = name := by
  unfold ImageGenerationStage.ofName? at h
  split at h
  · exact redactText_words _ (by decide)
  · exact redactText_words _ (by decide)
  · exact redactText_words _ (by decide)
  · cases h

/-- A task that was read stays readable. -/
theorem TaskItem.ofJson?_redact {v : Json} {item : TaskItem} (h : TaskItem.ofJson? v = some item) :
    (TaskItem.ofJson? (redactValue v)).isSome = true := by
  unfold TaskItem.ofJson? at h
  obtain ⟨id, hid, h⟩ := Option.bind_eq_some_iff.mp h
  obtain ⟨title, htitle, h⟩ := Option.bind_eq_some_iff.mp h
  obtain ⟨status, hstatus, -⟩ := Option.bind_eq_some_iff.mp h
  obtain ⟨name, hname, hstatus⟩ := Option.bind_eq_some_iff.mp hstatus
  unfold TaskItem.ofJson?
  rw [string?_redactValue (isSecretKey_metadata _ (by decide)) v hid,
    string?_redactValue (isSecretKey_metadata _ (by decide)) v htitle,
    string?_redactValue (isSecretKey_metadata _ (by decide)) v hname, redactText_taskStatus hstatus]
  simp [hstatus]

/-- Progress that was read is read again. -/
theorem ImageGenerationProgress.ofJson?_redact {v : Json} {p : ImageGenerationProgress}
    (h : ofJson? v = some p) : ofJson? (redactValue v) = some p := by
  cases v with
  | obj fields =>
    simp only [ofJson?] at h
    split at h
    · rename_i hkeys
      obtain ⟨stage, hstage, h⟩ := Option.bind_eq_some_iff.mp h
      obtain ⟨percent, hpercent, h⟩ := Option.bind_eq_some_iff.mp h
      obtain ⟨name, hname, hstage⟩ := Option.bind_eq_some_iff.mp hstage
      obtain ⟨w, hw, hpercent⟩ := Option.bind_eq_some_iff.mp hpercent
      have hkeys' : (redactFields fields).all
          (fun f => f.1 == "stage" || f.1 == "percent") = true := by
        have : ∀ l : List (String × Json), l.all (fun f => f.1 == "stage" || f.1 == "percent") =
            (l.map (·.1)).all fun k => k == "stage" || k == "percent" := fun l => by
          rw [List.all_map]
          rfl
        rw [this, keys_redactFields, ← this]
        exact hkeys
      have hname' := string?_redactValue (isSecretKey_metadata _ (by decide)) (.obj fields) hname
      rw [redactText_stage hstage] at hname'
      have hw' : (redactValue (.obj fields)).get? "percent" = some w := by
        rw [get?_redactValue_plain (isSecretKey_metadata _ (by decide)), hw]
        cases w with
        | num literal => rfl
        | null | bool | str | arr | obj => cases hpercent
      show (if (redactFields fields).all (fun f => f.1 == "stage" || f.1 == "percent") then _
        else _) = _
      rw [if_pos hkeys']
      show (((redactValue (.obj fields)).string? "stage").bind _).bind _ = _
      rw [hname']
      show ((ImageGenerationStage.ofName? name).bind fun stage =>
        (((redactValue (.obj fields)).get? "percent").bind Json.nat?).bind _) = _
      rw [hw', hstage]
      show ((Json.nat? w).bind _) = _
      rw [hpercent]
      exact h
    · cases h
  | null | bool | num | str | arr => cases h

namespace Store

/-- The tasks of a stored list. -/
def tasks? (v : Json) : Option (List TaskItem) := v.arr?.bind fun vs => vs.mapM TaskItem.ofJson?

/-- A list of tasks that was read stays readable. -/
theorem tasks?_redact {v : Json} (h : (tasks? v).isSome = true) :
    (tasks? (redactValue v)).isSome = true := by
  cases v with
  | arr vs =>
    change (vs.mapM TaskItem.ofJson?).isSome = true at h
    show ((redactValues vs).mapM TaskItem.ofJson?).isSome = true
    rw [redactValues_eq_map]
    induction vs with
    | nil => rfl
    | cons v rest ih =>
      obtain ⟨tasks, htasks⟩ := Option.isSome_iff_exists.mp h
      rw [List.mapM_cons] at htasks
      obtain ⟨task, htask, htasks⟩ := Option.bind_eq_some_iff.mp htasks
      obtain ⟨more, hmore, -⟩ := Option.bind_eq_some_iff.mp htasks
      obtain ⟨task', htask'⟩ := Option.isSome_iff_exists.mp (TaskItem.ofJson?_redact htask)
      obtain ⟨more', hmore'⟩ :=
        Option.isSome_iff_exists.mp (ih (Option.isSome_iff_exists.mpr ⟨more, hmore⟩))
      rw [List.map_cons, List.mapM_cons, htask', hmore']
      rfl
  | null | bool | num | str | obj => cases h

theorem isImageTool_redact {m : Json} (h : isImageTool m = true) :
    isImageTool (redactValue m) = true := by
  unfold isImageTool at h ⊢
  split at h
  · rename_i name hname
    rw [string?_redactValue (isSecretKey_metadata _ (by decide)) m hname, redactText_imageTool (by simpa [or_assoc] using h)]
    exact h
  · cases h

theorem isImageTool_set {key : String} (hk : key ≠ "name") (v m : Json) :
    isImageTool (m.set key v) = isImageTool m := by
  unfold isImageTool Json.string?
  rw [Json.get?_set_ne (Ne.symm hk)]

/-! ## Noted rows -/

/-- The metadata of a row beside the messages. -/
structure Noted (m : Json) : Prop where
  unverified : m.get? "terminal_verified" = none
  progress : ∀ v, m.get? "image_progress" = some v → isImageTool m = true ∧
    ∃ p, ImageGenerationProgress.ofJson? v = some p ∧ p.validAfter none = true
  image : ∀ v, m.get? "generated_image" = some v → isImageTool m = true ∧
    ∃ (image : GeneratedImage) (n : Nat), v = redactValue^[n] image.proof ∧
      m.get? "content" = some (redactValue^[n] image.content)
  tasks : ∀ v, m.get? "items" = some v → (tasks? v).isSome = true

/-- The keys `Noted` says something about. -/
def NOTED_KEYS : List String := ["terminal_verified", "image_progress", "generated_image", "items"]

/-- Fields under none of these keys. -/
def plainFields (fields : List (String × Json)) : Bool :=
  fields.all fun f => !NOTED_KEYS.contains f.1

theorem lookup_plainFields {fields : List (String × Json)} (h : plainFields fields = true)
    {key : String} (hk : NOTED_KEYS.contains key = true) : Json.lookup key fields = none := by
  induction fields with
  | nil => rfl
  | cons field rest ih =>
    obtain ⟨k, v⟩ := field
    rw [plainFields, List.all_cons, Bool.and_eq_true] at h
    have hne : k ≠ key := by
      rintro rfl
      rw [hk] at h
      exact absurd h.1 (by simp)
    rw [Json.lookup, if_neg hne]
    exact ih h.2

theorem Noted.obj {fields : List (String × Json)} (h : plainFields fields = true) :
    Noted (.obj fields) where
  unverified := lookup_plainFields h rfl
  progress v hv := by
    rw [show (Json.obj fields).get? "image_progress" = none from lookup_plainFields h rfl] at hv
    cases hv
  image v hv := by
    rw [show (Json.obj fields).get? "generated_image" = none from lookup_plainFields h rfl] at hv
    cases hv
  tasks v hv := by
    rw [show (Json.obj fields).get? "items" = none from lookup_plainFields h rfl] at hv
    cases hv

theorem Noted.redact {m : Json} (h : Noted m) : Noted (redactValue m) where
  unverified := by rw [get?_redactValue, h.unverified, Option.map_none]
  progress v hv := by
    rw [get?_redactValue_plain (isSecretKey_metadata _ (by decide))] at hv
    obtain ⟨w, hw, rfl⟩ := Option.map_eq_some_iff.mp hv
    obtain ⟨htool, p, hp, hvalid⟩ := h.progress w hw
    exact ⟨isImageTool_redact htool, p, ImageGenerationProgress.ofJson?_redact hp, hvalid⟩
  image v hv := by
    rw [get?_redactValue_plain (isSecretKey_metadata _ (by decide))] at hv
    obtain ⟨w, hw, rfl⟩ := Option.map_eq_some_iff.mp hv
    obtain ⟨htool, image, n, rfl, hcontent⟩ := h.image w hw
    refine ⟨isImageTool_redact htool, image, n + 1, ?_, ?_⟩
    · rw [Function.iterate_succ_apply']
    · rw [get?_redactValue_plain (isSecretKey_metadata _ (by decide)), hcontent, Function.iterate_succ_apply']
      rfl
  tasks v hv := by
    rw [get?_redactValue_plain (isSecretKey_metadata _ (by decide))] at hv
    obtain ⟨w, hw, rfl⟩ := Option.map_eq_some_iff.mp hv
    exact tasks?_redact (h.tasks w hw)

/-- The keys a rewrite may set without a word on `Noted`. -/
def isPlainKey (key : String) : Bool :=
  !NOTED_KEYS.contains key && key ≠ "name" && key ≠ "content"

theorem Noted.set {m : Json} (h : Noted m) {key : String} (hk : isPlainKey key = true) (v : Json) :
    Noted (m.set key v) := by
  simp only [isPlainKey, NOTED_KEYS, List.contains_cons, List.contains_nil, Bool.or_false,
    Bool.and_eq_true, Bool.not_eq_true', Bool.or_eq_false_iff, beq_eq_false_iff_ne,
    decide_eq_true_eq] at hk
  obtain ⟨⟨⟨hverified, hprogress, himage, hitems⟩, hname⟩, hcontent⟩ := hk
  constructor
  · rw [Json.get?_set_ne (Ne.symm hverified)]
    exact h.unverified
  · intro w hw
    rw [Json.get?_set_ne (Ne.symm hprogress)] at hw
    rw [isImageTool_set hname]
    exact h.progress w hw
  · intro w hw
    rw [Json.get?_set_ne (Ne.symm himage)] at hw
    rw [isImageTool_set hname, Json.get?_set_ne (Ne.symm hcontent)]
    exact h.image w hw
  · intro w hw
    rw [Json.get?_set_ne (Ne.symm hitems)] at hw
    exact h.tasks w hw

theorem Noted.extend {m : Json} (h : Noted m) {fields : List (String × Json)}
    (hk : fields.all (fun f => isPlainKey f.1) = true) : Noted (Store.extend m fields) := by
  induction fields generalizing m with
  | nil => exact h
  | cons field rest ih =>
    rw [List.all_cons, Bool.and_eq_true] at hk
    exact ih (h.set hk.1 field.2) hk.2

end Store

end AxiomDesktop
