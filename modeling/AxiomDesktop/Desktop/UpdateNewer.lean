import AxiomDesktop.Desktop.UpdateService

/-!
# An update that is offered is newer

What the service keeps in every order of calls, events and ends of what it awaits
(`UpdateService.Holds`), as long as no step is one that goes wrong
(`UpdateService.Steady`): a download is reported of a release that is not newer, an
operation that was cancelled fails while the state has such a release, or a job is started
of a release that was replaced since (`updates_are_newer`).
-/

namespace AxiomDesktop

/-- The statuses in which an update is offered or installed. -/
def UpdateStatus.Offers : UpdateStatus → Prop
  | .available | .downloading | .waiting | .installing => True
  | _ => False

/-- A release is strictly newer than a version. -/
def Release.Newer (release : Release) (version : String) : Prop :=
  ∃ sign, Publish.compareVersions release.version version = .ok sign ∧ 0 < sign

instance (release : Release) (version : String) : Decidable (release.Newer version) :=
  match h : Publish.compareVersions release.version version with
  | .error _ => .isFalse (by rintro ⟨sign, hsign, -⟩; cases h.symm.trans hsign)
  | .ok sign =>
    decidable_of_iff (0 < sign) ⟨fun hpos => ⟨sign, h, hpos⟩, by
      rintro ⟨sign', hsign, hpos⟩
      cases h.symm.trans hsign
      exact hpos⟩

/-- The release of a state is not newer. -/
def UpdateState.Stale (state : UpdateState) : Prop :=
  ∃ release ∈ state.release, ¬ release.Newer state.currentVersion

instance (state : UpdateState) : Decidable state.Stale :=
  inferInstanceAs (Decidable (∃ release ∈ state.release, ¬ release.Newer state.currentVersion))

/-- What is offered is a signed release that is newer. -/
def UpdateState.Right (safeInteger : String → Option Int) (state : UpdateState) : Prop :=
  state.status.Offers → ∃ release, state.release = some release ∧
    release.Newer state.currentVersion ∧ release.signing = "signed" ∧
    ∃ value, Publish.parseRelease safeInteger value = .ok release

namespace ServiceEffect

/-- An operation begins. -/
def Begins (effect : ServiceEffect) : Prop := ∃ install, effect = .prepares install

/-- A job is started. -/
def Starts (effect : ServiceEffect) : Prop := ∃ job release, effect = .startsJob job release

/-- What a callback does is right beside what was done before. -/
def Right (safeInteger : String → Option Int) (before : List ServiceEffect) : ServiceEffect → Prop
  | .emitted state => state.Right safeInteger
  | .startsJob job release =>
    Since (· = .reported ⟨job, release⟩) Begins before ∧
      Since Begins (fun effect => effect.Begins ∨ effect = .aborts) before
  | .restarts =>
    Since (· = .acknowledged) (fun effect => effect.Begins ∨ effect.Starts) before ∧
      Since Starts Begins before
  | _ => True

end ServiceEffect

open ServiceEffect

namespace UpdateService

section

variable (safeInteger : String → Option Int) (s : UpdateService)

/-- The service takes an event in the first run of an operation. -/
def Takes (checked : Bool) (event : NativeUpdateEvent) : Prop :=
  (event.event = "checked" ∧ ∃ release ∈ (s.checkedRelease safeInteger event).toOption,
    (Publish.compareVersions release.version s.state.currentVersion).toOption.isSome) ∨
  (event.event = "progress" ∧ (s.progress checked event).isSome) ∨
  (event.event = "ready" ∧ (readyJob checked event).isSome)

/-- A step does not go wrong. -/
def Steady (input : UpdateInput) : Prop :=
  match input, s.operation with
  | .event event _, some (.preparing _ checked _) => s.state.Stale →
    (event.event = "progress" → s.progress checked event = none) ∧
      (s.aborted → s.Takes safeInteger checked event)
  | .ran ended, some (.preparing _ checked _) =>
    s.state.Stale → s.aborted → ended = .done ∧ checked
  | .flushed .done, some (.flushing job) => s.aborted = false → job.release = s.state.release
  | _, _ => True

end

variable {safeInteger : String → Option Int} {s s' : UpdateService} {os more : List ServiceEffect}
  {state : UpdateState} {operation : ServiceOperation} {input : UpdateInput}

/-- What was done since an operation began fits where it is. -/
def Fits (os : List ServiceEffect) (state : UpdateState) : ServiceOperation → Prop
  | .preparing _ checked job => (checked → state.status = .current ∨ state.status.Offers) ∧
    ∀ job', job = some job' → Since (· = .reported job') Begins os
  | .waiting job => state.status = .waiting ∧ Since (· = .reported job) Begins os
  | .flushing job => state.status = .installing ∧ Since (· = .reported job) Begins os
  | .starting started => state.status = .installing ∧ Since Starts Begins os ∧
    (started → Since (· = .acknowledged) (fun effect => effect.Begins ∨ effect.Starts) os)
  | .restarting => state.status = .installing

/-- What the service keeps. -/
structure Holds (safeInteger : String → Option Int) (os : List ServiceEffect) (s : UpdateService) :
    Prop where
  signed : ∀ release, s.state.release = some release → release.signing = "signed" ∧
    ∃ value, Publish.parseRelease safeInteger value = .ok release
  offered : s.state.status.Offers → ¬ s.state.Stale ∧ s.state.release.isSome
  fits : ∀ operation, s.operation = some operation → Fits os s.state operation
  live : ∀ operation, s.operation = some operation → s.aborted = false →
    Since Begins (fun effect => effect.Begins ∨ effect = .aborts) os

/-- A callback keeps what the service keeps, and what it does is right. -/
def Keeps (safeInteger : String → Option Int) (os : List ServiceEffect) (step : ServiceStep) : Prop :=
  Holds safeInteger (os ++ step.2) step.1 ∧
    Always (fun before => Right safeInteger (os ++ before)) step.2

theorem Holds.right (h : Holds safeInteger os s) : s.state.Right safeInteger := by
  intro hoffers
  obtain ⟨hnotStale, hsome⟩ := h.offered hoffers
  obtain ⟨release, hrelease⟩ := Option.isSome_iff_exists.mp hsome
  refine ⟨release, hrelease, ?_, h.signed release hrelease⟩
  by_contra hnot
  exact hnotStale ⟨release, hrelease, hnot⟩

/-- Nothing was done. -/
theorem Holds.keeps (h : Holds safeInteger os s) : Keeps safeInteger os (s, []) := by
  refine ⟨?_, always_nil⟩
  rw [List.append_nil]
  exact h

theorem Fits.append (h : Fits os state operation) (hmore : ∀ o ∈ more, ¬ o.Begins ∧ ¬ o.Starts) :
    Fits (os ++ more) state operation := by
  have hbegins : ∀ o ∈ more, ¬ o.Begins := fun o ho => (hmore o ho).1
  cases operation with
  | preparing install checked job => exact ⟨h.1, fun job' hjob => (h.2 job' hjob).append hbegins⟩
  | waiting job => exact ⟨h.1, h.2.append hbegins⟩
  | flushing job => exact ⟨h.1, h.2.append hbegins⟩
  | starting started =>
    refine ⟨h.1, h.2.1.append hbegins, fun hstarted => (h.2.2 hstarted).append ?_⟩
    rintro o ho (hbegin | hstart)
    · exact hbegins o ho hbegin
    · exact (hmore o ho).2 hstart
  | restarting => exact h

theorem Fits.congr {state' : UpdateState} (h : Fits os state operation)
    (hstatus : state'.status = state.status) : Fits os state' operation := by
  cases operation with
  | preparing | waiting | flushing | starting | restarting =>
    simp only [Fits, hstatus] at h ⊢
    exact h

/-- An effect that neither begins anything nor ends it. -/
def Plain (effect : ServiceEffect) : Prop := ¬ effect.Begins ∧ ¬ effect.Starts ∧ effect ≠ .aborts

theorem Holds.append (h : Holds safeInteger os s) (hmore : ∀ o ∈ more, Plain o) :
    Holds safeInteger (os ++ more) s where
  signed := h.signed
  offered := h.offered
  fits operation hoperation :=
    (h.fits operation hoperation).append fun o ho => ⟨(hmore o ho).1, (hmore o ho).2.1⟩
  live operation hoperation haborted := by
    refine (h.live operation hoperation haborted).append ?_
    rintro o ho (hbegin | habort)
    · exact (hmore o ho).1 hbegin
    · exact (hmore o ho).2.2 habort

theorem plain_emitted (state : UpdateState) : ∀ o ∈ [ServiceEffect.emitted state], Plain o := by
  intro o ho
  obtain rfl := List.mem_singleton.mp ho
  exact ⟨by rintro ⟨_, ⟨⟩⟩, by rintro ⟨_, _, ⟨⟩⟩, nofun⟩

/-! ## What the parts of a callback keep -/

/-- One part of a callback behind another. -/
theorem Keeps.trans {step step' : ServiceStep} (h : Keeps safeInteger os step)
    (h' : Keeps safeInteger (os ++ step.2) step') :
    Keeps safeInteger os (step'.1, step.2 ++ step'.2) := by
  refine ⟨?_, always_append.mpr ⟨h.2, ?_⟩⟩
  · rw [← List.append_assoc]
    exact h'.1
  · refine h'.2.mono fun before o _ hright => ?_
    rw [← List.append_assoc]
    exact hright

/-- An operation is over. -/
theorem Keeps.settle {step : ServiceStep} (h : Keeps safeInteger os step) :
    Keeps safeInteger os (step.1.settle, step.2) :=
  ⟨⟨h.1.signed, h.1.offered, nofun, nofun⟩, h.2⟩

/-- A state is set. -/
theorem keeps_set (h : Holds safeInteger os { s with state }) : Keeps safeInteger os (s.set state) := by
  have hset : Holds safeInteger os
      { s with state := { state with revision := s.state.revision + 1 } } :=
    ⟨h.signed, h.offered, fun operation hoperation => (h.fits operation hoperation).congr rfl, h.live⟩
  refine ⟨hset.append (plain_emitted _), ?_⟩
  rw [set, always_cons]
  exact ⟨hset.right, always_nil⟩

/-- The controller is aborted. -/
theorem Holds.abort (h : Holds safeInteger os s) (disposed : Bool) :
    Keeps safeInteger os ({ s with disposed, aborted := true }, [.aborts]) := by
  refine ⟨⟨h.signed, h.offered, fun operation hoperation => ?_, fun _ _ => nofun⟩, ?_⟩
  · refine (h.fits operation hoperation).append fun o ho => ?_
    obtain rfl := List.mem_singleton.mp ho
    exact ⟨by rintro ⟨_, ⟨⟩⟩, by rintro ⟨_, _, ⟨⟩⟩⟩
  · rw [always_cons]
    exact ⟨trivial, always_nil⟩

theorem Holds.cancel (h : Holds safeInteger os s) : Keeps safeInteger os s.cancel := by
  unfold UpdateService.cancel
  split
  · exact h.keeps
  · exact h.abort s.disposed

theorem Holds.continueWithout (h : Holds safeInteger os s) :
    Keeps safeInteger os s.continueWithout := by
  unfold UpdateService.continueWithout
  split
  · exact h.keeps
  · have hcancel := h.cancel
    refine hcancel.trans (keeps_set ?_)
    exact ⟨hcancel.1.signed, hcancel.1.offered,
      fun operation hoperation => (hcancel.1.fits operation hoperation).congr rfl, hcancel.1.live⟩

theorem Holds.perform (h : Holds safeInteger os s) (install : Bool) :
    Keeps safeInteger os (s.perform install) := by
  unfold UpdateService.perform
  split
  · exact h.keeps
  · refine ⟨⟨h.signed, nofun, ?_, ?_⟩, ?_⟩
    · rintro operation ⟨⟩
      exact ⟨nofun, nofun⟩
    · rintro operation ⟨⟩ -
      rw [← List.append_assoc]
      exact since_snoc.mpr (.inl ⟨install, rfl⟩)
    · refine always_append.mpr ⟨?_, ?_⟩
      · refine always_cons.mpr ⟨?_, always_nil⟩
        rintro ⟨⟩
      · exact always_cons.mpr ⟨trivial, always_nil⟩

/-- An operation that was cancelled fails only while the state has no release that is not newer. -/
theorem Holds.fail (h : Holds safeInteger os s) (hsteady : s.aborted → ¬ s.state.Stale)
    (message : Option String) : Keeps safeInteger os (s.fail message) := by
  have hset (state : UpdateState) (hrelease : state.release = s.state.release)
      (hoffered : state.status.Offers → ¬ state.Stale ∧ state.release.isSome) :
      Keeps safeInteger os ({ s with operation := none }.set state) :=
    keeps_set ⟨hrelease ▸ h.signed, hoffered, nofun, nofun⟩
  refine (hset _ ?_ ?_).settle
  · split <;> rfl
  · split
    · next haborted =>
      dsimp only
      split
      · next hsome => exact fun _ => ⟨hsteady haborted, hsome⟩
      · exact nofun
    · exact nofun

/-- An operation goes on, and does something. -/
theorem Holds.goes (h : Holds safeInteger os s) (hoperation : s.operation = some operation)
    (operation' : ServiceOperation) (effect : ServiceEffect)
    (hplain : ¬ (effect.Begins ∨ effect = .aborts)) (hright : Right safeInteger os effect)
    (hfits : Fits (os ++ [effect]) s.state operation') :
    Keeps safeInteger os ({ s with operation := some operation' }, [effect]) := by
  refine ⟨⟨h.signed, h.offered, ?_, fun _ _ haborted => ?_⟩, always_cons.mpr ⟨?_, always_nil⟩⟩
  · rintro operation ⟨⟩
    exact hfits
  · refine (h.live operation hoperation haborted).append fun o ho => ?_
    obtain rfl := List.mem_singleton.mp ho
    exact hplain
  · rw [List.append_nil]
    exact hright

/-! ## What an operation keeps -/

section Operation

variable {install checked : Bool} {job : Option ReportedJob} {event : NativeUpdateEvent} {now : Nat}

theorem checkedRelease_ok {release : Release}
    (h : s.checkedRelease safeInteger event = .ok release) :
    release.signing = "signed" ∧ ∃ value, Publish.parseRelease safeInteger value = .ok release := by
  unfold checkedRelease at h
  split at h
  · cases h
  · next parsed hparsed =>
    split at h
    · cases h
    · next hsigned =>
      cases h
      exact ⟨not_not.mp (not_or.mp hsigned).1, event.release, hparsed⟩

theorem progress_release {download : UpdateDownload} (h : s.progress checked event = some download) :
    s.state.release.isSome := by
  unfold progress at h
  obtain ⟨release, hrelease, -⟩ := Option.bind_eq_some_iff.mp h
  rw [hrelease]
  rfl

theorem Holds.receive (h : Holds safeInteger os s)
    (hoperation : s.operation = some (.preparing install checked job))
    (hsteady : s.Steady safeInteger (.event event now)) :
    Keeps safeInteger os (s.receive safeInteger install checked job event now) := by
  simp only [Steady, hoperation] at hsteady
  have hfits := h.fits _ hoperation
  -- an event that is refused comes only while the operation may fail
  have hrefused (hnot : ¬ s.Takes safeInteger checked event) (message : Option String) :
      Keeps safeInteger os (s.fail message) :=
    h.fail (fun haborted hstale => hnot ((hsteady hstale).2 haborted)) message
  unfold UpdateService.receive
  split
  · next hevent =>
    split
    · next message hmessage =>
      refine hrefused ?_ _
      simp [Takes, hevent, hmessage, Except.toOption]
    · next release hrelease =>
      split
      · next message hmessage =>
        refine hrefused ?_ _
        simp [Takes, hevent, hrelease, hmessage, Except.toOption]
      · next sign hsign =>
        refine keeps_set ⟨?_, ?_, ?_, fun _ _ => h.live _ hoperation⟩
        · rintro release' ⟨⟩
          exact checkedRelease_ok hrelease
        · dsimp only
          split
          · next hpos =>
            refine fun _ => ⟨?_, rfl⟩
            rintro ⟨release', ⟨⟩, hnot⟩
            exact hnot ⟨sign, hsign, hpos⟩
          · exact nofun
        · rintro operation ⟨⟩
          refine ⟨fun _ => ?_, hfits.2⟩
          dsimp only
          split
          · exact .inr trivial
          · exact .inl rfl
  · split
    · next hchecked hevent =>
      split
      · next hnone =>
        refine hrefused ?_ _
        simp [Takes, hevent, hnone]
      · next download hdownload =>
        refine keeps_set ⟨h.signed, fun _ => ⟨fun hstale => ?_, progress_release hdownload⟩,
          fun operation hsame => ?_, fun _ _ => h.live _ hoperation⟩
        · cases ((hsteady hstale).1 hevent).symm.trans hdownload
        · cases hoperation.symm.trans hsame
          exact ⟨fun _ => .inr trivial, hfits.2⟩
    · split
      · next hevent =>
        split
        · next hnone =>
          refine hrefused ?_ _
          simp [Takes, hevent, hnone]
        · next id _ =>
          refine h.goes hoperation _ _ (by simp [Begins]) trivial ⟨hfits.1, ?_⟩
          rintro job' ⟨⟩
          exact since_snoc.mpr (.inl rfl)
      · next hchecked hprogress hready =>
        refine hrefused ?_ _
        simp [Takes, hchecked, hprogress, hready]

theorem Holds.prepared (h : Holds safeInteger os s)
    (hoperation : s.operation = some (.preparing install checked job))
    (hsteady : s.state.Stale → s.aborted → checked) :
    Keeps safeInteger os (s.prepared install checked job) := by
  have hfits := h.fits _ hoperation
  unfold UpdateService.prepared
  split
  · next hchecked =>
    refine h.fail (fun haborted hstale => ?_) _
    cases hchecked.symm.trans (hsteady hstale haborted)
  · next hchecked =>
    split
    · exact h.continueWithout.settle
    · split
      · exact h.keeps.settle
      · next hgoes =>
        obtain ⟨-, hnotCurrent⟩ := not_or.mp hgoes
        have hoffers := (hfits.1 (by simpa using hchecked)).resolve_left hnotCurrent
        obtain ⟨hnotStale, hsome⟩ := h.offered hoffers
        split
        · exact h.fail (fun _ => hnotStale) _
        · next job =>
          refine keeps_set ⟨h.signed, fun _ => ⟨hnotStale, hsome⟩, ?_, fun _ _ => h.live _ hoperation⟩
          rintro operation ⟨⟩
          exact ⟨rfl, hfits.2 job rfl⟩

end Operation

/-- An operation that goes on keeps what the service keeps. -/
theorem Holds.goOn (h : Holds safeInteger os s) (hoperation : s.operation = some operation)
    (hsteady : s.Steady safeInteger input) :
    Keeps safeInteger os (s.goOn safeInteger operation input) := by
  have hfits := h.fits operation hoperation
  have hlive := h.live operation hoperation
  have hnotStale (hoffers : s.state.status.Offers) (message : Option String) :
      Keeps safeInteger os (s.fail message) :=
    h.fail (fun _ => (h.offered hoffers).1) message
  unfold UpdateService.goOn
  split
  · exact h.receive hoperation hsteady
  · next started =>
    obtain ⟨hstatus, hstarts, -⟩ := hfits
    split
    · refine h.goes hoperation _ _ (by simp [Begins]) trivial ⟨hstatus, ?_, fun _ => ?_⟩
      · exact hstarts.append (by simp [Begins])
      · exact since_snoc.mpr (.inl rfl)
    · exact hnotStale (by rw [hstatus]; trivial) _
  · simp only [Steady, hoperation] at hsteady
    exact h.fail (fun haborted hstale => by cases (hsteady hstale haborted).1) _
  · exact hnotStale (by rw [hfits.1]; trivial) _
  · simp only [Steady, hoperation] at hsteady
    exact h.prepared hoperation (fun hstale haborted => (hsteady hstale haborted).2)
  · next started =>
    obtain ⟨hstatus, hstarts, hacknowledged⟩ := hfits
    have hoffers : s.state.status.Offers := by rw [hstatus]; trivial
    split
    · next hstarted =>
      have hset : Keeps safeInteger os ({ s with operation := some .restarting }.set
          { s.state with status := .installing }) := by
        refine keeps_set ⟨h.signed, fun _ => h.offered hoffers, ?_, fun _ _ => hlive⟩
        rintro operation ⟨⟩
        rfl
      refine hset.trans (hset.1.goes rfl .restarting .restarts (by simp [Begins]) ⟨?_, ?_⟩ rfl)
      · refine (hacknowledged hstarted).append fun o ho => ?_
        obtain rfl := List.mem_singleton.mp ho
        rintro (⟨_, ⟨⟩⟩ | ⟨_, _, ⟨⟩⟩)
      · refine hstarts.append fun o ho => ?_
        exact (plain_emitted _ o ho).1
    · exact hnotStale hoffers _
  · next canRestart job =>
    obtain ⟨hstatus, hreported⟩ := hfits
    have hoffers : s.state.status.Offers := by rw [hstatus]; trivial
    split
    · exact hnotStale hoffers _
    · split
      · refine keeps_set ⟨h.signed, fun _ => h.offered hoffers, ?_, fun _ _ => hlive⟩
        rintro operation ⟨⟩
        exact ⟨rfl, hreported⟩
      · exact h.keeps
  · exact hnotStale (by rw [hfits.1]; trivial) _
  · next job =>
    obtain ⟨hstatus, hreported⟩ := hfits
    split
    · exact hnotStale (by rw [hstatus]; trivial) _
    · next haborted =>
      have haborted : s.aborted = false := by simpa using haborted
      simp only [Steady, hoperation] at hsteady
      refine h.goes hoperation _ _ (by simp [Begins]) ⟨?_, hlive haborted⟩
        ⟨hstatus, since_snoc.mpr (.inl ⟨_, _, rfl⟩), nofun⟩
      rw [← hsteady haborted]
      exact hreported
  · exact hnotStale (by rw [show s.state.status = .installing from hfits]; trivial) _
  · exact h.keeps.settle
  · exact h.keeps

/-- **Every callback keeps what the service keeps**, where it does not go wrong. -/
theorem Holds.step (h : Holds safeInteger os s) (hsteady : s.Steady safeInteger input) :
    Keeps safeInteger os (s.step safeInteger input) := by
  cases input with
  | start =>
    have hnext : Holds safeInteger os { s with timer := true } :=
      ⟨h.signed, h.offered, h.fits, h.live⟩
    dsimp only [UpdateService.step]
    split
    · exact h.keeps
    · split
      · exact hnext.keeps
      · exact hnext.perform false
  | tick =>
    dsimp only [UpdateService.step]
    split
    · exact h.perform false
    · exact h.keeps
  | ready =>
    have hnext : Holds safeInteger os { s with firstLaunchStarted := true } :=
      ⟨h.signed, h.offered, h.fits, h.live⟩
    dsimp only [UpdateService.step]
    split
    · exact h.keeps
    · obtain ⟨hkept, hright⟩ := hnext.perform false
      exact ⟨⟨hkept.signed, hkept.offered, hkept.fits, hkept.live⟩, hright⟩
  | readied =>
    have hnext : Holds safeInteger os { s with readying := none } :=
      ⟨h.signed, h.offered, h.fits, h.live⟩
    dsimp only [UpdateService.step]
    split
    · split
      · exact hnext.keeps
      · split
        · exact hnext.continueWithout
        · split
          · exact hnext.perform true
          · exact hnext.keeps
    · exact h.keeps
  | continueWithout => exact h.continueWithout
  | dispose => exact h.abort true
  | cancel => exact h.cancel
  | check => exact h.perform false
  | install => exact h.perform true
  | event | ran | poll | flushed | restarted =>
    dsimp only [UpdateService.step]
    split
    · exact h.keeps
    · next operation hoperation => exact h.goOn hoperation hsteady

theorem holds_initial (identity : UpdateIdentity) (firstLaunch : Bool) :
    Holds safeInteger [] (initial identity firstLaunch) where
  signed := nofun
  offered := by
    unfold initial
    dsimp only
    split <;> exact nofun
  fits := nofun
  live := nofun

end UpdateService

/-! ## Whole runs -/

/-- **An update that is offered is newer.** In a run of which no step goes wrong, the release is a
signed one that is newer than the installed version wherever it is offered or installed, a job is
started only of the operation that it was reported in, for its release, and not behind a
cancellation, and the app restarts only behind an installer that acknowledged its job. -/
theorem updates_are_newer (safeInteger : String → Option Int) (identity : UpdateIdentity)
    (firstLaunch : Bool) (inputs : List UpdateInput)
    (h : (updateMachine safeInteger).Meets (fun s input => s.Steady safeInteger input)
      (UpdateService.initial identity firstLaunch) inputs) :
    let run := (updateMachine safeInteger).run (UpdateService.initial identity firstLaunch) inputs
    run.1.state.Right safeInteger ∧ Always (ServiceEffect.Right safeInteger) run.2 := by
  have hrun := (updateMachine safeInteger).run_induction
    (motive := fun _ os s => UpdateService.Holds safeInteger os s ∧
      Always (ServiceEffect.Right safeInteger) os)
    ⟨UpdateService.holds_initial identity firstLaunch, always_nil⟩
    (fun is os s input hos hsteady => by
      obtain ⟨hholds, hright⟩ := hos.1.step hsteady
      exact ⟨hholds, always_append.mpr ⟨hos.2, hright⟩⟩) inputs h
  exact ⟨hrun.1.right, hrun.2⟩

/-- A check that is cancelled, and an installation that is. -/
theorem updates_are_newer_cancelled :
    let identity : UpdateIdentity := ⟨"1.0.0", some "win", some "x64", some "exe", true⟩
    let inputs : List UpdateInput := [.start, .cancel, .ran (.failed none), .install, .dispose,
      .ran (.failed none)]
    let run := (updateMachine fun _ => none).run (UpdateService.initial identity false) inputs
    run.1.state.Right (fun _ => none) ∧ Always (ServiceEffect.Right fun _ => none) run.2 :=
  updates_are_newer (fun _ => none) ⟨"1.0.0", some "win", some "x64", some "exe", true⟩ false _ (by
    refine ⟨trivial, trivial, ?_, trivial, trivial, ?_, trivial⟩ <;>
    · rintro ⟨release, hrelease, -⟩
      cases hrelease)

/-- A release of one installer. -/
def oneInstaller : Json :=
  .obj [("schemaVersion", .num "2"), ("version", .str "1.0.0"),
    ("revision", .str (String.ofList (List.replicate 40 'a'))), ("sequence", .num "1"),
    ("signing", .str "signed"),
    ("downloads", .arr [.obj [("name", .str "A-1.0.0-x64.exe"), ("product", .str "desktop"),
      ("platform", .str "win"), ("arch", .str "x64"), ("format", .str "exe"), ("bytes", .num "1"),
      ("sha256", .str (String.ofList (List.replicate 64 'a'))),
      ("url", .str (Manifest.placeOf Manifest.CDN_DOWNLOADS "1.0.0" "A-1.0.0-x64.exe")),
      ("githubUrl", .str (Manifest.placeOf Manifest.RELEASE_DOWNLOADS "1.0.0" "A-1.0.0-x64.exe"))]]),
    ("cliDownloads", .arr []),
    ("signature", .obj [("keyId", .str (String.ofList (List.replicate 16 '0'))),
      ("value", .str (String.ofList (List.replicate 86 'A' ++ ['=', '='])))])]

set_option maxRecDepth 20000 in
/-- A check that is cancelled offers the version that is installed, where an earlier check
found it. -/
theorem installed_version_offered : ¬ ∀ safeInteger identity firstLaunch inputs,
    ((updateMachine safeInteger).run (UpdateService.initial identity firstLaunch) inputs).1.state.Right
      safeInteger := by
  intro h
  let safeInteger : String → Option Int := fun literal => (Text.digits? literal.toList).map Int.ofNat
  let identity : UpdateIdentity := ⟨"1.0.0", some "win", some "x64", some "exe", true⟩
  let inputs : List UpdateInput := [.check,
    .event { event := "checked", release := oneInstaller, installation := some ("desktop", "exe") } 0,
    .ran .done, .check, .cancel, .ran (.failed none)]
  have hoffered : ∃ state, state =
      ((updateMachine safeInteger).run (UpdateService.initial identity false) inputs).1.state ∧
      state.status = .available ∧ state.Stale := ⟨_, rfl, by decide +kernel⟩
  obtain ⟨state, hstate, hstatus, release, hrelease, hnot⟩ := hoffered
  have hright := h safeInteger identity false inputs
  rw [← hstate] at hright
  obtain ⟨release', hrelease', hnewer, -⟩ := hright (by rw [hstatus]; trivial)
  cases hrelease.symm.trans hrelease'
  exact hnot hnewer

end AxiomDesktop
