import AxiomDesktop.Release.ReadBack

/-!
# The accepted release

`acceptSequence` (`axiom_update_client::accept_sequence`) puts a release that verifies over the one
that was accepted last, where it is no older in its sequence and its version and not another one of
the same: where it is that release or a larger one in both (`Release.Follows`).
-/

namespace AxiomDesktop

open Manifest

/-- What releases are verified with. -/
structure UpdateConfig where
  crypto : UpdateCrypto
  /-- `AXIOM_UPDATE_PUBLIC_KEYS`. -/
  trustedKeys : String

/-- Where a call meets an I/O error. -/
inductive AcceptFault where
  /-- `create_dir_all`, or the file of the lock. -/
  | directory
  | lock
  | read
  /-- The pending file is written and synced. -/
  | pending
  | persist
  deriving DecidableEq, Repr

def failAt (fault : Option AcceptFault) (place : AcceptFault) : Except UpdateError Unit :=
  if fault = some place then .error .io else .ok ()

/-- What is asked of a release where another one was accepted. -/
def checkPrevious (release previous : Release) : Except UpdateError Unit :=
  if release.sequence < previous.sequence then .error (.text "Refusing an older update feed")
  else do
    let version ← versionParts release.version
    let previousVersion ← versionParts previous.version
    ensure (previousVersion ≤ version) "Refusing an older update feed"
    if release.sequence = previous.sequence ∨ release.version = previous.version then
      ensure (release.toJson = previous.toJson) "An immutable release changed"

/-- The release of `accepted.json`, where the file is there, is checked against. -/
def checkAccepted (config : UpdateConfig) (fault : Option AcceptFault) (release : Release) :
    Option (List UInt8) → Except UpdateError Unit
  | none => .ok ()
  | some bytes => do
    failAt fault .read
    let previous ← parseRelease bytes
    verifyRelease config.crypto previous config.trustedKeys
    checkPrevious release previous

/-- `accept_sequence`, under its lock: what `accepted.json` has after a call that succeeds. -/
def acceptSequence (config : UpdateConfig) (fault : Option AcceptFault) (release : Release)
    (accepted : Option (List UInt8)) : Except UpdateError (List UInt8) := do
  verifyRelease config.crypto release config.trustedKeys
  failAt fault .directory
  failAt fault .lock
  checkAccepted config fault release accepted
  failAt fault .pending
  failAt fault .persist
  return toVec release

/-! ## The order of releases -/

/-- The parts of a version, where it is one. -/
def versionOf (version : String) : Version :=
  match versionParts version with
  | .ok parts => parts
  | .error _ => toLex (0, toLex (0, 0))

def Release.parts (release : Release) : Version := versionOf release.version

/-- A release may follow another: it is that one, or larger in both orders. -/
def Release.Follows (release previous : Release) : Prop :=
  release = previous ∨
    (previous.sequence < release.sequence ∧ previous.parts < release.parts)

/-- A release is no older than another in either order, and is that one where it is equal in one. -/
structure Release.Ascends (release previous : Release) : Prop where
  sequence : previous.sequence ≤ release.sequence
  version : previous.parts ≤ release.parts
  immutable : release.sequence = previous.sequence ∨ release.version = previous.version →
    release = previous

/-- The signature of a release verifies. -/
def Release.Verified (config : UpdateConfig) (release : Release) : Prop :=
  verifyRelease config.crypto release config.trustedKeys = .ok ()

variable {config : UpdateConfig} {release previous : Release}

theorem Release.Follows.trans {older : Release} (h : release.Follows previous)
    (h' : previous.Follows older) : release.Follows older := by
  rcases h with rfl | ⟨hsequence, hparts⟩
  · exact h'
  · rcases h' with rfl | ⟨hsequence', hparts'⟩
    · exact .inr ⟨hsequence, hparts⟩
    · exact .inr ⟨hsequence'.trans hsequence, hparts'.trans hparts⟩

/-- **What may follow ascends.** -/
theorem Release.Follows.ascends (h : release.Follows previous) : release.Ascends previous := by
  rcases h with rfl | ⟨hsequence, hparts⟩
  · exact ⟨Nat.le_refl _, le_refl _, fun _ => rfl⟩
  · refine ⟨hsequence.le, hparts.le, ?_⟩
    rintro (hsame | hsame)
    · exact absurd hsame (Nat.ne_of_gt hsequence)
    · exact absurd (congrArg versionOf hsame) hparts.ne'

theorem Manifest.Valid.versionParts_eq (h : Valid release) :
    versionParts release.version = .ok release.parts := by
  obtain ⟨version, hversion⟩ := h.version
  rw [Release.parts, versionOf, hversion]

/-- A release is its JSON. -/
theorem Manifest.Valid.toJson_injective (h : Valid release) (h' : Valid previous)
    (heq : release.toJson = previous.toJson) : release = previous := by
  have hread := release_fromJson h.bounded
  rw [heq, release_fromJson h'.bounded] at hread
  exact (Option.some.inj hread).symm

/-- **A release passes beside another** exactly where it may follow it. -/
theorem checkPrevious_ok (h : Valid release) (h' : Valid previous) :
    checkPrevious release previous = .ok () ↔ release.Follows previous := by
  have hversion := h.versionParts_eq
  have hversion' := h'.versionParts_eq
  have hsame (hparts : release.parts = previous.parts) : release.version = previous.version :=
    versionParts_injective (hparts ▸ hversion) hversion'
  rw [checkPrevious, hversion, hversion']
  constructor
  · intro hpasses
    split at hpasses
    · cases hpasses
    · next hsequence =>
      obtain ⟨_, ⟨⟩, hpasses⟩ := Fallible.result_bind_ok hpasses
      obtain ⟨_, ⟨⟩, hpasses⟩ := Fallible.result_bind_ok hpasses
      obtain ⟨⟨⟩, hparts, hpasses⟩ := Fallible.result_bind_ok hpasses
      have hparts := ensure_ok.mp hparts
      split at hpasses
      · exact .inl (h.toJson_injective h' (ensure_ok.mp hpasses))
      · next hdiffer =>
        obtain ⟨hne, hne'⟩ := not_or.mp hdiffer
        exact .inr ⟨by omega, lt_of_le_of_ne hparts fun heq => hne' (hsame heq.symm)⟩
  · intro hfollows
    obtain ⟨hsequence, hparts, hequal⟩ := hfollows.ascends
    have hpasses : ensure (previous.parts ≤ release.parts) "Refusing an older update feed" =
        .ok () := ensure_ok.mpr hparts
    rw [if_neg (by omega)]
    refine Fallible.result_bind_eq_ok.mpr ⟨_, rfl, Fallible.result_bind_eq_ok.mpr ⟨_, rfl, ?_⟩⟩
    refine Fallible.result_bind_eq_ok.mpr ⟨(), hpasses, ?_⟩
    split
    · next heq => exact ensure_ok.mpr (congrArg Release.toJson (hequal heq))
    · rfl

/-! ## Calls -/

/-- What is accepted: a valid release that verifies, as it is written. -/
structure Accepted (config : UpdateConfig) (release : Release) (bytes : List UInt8) : Prop where
  valid : Valid release
  verified : release.Verified config
  bytes : bytes = toVec release

/-- **What a call that succeeds leaves**: its release, which verifies and may follow the
one before. -/
theorem acceptSequence_ok {fault : Option AcceptFault} {accepted : Option (List UInt8)}
    {bytes : List UInt8} (h : Valid release)
    (hok : acceptSequence config fault release accepted = .ok bytes) :
    Accepted config release bytes ∧
      ∀ previous bytes, accepted = some bytes → Accepted config previous bytes →
        release.Follows previous := by
  obtain ⟨⟨⟩, hverified, hok⟩ := Fallible.result_bind_ok hok
  obtain ⟨⟨⟩, -, hok⟩ := Fallible.result_bind_ok hok
  obtain ⟨⟨⟩, -, hok⟩ := Fallible.result_bind_ok hok
  obtain ⟨⟨⟩, hprevious, hok⟩ := Fallible.result_bind_ok hok
  obtain ⟨⟨⟩, -, hok⟩ := Fallible.result_bind_ok hok
  obtain ⟨⟨⟩, -, hok⟩ := Fallible.result_bind_ok hok
  refine ⟨⟨h, hverified, (Except.ok.inj hok).symm⟩, ?_⟩
  rintro previous bytes rfl ⟨hvalid, -, rfl⟩
  obtain ⟨⟨⟩, -, hprevious⟩ := Fallible.result_bind_ok hprevious
  obtain ⟨read, hread, hprevious⟩ := Fallible.result_bind_ok hprevious
  obtain ⟨⟨⟩, -, hprevious⟩ := Fallible.result_bind_ok hprevious
  cases (parseRelease_toVec hvalid).symm.trans hread
  exact (checkPrevious_ok h hvalid).mp hprevious

/-- **A release that may follow is accepted**, where no I/O fails. -/
theorem acceptSequence_follows {accepted : Option (List UInt8)} (h : Valid release)
    (hverified : release.Verified config)
    (hprevious : ∀ bytes, accepted = some bytes → ∃ previous, Accepted config previous bytes ∧
      release.Follows previous) :
    acceptSequence config none release accepted = .ok (toVec release) := by
  have hfault (place : AcceptFault) : failAt none place = .ok () := rfl
  refine Fallible.result_bind_eq_ok.mpr ⟨(), hverified, ?_⟩
  refine Fallible.result_bind_eq_ok.mpr ⟨(), hfault _, ?_⟩
  refine Fallible.result_bind_eq_ok.mpr ⟨(), hfault _, ?_⟩
  refine Fallible.result_bind_eq_ok.mpr ⟨(), ?_, rfl⟩
  unfold checkAccepted
  cases accepted with
  | none => rfl
  | some bytes =>
    obtain ⟨previous, ⟨hvalid, hverified', rfl⟩, hfollows⟩ := hprevious bytes rfl
    refine Fallible.result_bind_eq_ok.mpr ⟨(), hfault _, ?_⟩
    refine Fallible.result_bind_eq_ok.mpr ⟨previous, parseRelease_toVec hvalid, ?_⟩
    refine Fallible.result_bind_eq_ok.mpr ⟨(), hverified', ?_⟩
    exact (checkPrevious_ok h hvalid).mpr hfollows

end AxiomDesktop
