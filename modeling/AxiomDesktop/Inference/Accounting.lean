import Mathlib.Algebra.Group.Nat.Defs

/-!
# Request accounting

`RequestUsage`, the operational record of one request to a provider, and the check on its decimal
counters (`validate_counters`). A counter is a decimal string, so that it stays exact on disk and
over the wire.
-/

namespace AxiomDesktop

inductive UsageCompleteness where
  | unknown
  | live
  | final
  | partialUsage
  deriving DecidableEq, Repr, Inhabited

inductive InvocationState where
  | running
  | completed
  | failed
  | cancelled
  deriving DecidableEq, Repr, Inhabited

inductive InvocationPurpose where
  | conversation
  | title
  | compaction
  deriving DecidableEq, Repr, Inhabited

/-- The accounting record of one request. A settled charge does not imply a verified response. -/
structure RequestUsage where
  requestId : String
  modelId : String
  providerId : String
  contextWindowTokens : Option Nat := none
  autoCompactThresholdTokens : Option Nat := none
  turnId : Option String := none
  purpose : InvocationPurpose := .conversation
  state : InvocationState := .running
  completeness : UsageCompleteness := .unknown
  inputTokens : Option String := none
  cachedInputTokens : Option String := none
  outputTokens : Option String := none
  reasoningTokens : Option String := none
  imagePixels : Option String := none
  imageSteps : Option String := none
  inputImagePixels : Option String := none
  costMicrousd : Option String := none
  settled : Bool := false
  responseVerified : Bool := false
  startedAtMs : String := ""
  finishedAtMs : Option String := none
  errorCode : Option String := none
  finishReason : Option String := none
  deriving DecidableEq, Repr, Inhabited

namespace RequestUsage

/-- `str::parse::<u64>` of a string of ASCII digits. -/
def parseU64 (digits : List Char) : Option Nat :=
  let n := digits.foldl (fun n c => n * 10 + (c.toNat - 48)) 0
  if n < 2 ^ 64 then some n else none

/-- The `parse` closure of `validate_counters`: an absent counter is fine, a present one has to be
a decimal string of at most twenty digits that fits 64 bits. -/
def parseCounter : Option String → Option (Option Nat)
  | none => some none
  | some s =>
    if !s.isEmpty && s.utf8ByteSize ≤ 20 && s.toList.all Char.isDigit then
      (parseU64 s.toList).map some
    else none

/-- `left > right`, where both are known. -/
def exceeds : Option Nat → Option Nat → Bool
  | some left, some right => left > right
  | _, _ => false

/-- `RequestUsage::validate_counters`. -/
def validateCounters (u : RequestUsage) : Bool :=
  match parseCounter u.inputTokens, parseCounter u.cachedInputTokens,
      parseCounter u.outputTokens, parseCounter u.reasoningTokens,
      parseCounter u.costMicrousd with
  | some input, some cached, some output, some reasoning, some _ =>
    (parseCounter u.imagePixels).isSome && (parseCounter u.imageSteps).isSome &&
      (parseCounter u.inputImagePixels).isSome && !exceeds cached input &&
      !exceeds reasoning output
  | _, _, _, _, _ => false

end RequestUsage

end AxiomDesktop
