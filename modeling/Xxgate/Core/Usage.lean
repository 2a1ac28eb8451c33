import Mathlib.Algebra.Ring.Rat
import Xxgate.Core.Types

/-!
# Usage and pricing

`crates/xxgate-core/src/usage.rs` and `pricing.rs`. A decimal is the rational it stands
for, so products and quotients are exact; each line is rounded to eight places.
-/

namespace Xxgate.Core

/-- `usage.rs:4`. -/
structure Usage where
  searchCalls : Nat := 0
  inputTokens : Option Nat := none
  cachedInputTokens : Option Nat := none
  outputTokens : Option Nat := none
  reasoningOutputTokens : Option Nat := none
  imageInputTokens : Option Nat := none
  imageOutputTokens : Option Nat := none
  imageCount : Nat := 0
  imageToolUsageReported : Bool := false
  serviceTier : Option String := none
  source : String := ""
  complete : Bool := false
  deriving DecidableEq

/-- `pricing.rs:6`. -/
structure Rates where
  inputPerMillion : Rat
  cachedInputPerMillion : Rat
  outputPerMillion : Rat
  imageInputPerMillion : Option Rat
  imageOutputPerMillion : Option Rat
  perImage : Option Rat
  deriving DecidableEq

/-- `pricing.rs:16`. -/
def Rates.multiplied (rates : Rates) (factor : Rat) : Rates where
  inputPerMillion := rates.inputPerMillion * factor
  cachedInputPerMillion := rates.cachedInputPerMillion * factor
  outputPerMillion := rates.outputPerMillion * factor
  imageInputPerMillion := rates.imageInputPerMillion.map (· * factor)
  imageOutputPerMillion := rates.imageOutputPerMillion.map (· * factor)
  perImage := rates.perImage.map (· * factor)

/-- `pricing.rs:59`. -/
structure Price where
  version : Int
  model : ModelRef
  standard : Rates
  fastMultiplier : Option Rat
  deriving DecidableEq

/-- `pricing.rs:97`. -/
structure SearchPrice where
  version : Int
  perCall : Option Rat
  deriving DecidableEq

/-- The texts of `Valuation::status`. -/
inductive ValuationStatus where
  | notExecuted
  | notCharged
  | unpricedSearch
  | priced
  | usageUnknown
  | invalidUsage
  | unpriced
  | tierUnknown
  | unpricedFast
  | cacheUsageUnknown
  | imageUnpriced
  | partialUsage
  deriving DecidableEq, Repr

/-- The texts of `PriceLine::kind`. -/
inductive LineKind where
  | input
  | cachedInput
  | output
  | image
  | imageInput
  | imageOutput
  | search
  deriving DecidableEq, Repr

/-- `pricing.rs:88`. -/
structure PriceLine where
  kind : LineKind
  quantity : Nat
  rate : Rat
  cny : Rat
  deriving DecidableEq

/-- `pricing.rs:80`. -/
structure Valuation where
  status : ValuationStatus
  priceVersion : Option Int
  cny : Option Rat
  items : List PriceLine
  deriving DecidableEq

/-- `Decimal::round_dp(8)`, with ties to even. -/
def roundDp (value : Rat) : Rat :=
  let scaled := value * 100000000
  let low := scaled.floor
  let rest := scaled - low
  let rounded := if rest < 1 / 2 ∨ (rest = 1 / 2 ∧ low % 2 = 0) then low else low + 1
  rounded / 100000000

/-- `pricing.rs:116`; a search price keeps no version in the valuation. -/
def valueSearch (calls : Nat) (price : Option SearchPrice) : Valuation :=
  if calls = 0 then ⟨.notCharged, none, some 0, []⟩
  else
    match price.bind (·.perCall) with
    | none => ⟨.unpricedSearch, none, none, []⟩
    | some rate =>
      let cny := roundDp (calls * rate)
      ⟨.priced, none, some cny, [⟨.search, calls, rate, cny⟩]⟩

/-- `pricing.rs:154–179`: the text tokens in and out. Standalone images report subsets
within the totals. -/
def billable (usage : Usage) : Except ValuationStatus (Nat × Nat) :=
  match usage.inputTokens, usage.outputTokens with
  | some input, some output =>
    if usage.source = "images_response" then
      match usage.imageInputTokens, usage.imageOutputTokens with
      | some imageInput, some imageOutput =>
        if imageInput ≤ input ∧ imageOutput ≤ output then
          .ok (input - imageInput, output - imageOutput)
        else .error .invalidUsage
      | _, _ => .error .usageUnknown
    else .ok (input, output)
  | _, _ => .error .usageUnknown

/-- `matches!(tier, Some("fast" | "priority"))`. -/
def isFast (tier : Option String) : Bool := tier == some "fast" || tier == some "priority"

/-- `pricing.rs:183–201`: the rates of the tier the usage was served at. -/
def tierRates (usage : Usage) (requestedTier : Option String) (price : Price) :
    Except ValuationStatus Rates :=
  if usage.serviceTier.isNone && isFast requestedTier then .error .tierUnknown
  else if isFast usage.serviceTier then
    match price.fastMultiplier.filter fun v ↦ decide (0 < v) && decide (v ≤ 100) with
    | none => .error .unpricedFast
    | some factor => .ok (price.standard.multiplied factor)
  else .ok price.standard

/-- `pricing.rs:202–209`: the cached part of the input, which may go unreported where it
makes no difference. -/
def cachedTokens (usage : Usage) (input : Nat) (rates : Rates) : Except ValuationStatus Nat :=
  match usage.cachedInputTokens with
  | some cached => .ok cached
  | none =>
    if input = 0 ∨ rates.inputPerMillion = rates.cachedInputPerMillion then .ok 0
    else .error .cacheUsageUnknown

/-- `pricing.rs:210`: the cached part, when the subsets fit in their totals. -/
def cachedInput (usage : Usage) (input output : Nat) (rates : Rates) :
    Except ValuationStatus Nat := do
  let cached ← cachedTokens usage input rates
  if input < cached ∨ usage.reasoningOutputTokens.any (output < ·) then .error .invalidUsage
  else .ok cached

/-- `pricing.rs:214`: one priced line. -/
def priceLine (kind : LineKind) (count : Nat) (rate : Rat) (perMillion : Bool) : PriceLine where
  kind := kind
  quantity := count
  rate := rate
  cny := roundDp (count * rate / if perMillion then 1000000 else 1)

/-- `pricing.rs:236–253`: one line of image tokens, or none when it cannot be priced. -/
def imageTokens (kind : LineKind) (count : Option Nat) (rate : Option Rat) :
    Option (List PriceLine) :=
  match count, rate with
  | some n, some rate => some [priceLine kind n rate true]
  | some 0, _ => some []
  | _, _ => none

/-- `pricing.rs:231–257`: the lines of the images, those that could be priced, and whether
that is all of them. -/
def imageLines (usage : Usage) (rates : Rates) : List PriceLine × Bool :=
  if usage.imageCount = 0 then ([], true)
  else
    match rates.perImage with
    | some rate => ([priceLine .image usage.imageCount rate false], true)
    | none =>
      if usage.imageToolUsageReported then
        let input := imageTokens .imageInput usage.imageInputTokens rates.imageInputPerMillion
        let output := imageTokens .imageOutput usage.imageOutputTokens rates.imageOutputPerMillion
        (input.getD [] ++ output.getD [], input.isSome && output.isSome)
      else ([], false)

/-- The lines of a usage and whether they are complete, or why it cannot be priced. -/
def pricedLines (usage : Usage) (requestedTier : Option String) (price : Option Price) :
    Except ValuationStatus (List PriceLine × Bool) := do
  let (input, output) ← billable usage
  let price ← price.elim (.error .unpriced) .ok
  let rates ← tierRates usage requestedTier price
  let cached ← cachedInput usage input output rates
  let (images, complete) := imageLines usage rates
  return ([priceLine .input (input - cached) rates.inputPerMillion true,
    priceLine .cachedInput cached rates.cachedInputPerMillion true,
    priceLine .output output rates.outputPerMillion true] ++ images, complete)

/-- `pricing.rs:143`. -/
def valueUsage (usage : Usage) (requestedTier : Option String) (price : Option Price) :
    Valuation :=
  let priceVersion := price.map (·.version)
  match pricedLines usage requestedTier price with
  | .error status => ⟨status, priceVersion, none, []⟩
  | .ok (items, imageComplete) =>
    { status :=
        if !imageComplete then .imageUnpriced
        else if usage.complete then .priced
        else .partialUsage
      priceVersion := priceVersion
      cny := if imageComplete then some (items.map (·.cny)).sum else none
      items := items }

/-! ### A valuation never claims that nothing was executed -/

/-- A search is charged, free or unpriced. -/
theorem valueSearch_executed (calls : Nat) (price : Option SearchPrice) :
    (valueSearch calls price).status ≠ .notExecuted := by
  unfold valueSearch
  split
  · simp
  · split
    · simp
    · simp

/-- What keeps a usage from being priced. -/
def pricingFailures : List ValuationStatus :=
  [.usageUnknown, .invalidUsage, .unpriced, .tierUnknown, .unpricedFast, .cacheUsageUnknown]

/-- A sequence fails with an error only if one of its steps does. -/
theorem bind_error {ε α β : Type} {x : Except ε α} {f : α → Except ε β} {p : ε → Prop}
    (hx : ∀ e, x = .error e → p e) (hf : ∀ a e, f a = .error e → p e) {e : ε}
    (h : x >>= f = .error e) : p e := by
  cases x with
  | error e' =>
    cases h
    exact hx e rfl
  | ok a => exact hf a e h

private theorem billable_error {usage : Usage} {s : ValuationStatus}
    (h : billable usage = .error s) : s ∈ pricingFailures := by
  unfold billable at h
  split at h
  · split at h
    · split at h
      · split at h <;> cases h
        decide
      · cases h
        decide
    · cases h
  · cases h
    decide

private theorem tierRates_error {usage : Usage} {requestedTier : Option String} {price : Price}
    {s : ValuationStatus} (h : tierRates usage requestedTier price = .error s) :
    s ∈ pricingFailures := by
  unfold tierRates at h
  split at h
  · cases h
    decide
  · split at h
    · split at h <;> cases h
      decide
    · cases h

private theorem cachedInput_error {usage : Usage} {input output : Nat} {rates : Rates}
    {s : ValuationStatus} (h : cachedInput usage input output rates = .error s) :
    s ∈ pricingFailures := by
  unfold cachedInput at h
  refine bind_error (p := (· ∈ pricingFailures)) (fun e he ↦ ?_) (fun cached e he ↦ ?_) h
  · unfold cachedTokens at he
    split at he
    · cases he
    · split at he <;> cases he
      decide
  · split at he <;> cases he
    decide

/-- Whatever keeps a usage from being priced, it is not that nothing was executed. -/
theorem pricedLines_error {usage : Usage} {requestedTier : Option String} {price : Option Price}
    {s : ValuationStatus} (h : pricedLines usage requestedTier price = .error s) :
    s ∈ pricingFailures := by
  unfold pricedLines at h
  refine bind_error (p := (· ∈ pricingFailures)) (fun _ ↦ billable_error) (fun tokens e h ↦ ?_) h
  refine bind_error (p := (· ∈ pricingFailures)) (fun e he ↦ ?_) (fun price e h ↦ ?_) h
  · cases price <;> cases he
    decide
  refine bind_error (p := (· ∈ pricingFailures)) (fun _ ↦ tierRates_error) (fun rates e h ↦ ?_) h
  refine bind_error (p := (· ∈ pricingFailures)) (fun _ ↦ cachedInput_error) (fun cached e h ↦ ?_) h
  cases h

/-- A usage is priced, partly priced or unpriced. -/
theorem valueUsage_executed (usage : Usage) (requestedTier : Option String)
    (price : Option Price) : (valueUsage usage requestedTier price).status ≠ .notExecuted := by
  unfold valueUsage
  split
  · next status h =>
    intro hs
    have hfailure := pricedLines_error h
    rw [show status = .notExecuted from hs] at hfailure
    exact absurd hfailure (by decide)
  · next items complete h =>
    cases complete
    · simp
    · cases usage.complete
      · simp
      · simp

end Xxgate.Core
