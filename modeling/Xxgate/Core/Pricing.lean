import Mathlib.Algebra.Order.BigOperators.Group.List
import Mathlib.Algebra.Order.Field.Rat
import Mathlib.Data.Rat.Floor
import Mathlib.Tactic.Linarith
import Mathlib.Tactic.NormNum
import Mathlib.Tactic.Positivity
import Xxgate.Base.Fallible
import Xxgate.Core.Usage

/-!
# What a valuation bills

`crates/xxgate-core/src/pricing.rs:27–77` and `:143–270`: the checks of a price, and that
`value_usage` bills every token at most once, at the rate of its tier, in amounts that a
96-bit mantissa holds.
-/

namespace Xxgate.Core

open Xxgate.Base Fallible

/-! ### Prices -/

/-- The rates that are set. -/
def Rates.values (rates : Rates) : List Rat :=
  [rates.inputPerMillion, rates.cachedInputPerMillion, rates.outputPerMillion] ++
    [rates.imageInputPerMillion, rates.imageOutputPerMillion, rates.perImage].filterMap id

/-- `pricing.rs:27`. -/
def Rates.validate (rates : Rates) : Result Unit :=
  if rates.values.any fun v ↦ v < 0 || 1000000 < v then
    .error (.invalid "Prices must be between 0 and 1000000 CNY")
  else if rates.perImage.isSome &&
      (rates.imageInputPerMillion.isSome || rates.imageOutputPerMillion.isSome) then
    .error (.invalid "Use image token rates or a per-image rate, not both")
  else .ok ()

/-- `pricing.rs:66`. -/
def Price.validate (price : Price) : Result Unit := do
  price.standard.validate
  if !price.fastMultiplier.any fun v ↦ (0 < v && v ≤ 100) then
    throw (.invalid "Fast 倍率必须大于 0 且不超过 100。")

/-- A valid price has rates and a fast factor in their bounds. -/
theorem Price.validate_ok {price : Price} (h : price.validate = .ok ()) :
    (∀ v ∈ price.standard.values, 0 ≤ v ∧ v ≤ 1000000) ∧
      ∃ factor, price.fastMultiplier = some factor ∧ 0 < factor ∧ factor ≤ 100 := by
  obtain ⟨u, hrates, h⟩ := bind_ok.mp h
  constructor
  · unfold Rates.validate at hrates
    split at hrates
    · cases hrates
    · next hbounds =>
      intro v hv
      rw [Bool.not_eq_true, List.any_eq_false] at hbounds
      have hv := hbounds v hv
      simp only [Bool.or_eq_true, decide_eq_true_eq, not_or, not_lt] at hv
      exact hv
  · cases hfactor : price.fastMultiplier with
    | none =>
      rw [hfactor] at h
      cases h
    | some factor =>
      rw [hfactor] at h
      split at h
      · cases h
      · next hbounds =>
        simp only [Option.any_some, Bool.not_eq_true', Bool.not_eq_false, Bool.and_eq_true,
          decide_eq_true_eq] at hbounds
        exact ⟨factor, rfl, hbounds⟩

/-! ### Rounding -/

/-- Rounding to eight places moves an amount by at most half a unit of the last. -/
theorem roundDp_bounds (value : Rat) :
    value - 1 / 200000000 ≤ roundDp value ∧ roundDp value ≤ value + 1 / 200000000 := by
  have hlow : ((value * 100000000).floor : Rat) ≤ value * 100000000 := Rat.floor_le _
  have hhigh : value * 100000000 < ((value * 100000000).floor : Rat) + 1 := by
    exact_mod_cast Rat.lt_floor_add_one (value * 100000000)
  unfold roundDp
  dsimp only
  split
  · next hround =>
    have hrest : value * 100000000 - ((value * 100000000).floor : Rat) ≤ 1 / 2 := by
      obtain hlt | ⟨heq, -⟩ := hround
      · exact hlt.le
      · exact heq.le
    constructor <;> linarith
  · next hround =>
    have hrest : 1 / 2 ≤ value * 100000000 - ((value * 100000000).floor : Rat) := by
      by_contra hlt
      exact hround (.inl (not_le.mp hlt))
    push_cast
    constructor <;> linarith

/-- An amount that is not negative stays so. -/
theorem roundDp_nonneg {value : Rat} (h : 0 ≤ value) : 0 ≤ roundDp value := by
  have hfloor : 0 ≤ (value * 100000000).floor := by
    rw [Rat.le_floor_iff]
    push_cast
    positivity
  have hcast : (0 : Rat) ≤ ((value * 100000000).floor : Rat) := by exact_mod_cast hfloor
  unfold roundDp
  dsimp only
  split
  · positivity
  · push_cast
    positivity

/-! ### What is billed -/

/-- The counts of a usage are `u64`, and that of its images `u32`. -/
structure Usage.Bounded (usage : Usage) : Prop where
  input : ∀ n, usage.inputTokens = some n → n < 2 ^ 64
  cached : ∀ n, usage.cachedInputTokens = some n → n < 2 ^ 64
  output : ∀ n, usage.outputTokens = some n → n < 2 ^ 64
  reasoning : ∀ n, usage.reasoningOutputTokens = some n → n < 2 ^ 64
  imageInput : ∀ n, usage.imageInputTokens = some n → n < 2 ^ 64
  imageOutput : ∀ n, usage.imageOutputTokens = some n → n < 2 ^ 64
  images : usage.imageCount < 2 ^ 32

/-- The rate a kind of line is billed at. -/
def Rates.rateOf (rates : Rates) : LineKind → Option Rat
  | .input => some rates.inputPerMillion
  | .cachedInput => some rates.cachedInputPerMillion
  | .output => some rates.outputPerMillion
  | .image => rates.perImage
  | .imageInput => rates.imageInputPerMillion
  | .imageOutput => rates.imageOutputPerMillion
  | .search => none

/-- The factor of the tier a usage was served at. -/
def tierFactor (usage : Usage) (price : Price) : Rat :=
  if isFast usage.serviceTier then price.fastMultiplier.getD 1 else 1

/-- What the lines of a kind bill. -/
def quantityOf (kind : LineKind) (items : List PriceLine) : Nat :=
  ((items.filter (·.kind = kind)).map (·.quantity)).sum

/-- A part of the usage is larger than the whole it belongs to. -/
def Usage.Exceeds (usage : Usage) : Prop :=
  (∃ n part, usage.inputTokens = some n ∧ usage.cachedInputTokens = some part ∧ n < part) ∨
    (∃ n part, usage.outputTokens = some n ∧ usage.reasoningOutputTokens = some part ∧ n < part) ∨
    usage.source = "images_response" ∧
      ((∃ n part, usage.inputTokens = some n ∧ usage.imageInputTokens = some part ∧ n < part) ∨
        ∃ n part, usage.outputTokens = some n ∧ usage.imageOutputTokens = some part ∧ n < part)

/-- A line bills its quantity at the rate of its kind and tier, with the factor applied once. -/
structure LineBilled (usage : Usage) (price : Price) (line : PriceLine) : Prop where
  rate : ∃ rate, price.standard.rateOf line.kind = some rate ∧
    line.rate = rate * tierFactor usage price
  cny : line.cny =
    roundDp (line.quantity * line.rate / if line.kind = .image then 1 else 1000000)
  nonneg : 0 ≤ line.rate ∧ 0 ≤ line.cny

/-- The lines of tokens bill the tokens of the usage, those of the images within the totals of a
standalone image response and apart from them otherwise. -/
def TokensBilled (usage : Usage) (items : List PriceLine) : Prop :=
  ∃ input output, usage.inputTokens = some input ∧ usage.outputTokens = some output ∧
    if usage.source = "images_response" then
      quantityOf .input items + quantityOf .cachedInput items + quantityOf .imageInput items ≤
          input ∧
        quantityOf .output items + quantityOf .imageOutput items ≤ output
    else
      quantityOf .input items + quantityOf .cachedInput items = input ∧
        quantityOf .output items = output

/-- What stands in a mantissa of 96 bits before the decimal point. -/
def FitsMantissa (value : Rat) : Prop := value.floor < 2 ^ 96

/-- A valuation bills each token at most once, at its rate, and never more than a decimal
holds. -/
structure Billed (usage : Usage) (price : Price) (v : Valuation) : Prop where
  charged : v.cny.isSome = true ↔ v.status = .priced ∨ v.status = .partialUsage
  total : ∀ cny, v.cny = some cny → cny = (v.items.map (·.cny)).sum ∧ 0 ≤ cny
  lines : ∀ line ∈ v.items, LineBilled usage price line
  tokens : v.cny.isSome = true ∨ v.items ≠ [] → TokensBilled usage v.items
  excess : usage.Exceeds → v.cny = none
  rates : ∀ rate ∈ (price.standard.multiplied (tierFactor usage price)).values, FitsMantissa rate
  products : ∀ line ∈ v.items, FitsMantissa (line.quantity * line.rate)
  sums : ∀ k, FitsMantissa ((v.items.map (·.cny)).take k).sum

section

variable {usage : Usage} {requestedTier : Option String} {price : Price} {rates : Rates}

/-- Where the tokens are priced, the steps before have all succeeded. -/
theorem pricedLines_ok {items : List PriceLine} {complete : Bool}
    (h : pricedLines usage requestedTier (some price) = .ok (items, complete)) :
    ∃ input output rates cached, billable usage = .ok (input, output) ∧
      tierRates usage requestedTier price = .ok rates ∧
      cachedInput usage input output rates = .ok cached ∧
      items = [priceLine .input (input - cached) rates.inputPerMillion true,
        priceLine .cachedInput cached rates.cachedInputPerMillion true,
        priceLine .output output rates.outputPerMillion true] ++ (imageLines usage rates).1 ∧
      complete = (imageLines usage rates).2 := by
  unfold pricedLines at h
  obtain ⟨⟨input, output⟩, hbillable, h⟩ := bind_ok.mp h
  dsimp only [Option.elim_some] at h
  obtain ⟨price', hprice, h⟩ := bind_ok.mp h
  cases hprice
  obtain ⟨rates, hrates, h⟩ := bind_ok.mp h
  obtain ⟨cached, hcached, h⟩ := bind_ok.mp h
  cases h
  exact ⟨input, output, rates, cached, hbillable, hrates, hcached, rfl, rfl⟩

/-- The rates of the tier are those of the price, times its factor. -/
theorem tierRates_ok (h : tierRates usage requestedTier price = .ok rates) :
    rates = price.standard.multiplied (tierFactor usage price) := by
  unfold tierRates at h
  unfold tierFactor
  split at h
  · cases h
  · split at h
    · next hfast =>
      rw [if_pos hfast]
      split at h
      · cases h
      · next factor hfactor =>
        cases h
        rw [(Option.filter_eq_some_iff.mp hfactor).1, Option.getD_some]
    · next hfast =>
      cases h
      rw [if_neg hfast]
      cases hr : price.standard with
      | mk input cached output imageInput imageOutput perImage =>
        cases imageInput <;> cases imageOutput <;> cases perImage <;> simp [Rates.multiplied]

/-- The parts of a usage that is billed fit in their totals. -/
theorem billable_ok {input output : Nat} (h : billable usage = .ok (input, output)) :
    ∃ n m, usage.inputTokens = some n ∧ usage.outputTokens = some m ∧
      ((usage.source = "images_response" ∧ ∃ i o, usage.imageInputTokens = some i ∧
          usage.imageOutputTokens = some o ∧ input + i = n ∧ output + o = m) ∨
        (usage.source ≠ "images_response" ∧ input = n ∧ output = m)) := by
  unfold billable at h
  split at h
  · next n m hn hm =>
    refine ⟨n, m, hn, hm, ?_⟩
    split at h
    · next hsource =>
      split at h
      · next i o hi ho =>
        split at h
        · next hle =>
          cases h
          exact .inl ⟨hsource, i, o, hi, ho, Nat.sub_add_cancel hle.1, Nat.sub_add_cancel hle.2⟩
        · cases h
      · cases h
    · next hsource =>
      cases h
      exact .inr ⟨hsource, rfl, rfl⟩
  · cases h

private theorem cachedInput_ok {input output cached : Nat}
    (h : cachedInput usage input output rates = .ok cached) :
    cached ≤ input ∧ (∀ n, usage.cachedInputTokens = some n → n = cached) ∧
      ∀ n, usage.reasoningOutputTokens = some n → n ≤ output := by
  obtain ⟨cached', htokens, h⟩ := bind_ok.mp h
  split at h
  · cases h
  · next hfits =>
    cases h
    rw [not_or, not_lt] at hfits
    refine ⟨hfits.1, fun n hn ↦ ?_, fun n hn ↦ ?_⟩
    · rw [cachedTokens, hn] at htokens
      cases htokens
      rfl
    · have hle := hfits.2
      rw [hn, Option.any_some, decide_eq_true_eq, not_lt] at hle
      exact hle

/-- A line of these rates. -/
def IsLine (rates : Rates) (line : PriceLine) : Prop :=
  line.quantity < 2 ^ 64 ∧ ∃ rate, rates.rateOf line.kind = some rate ∧
    line = priceLine line.kind line.quantity rate (line.kind ≠ .image)

/-- A line of image tokens bills the tokens that are counted, if any. -/
theorem imageTokens_cases (kind : LineKind) (count : Option Nat) (rate : Option Rat) :
    (imageTokens kind count rate).getD [] = [] ∨ ∃ n r, count = some n ∧ rate = some r ∧
      (imageTokens kind count rate).getD [] = [priceLine kind n r true] := by
  unfold imageTokens
  split
  · next n r => exact .inr ⟨n, r, rfl, rfl, rfl⟩
  · exact .inl rfl
  · exact .inl rfl

/-- The lines of the images are at most one for each kind of token, and count no other. -/
theorem imageLines_spec (hbounded : usage.Bounded) :
    (∀ line ∈ (imageLines usage rates).1, IsLine rates line) ∧
    (imageLines usage rates).1.length ≤ 2 ∧
    quantityOf .input (imageLines usage rates).1 = 0 ∧
    quantityOf .cachedInput (imageLines usage rates).1 = 0 ∧
    quantityOf .output (imageLines usage rates).1 = 0 ∧
    quantityOf .imageInput (imageLines usage rates).1 ≤ usage.imageInputTokens.getD 0 ∧
    quantityOf .imageOutput (imageLines usage rates).1 ≤ usage.imageOutputTokens.getD 0 := by
  have hnone : (∀ line ∈ ([] : List PriceLine), IsLine rates line) ∧
      ([] : List PriceLine).length ≤ 2 ∧ quantityOf .input [] = 0 ∧
      quantityOf .cachedInput [] = 0 ∧ quantityOf .output [] = 0 ∧
      quantityOf .imageInput [] ≤ usage.imageInputTokens.getD 0 ∧
      quantityOf .imageOutput [] ≤ usage.imageOutputTokens.getD 0 :=
    ⟨fun line hline ↦ absurd hline List.not_mem_nil, Nat.zero_le _, rfl, rfl, rfl,
      Nat.zero_le _, Nat.zero_le _⟩
  unfold imageLines
  split
  · exact hnone
  · split
    · next rate hrate =>
      refine ⟨fun line hline ↦ ?_, Nat.le_succ 1, rfl, rfl, rfl, Nat.zero_le _, Nat.zero_le _⟩
      rw [List.mem_singleton.mp hline]
      exact ⟨hbounded.images.trans (by norm_num), rate, hrate, rfl⟩
    · split
      · have hinput := imageTokens_cases .imageInput usage.imageInputTokens
          rates.imageInputPerMillion
        have houtput := imageTokens_cases .imageOutput usage.imageOutputTokens
          rates.imageOutputPerMillion
        have hinputLine : ∀ n r, usage.imageInputTokens = some n →
            rates.imageInputPerMillion = some r →
            IsLine rates (priceLine .imageInput n r true) := fun n r hn hr ↦
          ⟨hbounded.imageInput n hn, r, hr, rfl⟩
        have houtputLine : ∀ n r, usage.imageOutputTokens = some n →
            rates.imageOutputPerMillion = some r →
            IsLine rates (priceLine .imageOutput n r true) := fun n r hn hr ↦
          ⟨hbounded.imageOutput n hn, r, hr, rfl⟩
        dsimp only
        obtain hi | ⟨i, ri, hcount, hrate, hi⟩ := hinput
        · rw [hi]
          obtain ho | ⟨o, ro, hcount', hrate', ho⟩ := houtput
          · rw [ho]
            exact hnone
          · rw [ho]
            refine ⟨fun line hline ↦ ?_, Nat.le_succ 1, rfl, rfl, rfl, Nat.zero_le _, ?_⟩
            · rw [List.mem_singleton.mp hline]
              exact houtputLine o ro hcount' hrate'
            · rw [hcount']
              exact le_refl o
        · rw [hi]
          obtain ho | ⟨o, ro, hcount', hrate', ho⟩ := houtput
          · rw [ho]
            refine ⟨fun line hline ↦ ?_, Nat.le_succ 1, rfl, rfl, rfl, ?_, Nat.zero_le _⟩
            · rw [List.mem_singleton.mp hline]
              exact hinputLine i ri hcount hrate
            · rw [hcount]
              exact le_refl i
          · rw [ho]
            refine ⟨fun line hline ↦ ?_, Nat.le_refl 2, rfl, rfl, rfl, ?_, ?_⟩
            · obtain hline | hline := List.mem_append.mp hline
              · rw [List.mem_singleton.mp hline]
                exact hinputLine i ri hcount hrate
              · rw [List.mem_singleton.mp hline]
                exact houtputLine o ro hcount' hrate'
            · rw [hcount]
              exact le_refl i
            · rw [hcount']
              exact le_refl o
      · exact hnone

/-- The values of rates that are multiplied are multiplied. -/
theorem rateOf_multiplied (rates : Rates) (factor : Rat) (kind : LineKind) :
    (rates.multiplied factor).rateOf kind = (rates.rateOf kind).map (· * factor) := by
  cases kind <;> rfl

private theorem values_multiplied (rates : Rates) (factor : Rat) :
    (rates.multiplied factor).values = rates.values.map (· * factor) := by
  obtain ⟨input, cached, output, imageInput, imageOutput, perImage⟩ := rates
  cases imageInput <;> cases imageOutput <;> cases perImage <;> rfl

private theorem rateOf_mem_values {rates : Rates} {kind : LineKind} {rate : Rat}
    (h : rates.rateOf kind = some rate) : rate ∈ rates.values := by
  unfold Rates.values
  rw [List.mem_append, List.mem_filterMap]
  cases kind with
  | input =>
    cases h
    exact .inl List.mem_cons_self
  | cachedInput =>
    cases h
    exact .inl (List.mem_cons_of_mem _ List.mem_cons_self)
  | output =>
    cases h
    exact .inl (List.mem_cons_of_mem _ (List.mem_cons_of_mem _ List.mem_cons_self))
  | image => exact .inr ⟨some rate, by simp [← h, Rates.rateOf], rfl⟩
  | imageInput => exact .inr ⟨some rate, by simp [← h, Rates.rateOf], rfl⟩
  | imageOutput => exact .inr ⟨some rate, by simp [← h, Rates.rateOf], rfl⟩
  | search => cases h

/-! ### Bounds -/

/-- The factor of a valid price is between 0 and 100. -/
theorem tierFactor_bounds (usage : Usage) (h : price.validate = .ok ()) :
    0 ≤ tierFactor usage price ∧ tierFactor usage price ≤ 100 := by
  obtain ⟨-, factor, hfactor, hpos, hle⟩ := Price.validate_ok h
  unfold tierFactor
  split
  · rw [hfactor, Option.getD_some]
    exact ⟨hpos.le, hle⟩
  · norm_num

/-- A rate of a tier is not negative and at most 100 million. -/
theorem tierRate_bounds (h : price.validate = .ok ()) {rate : Rat}
    (hrate : rate ∈ (price.standard.multiplied (tierFactor usage price)).values) :
    0 ≤ rate ∧ rate ≤ 100000000 := by
  rw [values_multiplied] at hrate
  obtain ⟨standard, hmem, rfl⟩ := List.mem_map.mp hrate
  obtain ⟨hnonneg, hle⟩ := (Price.validate_ok h).1 standard hmem
  obtain ⟨hfactor, hfactor'⟩ := tierFactor_bounds usage h
  constructor
  · positivity
  · calc standard * tierFactor usage price ≤ 1000000 * 100 := by gcongr
      _ = 100000000 := by norm_num

private theorem fitsMantissa_of_lt {value : Rat} (h : value < 2 ^ 96) : FitsMantissa value := by
  unfold FitsMantissa
  rw [Rat.floor_lt_iff]
  exact_mod_cast h

/-- What a line of the tier's rates bills. -/
theorem IsLine.billed (h : price.validate = .ok ())
    {line : PriceLine}
    (hline : IsLine (price.standard.multiplied (tierFactor usage price)) line) :
    LineBilled usage price line ∧ (line.quantity : Rat) * line.rate < 2 ^ 64 * 100000000 ∧
      line.cny ≤ 2 ^ 64 * 100000000 + 1 := by
  obtain ⟨hquantity, rate, hrate, heq⟩ := hline
  have hbounds := tierRate_bounds h (rateOf_mem_values hrate)
  have hrateEq : line.rate = rate := by rw [heq]; rfl
  have hcny : line.cny =
      roundDp (line.quantity * line.rate / if line.kind = .image then 1 else 1000000) := by
    rw [heq]
    by_cases hkind : line.kind = .image <;> simp [priceLine, hkind]
  have hcast : (line.quantity : Rat) < 2 ^ 64 := by exact_mod_cast hquantity
  have hproduct : (line.quantity : Rat) * line.rate < 2 ^ 64 * 100000000 := by
    rw [hrateEq]
    calc (line.quantity : Rat) * rate ≤ line.quantity * 100000000 := by
          gcongr
          exact hbounds.2
      _ < 2 ^ 64 * 100000000 := by gcongr
  have hamount : 0 ≤ (line.quantity : Rat) * line.rate := by
    rw [hrateEq]
    exact mul_nonneg (Nat.cast_nonneg _) hbounds.1
  have hdivisor : (1 : Rat) ≤ if line.kind = .image then 1 else 1000000 := by
    split <;> norm_num
  have hquotient : 0 ≤ (line.quantity : Rat) * line.rate /
      if line.kind = .image then 1 else 1000000 :=
    div_nonneg hamount (zero_le_one.trans hdivisor)
  refine ⟨⟨?_, hcny, hrateEq ▸ hbounds.1, ?_⟩, hproduct, ?_⟩
  · rw [rateOf_multiplied] at hrate
    obtain ⟨standard, hstandard, hfactor⟩ := Option.map_eq_some_iff.mp hrate
    exact ⟨standard, hstandard, hrateEq.trans hfactor.symm⟩
  · rw [hcny]
    exact roundDp_nonneg hquotient
  · have hround := (roundDp_bounds ((line.quantity : Rat) * line.rate /
      if line.kind = .image then 1 else 1000000)).2
    have hle := div_le_self hamount hdivisor
    rw [hcny]
    linarith

/-- A sum of a few lines is at most as many times their bound. -/
theorem sum_le_of_forall_le {amounts : List Rat} {bound : Rat} (h : ∀ x ∈ amounts, x ≤ bound) :
    amounts.sum ≤ amounts.length * bound := by
  have hsum := List.sum_le_card_nsmul amounts bound h
  rwa [nsmul_eq_mul] at hsum

/-! ### The valuation -/

/-- A usage with a part larger than its whole is not billed. -/
theorem pricedLines_exceeds (h : usage.Exceeds) (items : List PriceLine) (complete : Bool) :
    pricedLines usage requestedTier (some price) ≠ .ok (items, complete) := by
  intro hlines
  obtain ⟨input, output, rates, cached, hbillable, -, hcached, -⟩ := pricedLines_ok hlines
  obtain ⟨n, m, hn, hm, hparts⟩ := billable_ok hbillable
  obtain ⟨hle, hcachedEq, hreasoning⟩ := cachedInput_ok hcached
  have hinput : input ≤ n ∧ output ≤ m := by
    obtain ⟨-, i, o, -, -, hi, ho⟩ | ⟨-, hi, ho⟩ := hparts
    · omega
    · omega
  obtain ⟨n', part, hn', hpart, hlt⟩ | ⟨m', part, hm', hpart, hlt⟩ | ⟨hsource, himage⟩ := h
  · cases hn.symm.trans hn'
    have hpartEq := hcachedEq part hpart
    omega
  · cases hm.symm.trans hm'
    have hpartLe := hreasoning part hpart
    omega
  · obtain ⟨-, i, o, hi, ho, hisum, hosum⟩ | ⟨hne, -⟩ := hparts
    · obtain ⟨n', part, hn', hpart, hlt⟩ | ⟨m', part, hm', hpart, hlt⟩ := himage
      · cases hn.symm.trans hn'
        cases hi.symm.trans hpart
        omega
      · cases hm.symm.trans hm'
        cases ho.symm.trans hpart
        omega
    · exact hne hsource

private theorem quantityOf_append (kind : LineKind) (items items' : List PriceLine) :
    quantityOf kind (items ++ items') = quantityOf kind items + quantityOf kind items' := by
  unfold quantityOf
  rw [List.filter_append, List.map_append, List.sum_append]

/-- The lines of a usage that is priced. -/
theorem pricedLines_billed (hbounded : usage.Bounded) {items : List PriceLine} {complete : Bool}
    (hlines : pricedLines usage requestedTier (some price) = .ok (items, complete)) :
    (∀ line ∈ items, IsLine (price.standard.multiplied (tierFactor usage price)) line) ∧
      items.length ≤ 5 ∧ items ≠ [] ∧ TokensBilled usage items := by
  obtain ⟨input, output, rates, cached, hbillable, hrates, hcached, rfl, -⟩ :=
    pricedLines_ok hlines
  obtain ⟨n, m, hn, hm, hparts⟩ := billable_ok hbillable
  obtain ⟨hle, -, -⟩ := cachedInput_ok hcached
  rw [← tierRates_ok hrates]
  obtain ⟨himages, hlength, hinput0, hcached0, houtput0, himageInput, himageOutput⟩ :=
    @imageLines_spec usage rates hbounded
  have hinput : input ≤ n ∧ output ≤ m := by
    obtain ⟨-, i, o, -, -, hi, ho⟩ | ⟨-, hi, ho⟩ := hparts
    · omega
    · omega
  have hn64 := hbounded.input n hn
  have hm64 := hbounded.output m hm
  refine ⟨fun line hline ↦ ?_, ?_, List.cons_ne_nil _ _, n, m, hn, hm, ?_⟩
  · obtain hline | hline := List.mem_append.mp hline
    · simp only [List.mem_cons, List.not_mem_nil, or_false] at hline
      obtain rfl | rfl | rfl := hline
      · exact ⟨Nat.lt_of_le_of_lt (by change input - cached ≤ n; omega) hn64, _, rfl, rfl⟩
      · exact ⟨Nat.lt_of_le_of_lt (by change cached ≤ n; omega) hn64, _, rfl, rfl⟩
      · exact ⟨Nat.lt_of_le_of_lt (by change output ≤ m; omega) hm64, _, rfl, rfl⟩
    · exact himages line hline
  · rw [List.length_append]
    exact Nat.add_le_add_left hlength 3
  · simp only [quantityOf_append, hinput0, hcached0, houtput0, Nat.add_zero]
    have htokens : ∀ kind, quantityOf kind
        [priceLine .input (input - cached) rates.inputPerMillion true,
          priceLine .cachedInput cached rates.cachedInputPerMillion true,
          priceLine .output output rates.outputPerMillion true] =
        match kind with
        | .input => input - cached
        | .cachedInput => cached
        | .output => output
        | _ => 0 := by
      intro kind
      cases kind <;> rfl
    rw [htokens, htokens, htokens, htokens, htokens]
    obtain ⟨hsource, i, o, hi, ho, hisum, hosum⟩ | ⟨hsource, rfl, rfl⟩ := hparts
    · rw [if_pos hsource]
      rw [hi, Option.getD_some] at himageInput
      rw [ho, Option.getD_some] at himageOutput
      dsimp only
      omega
    · rw [if_neg hsource]
      dsimp only
      omega

end

/-- Every valuation of a usage at a valid price. -/
theorem valueUsage_billed (usage : Usage) (requestedTier : Option String) (price : Price)
    (hbounded : usage.Bounded) (hvalid : price.validate = .ok ()) :
    Billed usage price (valueUsage usage requestedTier (some price)) := by
  have hrates : ∀ rate ∈ (price.standard.multiplied (tierFactor usage price)).values,
      FitsMantissa rate := fun rate hrate ↦
    fitsMantissa_of_lt ((tierRate_bounds hvalid hrate).2.trans_lt (by norm_num))
  unfold valueUsage
  cases hlines : pricedLines usage requestedTier (some price) with
  | error status =>
    have hfailure := pricedLines_error hlines
    have hstatus : ¬ (status = .priced ∨ status = .partialUsage) := by
      rintro (rfl | rfl) <;> exact absurd hfailure (by decide)
    refine ⟨iff_of_false Bool.false_ne_true hstatus, fun cny hcny ↦ (by cases hcny),
      fun line hline ↦ absurd hline List.not_mem_nil, ?_, fun _ ↦ rfl, hrates,
      fun line hline ↦ absurd hline List.not_mem_nil, fun k ↦ ?_⟩
    · rintro (hcny | hitems)
      · cases hcny
      · exact absurd rfl hitems
    · rw [List.map_nil, List.take_nil, List.sum_nil]
      exact fitsMantissa_of_lt (by norm_num)
  | ok result =>
    obtain ⟨items, complete⟩ := result
    obtain ⟨hitems, hlength, hne, htokens⟩ := pricedLines_billed hbounded hlines
    have hbilled := fun line hline ↦ (hitems line hline).billed hvalid
    refine ⟨?_, fun cny hcny ↦ ?_, fun line hline ↦ (hbilled line hline).1, fun _ ↦ htokens,
      fun hexcess ↦ absurd hlines (pricedLines_exceeds hexcess items complete), hrates,
      fun line hline ↦ ?_, fun k ↦ ?_⟩
    · dsimp only
      cases complete <;> cases usage.complete <;> simp
    · dsimp only at hcny ⊢
      cases complete with
      | false => cases hcny
      | true =>
        cases hcny
        refine ⟨rfl, List.sum_nonneg fun amount hamount ↦ ?_⟩
        obtain ⟨line, hline, rfl⟩ := List.mem_map.mp hamount
        exact (hbilled line hline).1.nonneg.2
    · exact fitsMantissa_of_lt ((hbilled line hline).2.1.trans (by norm_num))
    · have hsum : ((items.map (·.cny)).take k).sum ≤
          ((items.map (·.cny)).take k).length * (2 ^ 64 * 100000000 + 1) := by
        refine sum_le_of_forall_le fun amount hamount ↦ ?_
        obtain ⟨line, hline, rfl⟩ := List.mem_map.mp (List.mem_of_mem_take hamount)
        exact (hbilled line hline).2.2
      have hfew : (((items.map (·.cny)).take k).length : Rat) ≤ 5 := by
        rw [List.length_take, List.length_map]
        exact_mod_cast (Nat.min_le_right _ _).trans hlength
      refine fitsMantissa_of_lt (hsum.trans_lt ?_)
      calc (((items.map (·.cny)).take k).length : Rat) * (2 ^ 64 * 100000000 + 1)
          ≤ 5 * (2 ^ 64 * 100000000 + 1) := by gcongr
        _ < 2 ^ 96 := by norm_num

/-- A streamed response at the fast tier. -/
theorem valueUsage_billed_fast :
    Billed ⟨0, some 1000, some 500, some 1000, none, none, none, 0, false, some "fast", "", true⟩
      ⟨1, .codex "test", ⟨10, 1, 20, none, none, none⟩, some 2⟩
      (valueUsage
        ⟨0, some 1000, some 500, some 1000, none, none, none, 0, false, some "fast", "", true⟩ none
        (some ⟨1, .codex "test", ⟨10, 1, 20, none, none, none⟩, some 2⟩)) := by
  refine valueUsage_billed _ none _ ⟨?_, ?_, ?_, ?_, ?_, ?_, ?_⟩ (by decide +kernel)
  all_goals simp

end Xxgate.Core
