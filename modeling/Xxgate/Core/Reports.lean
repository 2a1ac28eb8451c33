import Mathlib.Algebra.Order.Field.Rat
import Mathlib.Data.List.Chain
import Xxgate.Base.StableSort
import Xxgate.Core.Quota

/-!
# The current quota cycle

`crates/xxgate-core/src/reports.rs:115–174`: the observations of one window that belong to the
cycle the upstream is in now. An instant is a number of ticks, `second` of them a second, so that
`num_seconds` rounds as the source does.
-/

namespace Xxgate.Core

/-- `reports.rs:123`. -/
structure QuotaCycle where
  startsAt : Int
  first : QuotaWindow
  latest : QuotaWindow
  deriving DecidableEq

/-- The percentage of a window that has a finite one. -/
def QuotaWindow.percent (w : QuotaWindow) : Rat := w.usedPercent.getD 0

namespace QuotaCycle

section

variable (second : Int)

/-- `reports.rs:136`: the observations a cycle is made of. -/
def eligible (minutes now : Int) (w : QuotaWindow) : Bool :=
  w.pool == "codex" && w.windowMinutes == some minutes &&
    w.usedPercent.any (fun percent ↦ 0 ≤ percent ∧ percent ≤ 100) && decide (w.observedAt ≤ now)

/-- `reports.rs:134–146`. The sort is stable. -/
def points (windows : List QuotaWindow) (minutes now : Int) : List QuotaWindow :=
  Base.sortByKey (·.observedAt) (windows.filter (eligible minutes now))

/-- `(r - reset).num_seconds().abs() <= 60`. -/
def nearReset (reset : Int) (w : QuotaWindow) : Bool :=
  w.resetsAt.any fun r ↦ decide (|(r - reset).tdiv second| ≤ 60)

/-- The counter did not fall from one observation to the next. -/
def risesTo (w next : QuotaWindow) : Bool := decide (w.percent ≤ next.percent + 1 / 100)

/-- `reports.rs:153–168`: the scan from the latest observation backwards. -/
def scan (reset startsAt : Int) (first : QuotaWindow) : List QuotaWindow → Int × QuotaWindow
  | [] => (startsAt, first)
  | point :: points =>
    if point.observedAt < startsAt then (startsAt, first)
    else if !nearReset second reset point || !risesTo point first then
      (max startsAt first.observedAt, first)
    else scan reset startsAt point points

/-- The start of a cycle of `minutes` that is reset at `reset`. -/
def startOf (minutes reset : Int) : Int := reset - minutes * 60 * second

end

end QuotaCycle

open QuotaCycle in
/-- `reports.rs:129`. -/
def quotaCycle (second : Int) (windows : List QuotaWindow) (minutes now : Int) :
    Option QuotaCycle := do
  let points := points windows minutes now
  let latest ← points.getLast?
  let reset ← latest.resetsAt.filter fun r ↦ decide (now < r)
  let startsAt := startOf second minutes reset
  if latest.observedAt < startsAt then none
  else
    let (startsAt, first) := scan second reset startsAt latest points.reverse.tail
    some ⟨startsAt, first, latest⟩

namespace QuotaCycle

/-! ### What the scan finds -/

/-- Observations of one cycle, in order. -/
structure Segment (second reset startsAt : Int) (l : List QuotaWindow) : Prop where
  within : ∀ w ∈ l, startsAt ≤ w.observedAt
  near : ∀ w ∈ l.dropLast, nearReset second reset w = true
  rises : l.IsChain fun a b ↦ risesTo a b = true

section

variable {second reset startsAt : Int}

/-- The later part of a segment is one. -/
theorem Segment.suffix {l m : List QuotaWindow} (h : Segment second reset startsAt m)
    (hl : l <:+ m) : Segment second reset startsAt l where
  within w hw := h.within w (hl.subset hw)
  near w hw := by
    obtain ⟨before, rfl⟩ := hl
    have hne : l ≠ [] := by
      rintro rfl
      exact List.not_mem_nil hw
    refine h.near w ?_
    rw [List.dropLast_append_of_ne_nil hne]
    exact List.mem_append_right _ hw
  rises := h.rises.suffix hl

/-- An observation before a segment belongs to it, or cuts it, or is too old. -/
theorem segment_cons_iff {point first : QuotaWindow} {rest : List QuotaWindow}
    (h : Segment second reset startsAt (first :: rest)) :
    Segment second reset startsAt (point :: first :: rest) ↔
      startsAt ≤ point.observedAt ∧ nearReset second reset point = true ∧
        risesTo point first = true := by
  constructor
  · intro hs
    refine ⟨hs.within point List.mem_cons_self, hs.near point ?_, ?_⟩
    · rw [List.dropLast_cons_of_ne_nil (List.cons_ne_nil _ _)]
      exact List.mem_cons_self
    · exact (List.isChain_cons_cons.mp hs.rises).1
  · rintro ⟨hwithin, hnear, hrises⟩
    refine ⟨?_, ?_, List.isChain_cons_cons.mpr ⟨hrises, h.rises⟩⟩
    · intro w hw
      rcases List.mem_cons.mp hw with rfl | hw
      · exact hwithin
      · exact h.within w hw
    · intro w hw
      rw [List.dropLast_cons_of_ne_nil (List.cons_ne_nil _ _)] at hw
      rcases List.mem_cons.mp hw with rfl | hw
      · exact hnear
      · exact h.near w hw

/-- A segment is cut by a reset that changed or a counter that fell, within the cycle. -/
def Cut (second reset startsAt : Int) (before : List QuotaWindow) (first : QuotaWindow) : Prop :=
  ∃ point, before.getLast? = some point ∧ startsAt ≤ point.observedAt ∧
    (nearReset second reset point = false ∨ risesTo point first = false)

/-- The scan goes on exactly as long as there is a segment. -/
theorem scan_spec (earlier : List QuotaWindow) {first : QuotaWindow} {rest : List QuotaWindow}
    (h : Segment second reset startsAt (first :: rest)) :
    ∃ before more, earlier.reverse ++ first :: rest =
        before ++ (scan second reset startsAt first earlier).2 :: more ∧
      Segment second reset startsAt ((scan second reset startsAt first earlier).2 :: more) ∧
      (∀ point, before.getLast? = some point → ¬ Segment second reset startsAt
        (point :: (scan second reset startsAt first earlier).2 :: more)) ∧
      (Cut second reset startsAt before (scan second reset startsAt first earlier).2 →
        (scan second reset startsAt first earlier).1 =
          (scan second reset startsAt first earlier).2.observedAt) ∧
      (¬ Cut second reset startsAt before (scan second reset startsAt first earlier).2 →
        (scan second reset startsAt first earlier).1 = startsAt) := by
  induction earlier generalizing first rest with
  | nil =>
    refine ⟨[], rest, rfl, h, fun _ hp ↦ (by cases hp), ?_, fun _ ↦ rfl⟩
    rintro ⟨point, hp, -⟩
    cases hp
  | cons point earlier ih =>
    have hlast : (earlier.reverse ++ [point]).getLast? = some point := List.getLast?_concat
    rw [List.reverse_cons]
    unfold scan
    by_cases hold : point.observedAt < startsAt
    · rw [if_pos hold]
      refine ⟨_, rest, rfl, h, fun p hp ↦ ?_, ?_, fun _ ↦ rfl⟩
      · rw [hlast] at hp
        cases hp
        rw [segment_cons_iff h]
        omega
      · rintro ⟨p, hp, hle, -⟩
        rw [hlast] at hp
        cases hp
        omega
    · rw [if_neg hold]
      by_cases hcut : (!nearReset second reset point || !risesTo point first) = true
      · rw [if_pos hcut]
        refine ⟨_, rest, rfl, h, fun p hp ↦ ?_, fun _ ↦ ?_, fun hnot ↦ ?_⟩
        · rw [hlast] at hp
          cases hp
          rw [segment_cons_iff h]
          rintro ⟨-, hnear, hrises⟩
          rw [hnear, hrises] at hcut
          cases hcut
        · exact max_eq_right (h.within first List.mem_cons_self)
        · rw [Bool.or_eq_true, Bool.not_eq_true', Bool.not_eq_true'] at hcut
          exact absurd ⟨point, hlast, not_lt.mp hold, hcut⟩ hnot
      · rw [if_neg hcut]
        simp only [Bool.or_eq_true, Bool.not_eq_true', not_or, Bool.not_eq_false] at hcut
        have hs := (segment_cons_iff h).mpr ⟨not_lt.mp hold, hcut.1, hcut.2⟩
        rw [List.append_assoc]
        exact ih hs

/-- The current cycle of some observations. -/
structure Current (second minutes reset : Int) (points : List QuotaWindow) (cycle : QuotaCycle) :
    Prop where
  latest : points.getLast? = some cycle.latest
  /-- The segment is the longest there is, and says where the cycle starts. -/
  segment : ∃ before more, points = before ++ cycle.first :: more ∧
    Segment second reset (startOf second minutes reset) (cycle.first :: more) ∧
    (∀ l, l <:+ points → Segment second reset (startOf second minutes reset) l →
      l <:+ cycle.first :: more) ∧
    (Cut second reset (startOf second minutes reset) before cycle.first →
      cycle.startsAt = cycle.first.observedAt) ∧
    (¬ Cut second reset (startOf second minutes reset) before cycle.first →
      cycle.startsAt = startOf second minutes reset)
  start_le : startOf second minutes reset ≤ cycle.startsAt
  le_first : cycle.startsAt ≤ cycle.first.observedAt
  first_le : cycle.first.observedAt ≤ cycle.latest.observedAt

/-- A segment that cannot be made longer by one observation is the longest. -/
theorem suffix_of_segment {before segment l : List QuotaWindow}
    (hmax : ∀ point, before.getLast? = some point →
      ¬ Segment second reset startsAt (point :: segment))
    (hl : l <:+ before ++ segment) (hs : Segment second reset startsAt l) : l <:+ segment := by
  rcases List.suffix_or_suffix_of_suffix hl (List.suffix_append before segment) with h | h
  · exact h
  · obtain ⟨more, rfl⟩ := h
    rcases List.eq_nil_or_concat more with rfl | ⟨more, point, rfl⟩
    · exact List.suffix_rfl
    · obtain ⟨earlier, he⟩ := hl
      rw [List.concat_eq_append] at he hs
      rw [← List.append_assoc, ← List.append_assoc] at he
      have hbefore := List.append_cancel_right he
      rw [List.append_assoc] at hs
      refine absurd (hs.suffix (List.suffix_append more _)) (hmax point ?_)
      rw [← hbefore, List.getLast?_concat]

/-- Observations are scanned in the order of time. -/
theorem le_of_points {windows : List QuotaWindow} {minutes now : Int}
    {before more : List QuotaWindow} {first latest : QuotaWindow}
    (h : points windows minutes now = before ++ first :: more)
    (hlatest : (points windows minutes now).getLast? = some latest) :
    first.observedAt ≤ latest.observedAt := by
  have hsorted := Base.sortByKey_pairwise (·.observedAt) (windows.filter (eligible minutes now))
  change (points windows minutes now).Pairwise _ at hsorted
  rw [h] at hsorted hlatest
  have hmore := (List.pairwise_append.mp hsorted).2.1
  rw [List.getLast?_append_of_ne_nil _ (List.cons_ne_nil _ _)] at hlatest
  rcases List.mem_cons.mp (List.mem_of_getLast? hlatest) with rfl | hmem
  · exact le_rfl
  · exact List.rel_of_pairwise_cons hmore hmem

end

/-- The cycle that is found is the current one. -/
theorem quotaCycle_current {second minutes now : Int} {windows : List QuotaWindow}
    {cycle : QuotaCycle} (h : quotaCycle second windows minutes now = some cycle) :
    ∃ reset, cycle.latest.resetsAt = some reset ∧ now < reset ∧
      Current second minutes reset (points windows minutes now) cycle := by
  unfold quotaCycle at h
  obtain ⟨latest, hlatest, h⟩ := Option.bind_eq_some_iff.mp h
  obtain ⟨reset, hreset, h⟩ := Option.bind_eq_some_iff.mp h
  obtain ⟨hreset, hnow⟩ := Option.filter_eq_some_iff.mp hreset
  dsimp only at h
  split at h
  · cases h
  · next hold =>
    cases h
    have hone : Segment second reset (startOf second minutes reset) [latest] :=
      ⟨fun w hw ↦ by rw [List.mem_singleton.mp hw]; exact not_lt.mp hold,
        fun w hw ↦ absurd hw List.not_mem_nil, List.isChain_singleton _⟩
    obtain ⟨earlier, hearlier⟩ : ∃ earlier, points windows minutes now = earlier ++ [latest] :=
      List.getLast?_eq_some_iff.mp hlatest
    have htail : (points windows minutes now).reverse.tail = earlier.reverse := by
      rw [hearlier, List.reverse_append]
      rfl
    obtain ⟨before, more, hpoints, hs, hmax, hcut, hnot⟩ := scan_spec earlier.reverse hone
    rw [List.reverse_reverse, ← hearlier] at hpoints
    rw [htail]
    have hfirst := hs.within _ List.mem_cons_self
    refine ⟨reset, hreset, of_decide_eq_true hnow, hlatest,
      ⟨before, more, hpoints, hs, ?_, hcut, hnot⟩, ?_, ?_, le_of_points hpoints hlatest⟩
    · intro l hl hsegment
      exact suffix_of_segment hmax (hpoints ▸ hl) hsegment
    · by_cases hc : Cut second reset (startOf second minutes reset) before
          (scan second reset (startOf second minutes reset) latest earlier.reverse).2
      · exact hfirst.trans (hcut hc).ge
      · exact (hnot hc).ge
    · by_cases hc : Cut second reset (startOf second minutes reset) before
          (scan second reset (startOf second minutes reset) latest earlier.reverse).2
      · exact (hcut hc).le
      · exact (hnot hc).le.trans hfirst

/-- Where there is a cycle. -/
theorem quotaCycle_isSome_iff (second : Int) (windows : List QuotaWindow) (minutes now : Int) :
    (quotaCycle second windows minutes now).isSome = true ↔
      ∃ latest reset, (points windows minutes now).getLast? = some latest ∧
        latest.resetsAt = some reset ∧ now < reset ∧
          startOf second minutes reset ≤ latest.observedAt := by
  rw [Option.isSome_iff_exists]
  constructor
  · rintro ⟨cycle, hcycle⟩
    obtain ⟨reset, hreset, hnow, hcurrent⟩ := quotaCycle_current hcycle
    have hle := hcurrent.start_le.trans (hcurrent.le_first.trans hcurrent.first_le)
    exact ⟨cycle.latest, reset, hcurrent.latest, hreset, hnow, hle⟩
  · rintro ⟨latest, reset, hlatest, hreset, hnow, hle⟩
    have hfilter : latest.resetsAt.filter (fun r ↦ decide (now < r)) = some reset :=
      Option.filter_eq_some_iff.mpr ⟨hreset, decide_eq_true hnow⟩
    exact ⟨_, Option.bind_eq_some_iff.mpr ⟨latest, hlatest,
      Option.bind_eq_some_iff.mpr ⟨reset, hfilter, if_neg (not_lt.mpr hle)⟩⟩⟩

/-- The cycle is the maximal current segment, and nothing decides it but the observations of
each instant in their order. -/
theorem quotaCycle_maximal (second : Int) (windows : List QuotaWindow) (minutes now : Int) :
    ((quotaCycle second windows minutes now).isSome = true ↔
      ∃ latest reset, (points windows minutes now).getLast? = some latest ∧
        latest.resetsAt = some reset ∧ now < reset ∧
          startOf second minutes reset ≤ latest.observedAt) ∧
    (∀ cycle, quotaCycle second windows minutes now = some cycle →
      ∃ reset, cycle.latest.resetsAt = some reset ∧ now < reset ∧
        Current second minutes reset (points windows minutes now) cycle) ∧
    ∀ other : List QuotaWindow,
      (∀ at_, (other.filter (eligible minutes now)).filter (fun w ↦ decide (w.observedAt = at_)) =
        (windows.filter (eligible minutes now)).filter fun w ↦ decide (w.observedAt = at_)) →
      quotaCycle second other minutes now = quotaCycle second windows minutes now := by
  refine ⟨quotaCycle_isSome_iff second windows minutes now,
    fun cycle h ↦ quotaCycle_current h, fun other h ↦ ?_⟩
  have hpoints : points other minutes now = points windows minutes now := Base.sortByKey_congr h
  unfold quotaCycle
  rw [hpoints]

end QuotaCycle
end Xxgate.Core
