import Mathlib.Data.List.Induction
import Mathlib.Data.Prod.Lex
import Mathlib.Tactic.Common
import Xxgate.Base.Run
import Xxgate.Store.State

/-!
# The version for the discovery of models

`crates/xxgate-codex/src/model_version.rs`, the worker of `crates/xxgate-server` that follows the
stable releases, and the row it keeps the version in. A version is accepted in one spelling only;
the one in force never goes down, also when the process restarts or the store does not answer.
-/

namespace Xxgate.Workers

open Xxgate.Base Xxgate.Core Xxgate.Store

/-! ### Numerals -/

/-- A numeral without sign, and without leading zeros unless it is zero. -/
def Numeral (digits : List Char) : Prop :=
  digits ≠ [] ∧ (∀ c ∈ digits, c.isDigit = true) ∧ (1 < digits.length → digits.head? ≠ some '0')

/-- The digit of a character is that character. -/
theorem digitChar_of_isDigit {c : Char} (h : c.isDigit = true) :
    Nat.digitChar (c.toNat - '0'.toNat) = c ∧ c.toNat - '0'.toNat < 10 := by
  obtain ⟨hlow, hhigh⟩ := (Bool.and_eq_true ..).mp h
  have hlow : 48 ≤ c.toNat := UInt32.le_iff_toNat_le.mp (of_decide_eq_true hlow)
  have hhigh : c.toNat ≤ 57 := UInt32.le_iff_toNat_le.mp (of_decide_eq_true hhigh)
  have hc : Char.ofNat c.toNat = c := Char.ofNat_toNat c
  have hall : ∀ n < 58, 48 ≤ n → Nat.digitChar (n - 48) = Char.ofNat n := by decide
  refine ⟨?_, ?_⟩
  · exact (hall c.toNat (Nat.lt_succ_of_le hhigh) hlow).trans hc
  · show c.toNat - 48 < 10
    omega

/-- A numeral of more than one digit that does not begin with zero is not zero. -/
theorem ofDigitChars_pos {digits : List Char} (hne : digits ≠ [])
    (hd : ∀ c ∈ digits, c.isDigit = true) (hz : digits.head? ≠ some '0') :
    0 < Nat.ofDigitChars 10 digits 0 := by
  cases digits with
  | nil => exact absurd rfl hne
  | cons c rest =>
    rw [Nat.ofDigitChars_cons, Nat.ofDigitChars_eq_ofDigitChars_zero]
    obtain ⟨hc, -⟩ := digitChar_of_isDigit (hd c (List.mem_cons_self ..))
    have hpos : 0 < c.toNat - '0'.toNat := by
      apply Nat.pos_of_ne_zero
      intro h0
      rw [h0] at hc
      exact hz (congrArg some hc.symm)
    have hmul : 0 < 10 ^ rest.length * (10 * 0 + (c.toNat - '0'.toNat)) :=
      Nat.mul_pos (Nat.pow_pos (by decide)) (by omega)
    omega

/-- A numeral is the one that its value is written as. -/
theorem toDigits_ofDigitChars {digits : List Char} (h : Numeral digits) :
    Nat.toDigits 10 (Nat.ofDigitChars 10 digits 0) = digits := by
  induction digits using List.reverseRecOn with
  | nil => exact absurd rfl h.1
  | append_singleton digits c ih =>
    obtain ⟨-, hd, hz⟩ := h
    obtain ⟨hc, hlt⟩ := digitChar_of_isDigit (hd c (by simp))
    have hinit : ∀ b ∈ digits, b.isDigit = true := fun b hb ↦ hd b (List.mem_append_left _ hb)
    rw [Nat.ofDigitChars_append, Nat.ofDigitChars_cons, Nat.ofDigitChars_nil]
    cases hdigits : digits with
    | nil =>
      rw [Nat.ofDigitChars_nil, Nat.mul_zero, Nat.zero_add, Nat.toDigits_of_lt_base hlt, hc]
      rfl
    | cons b rest =>
      rw [← hdigits]
      have hne : digits ≠ [] := by
        rw [hdigits]
        exact List.cons_ne_nil b rest
      have hhead : (digits ++ [c]).head? = digits.head? := by
        rw [hdigits]
        rfl
      have hz' : digits.head? ≠ some '0' := by
        rw [← hhead]
        apply hz
        rw [hdigits]
        simp
      rw [← Nat.toDigits_append_toDigits (by decide) (ofDigitChars_pos hne hinit hz') hlt,
        ih ⟨hne, hinit, fun _ ↦ hz'⟩, Nat.toDigits_of_lt_base hlt, hc]

private theorem isDigit_of_mem_toDigits {n : Nat} {c : Char} (h : c ∈ Nat.toDigits 10 n) :
    c.isDigit = true := Nat.isDigit_of_mem_toDigits (by decide) (by decide) h

/-- What a number is written as is a numeral. -/
theorem numeral_toDigits (n : Nat) : Numeral (Nat.toDigits 10 n) := by
  refine ⟨Nat.toDigits_ne_nil, fun c ↦ isDigit_of_mem_toDigits, ?_⟩
  induction n using Nat.strongRecOn with
  | ind n ih =>
    intro hlen
    by_cases hn : n < 10
    · rw [Nat.toDigits_of_lt_base hn] at hlen
      exact absurd hlen (by simp)
    · have hbase : 10 ≤ n := Nat.le_of_not_lt hn
      rw [Nat.toDigits_of_base_le (by decide) hbase]
      have hne : Nat.toDigits 10 (n / 10) ≠ [] := Nat.toDigits_ne_nil
      rw [List.head?_append_of_ne_nil _ hne]
      by_cases hone : 1 < (Nat.toDigits 10 (n / 10)).length
      · exact ih (n / 10) (by omega) hone
      · have hsmall : n / 10 < 10 := by
          have hle := (Nat.length_toDigits_le_iff (n := n / 10) (k := 1) (b := 10) (by decide)
            (by decide)).mp (Nat.le_of_not_lt hone)
          simpa using hle
        rw [Nat.toDigits_of_lt_base hsmall]
        have hdigit : ∀ d < 10, 0 < d → Nat.digitChar d ≠ '0' := by decide
        intro h
        exact hdigit (n / 10) hsmall (by omega) (Option.some.inj h)

/-! ### Versions -/

/-- `[u32; 3]`. -/
abbrev Version : Type := Nat ×ₗ Nat ×ₗ Nat

namespace Version

/-- The three numbers, the first one first in the order. -/
def of (major minor patch : Nat) : Version := toLex (major, toLex (minor, patch))

/-- `model_version.rs:12–20`: one of the parts, as `u32`. -/
def part (digits : List Char) : Option Nat :=
  if digits.isEmpty || !digits.all Char.isDigit ||
      (1 < digits.length && digits.head? = some '0') then none
  else if Nat.ofDigitChars 10 digits 0 < 4294967296 then some (Nat.ofDigitChars 10 digits 0)
  else none

/-- `model_version.rs:6`. -/
def parse (version : String) : Option Version :=
  match version.toList.splitOn '.' with
  | [a, b, c] => do return of (← part a) (← part b) (← part c)
  | _ => none

/-- How a version is written. -/
def render (major minor patch : Nat) : String :=
  String.ofList (['.'].intercalate
    [Nat.toDigits 10 major, Nat.toDigits 10 minor, Nat.toDigits 10 patch])

/-- A part is accepted when it is what a `u32` is written as. -/
theorem part_eq_some {digits : List Char} {n : Nat} :
    part digits = some n ↔ n < 4294967296 ∧ digits = Nat.toDigits 10 n := by
  have hcond : (digits.isEmpty || !digits.all Char.isDigit ||
      (1 < digits.length && digits.head? = some '0')) = false ↔ Numeral digits := by
    unfold Numeral
    simp only [Bool.or_eq_false_iff, List.isEmpty_eq_false_iff, Bool.not_eq_false',
      List.all_eq_true, Bool.and_eq_false_iff, decide_eq_false_iff_not, and_assoc,
      or_iff_not_imp_left, not_not, ne_eq]
  unfold part
  constructor
  · intro h
    split at h
    · cases h
    · next hno =>
      have hnum := hcond.mp (Bool.eq_false_iff.mpr hno)
      split at h
      · next hlt =>
        cases h
        exact ⟨hlt, (toDigits_ofDigitChars hnum).symm⟩
      · cases h
  · rintro ⟨hlt, rfl⟩
    rw [hcond.mpr (numeral_toDigits n), if_neg Bool.false_ne_true, Nat.ofDigitChars_ten_toDigits,
      if_pos hlt]

/-- **A version has one spelling.** A text is accepted exactly when it is what three numbers of
32 bits are written as, and the version is those three numbers. -/
theorem parse_eq_some {version : String} {v : Version} :
    parse version = some v ↔ ∃ major minor patch, v = of major minor patch ∧
      major < 4294967296 ∧ minor < 4294967296 ∧ patch < 4294967296 ∧
      version = render major minor patch := by
  constructor
  · intro h
    unfold parse at h
    split at h
    · next a b c hsplit =>
      simp only [Option.bind_eq_bind, Option.bind_eq_some_iff, Option.pure_def,
        Option.some.injEq, part_eq_some] at h
      obtain ⟨major, ⟨hmajor, rfl⟩, minor, ⟨hminor, rfl⟩, patch, ⟨hpatch, rfl⟩, rfl⟩ := h
      refine ⟨major, minor, patch, rfl, hmajor, hminor, hpatch, ?_⟩
      rw [render, ← hsplit, List.intercalate_splitOn, String.ofList_toList]
    · cases h
  · rintro ⟨major, minor, patch, rfl, hmajor, hminor, hpatch, rfl⟩
    have hdot : ∀ digits ∈ [Nat.toDigits 10 major, Nat.toDigits 10 minor, Nat.toDigits 10 patch],
        '.' ∉ digits := by
      intro digits hmem hdot
      have hdigit : ∀ n, '.' ∉ Nat.toDigits 10 n := by
        intro n hn
        have := isDigit_of_mem_toDigits hn
        cases this
      simp only [List.mem_cons, List.not_mem_nil, or_false] at hmem
      rcases hmem with rfl | rfl | rfl
      · exact hdigit _ hdot
      · exact hdigit _ hdot
      · exact hdigit _ hdot
    unfold parse render
    rw [String.toList_ofList, List.splitOn_intercalate '.' hdot (List.cons_ne_nil _ _)]
    simp only [part_eq_some.mpr ⟨hmajor, rfl⟩, part_eq_some.mpr ⟨hminor, rfl⟩,
      part_eq_some.mpr ⟨hpatch, rfl⟩]
    rfl

end Version

/-! ### The version in force -/

/-- A version with its spelling. -/
structure Spelled where
  text : String
  version : Version
  parses : Version.parse text = some version

/-- `lib.rs:11`: `CODEX_VERSION`. -/
def baseline : Spelled := ⟨"0.153.4", .of 0 153 4, by decide⟩

/-- `model_version.rs:24`. -/
def current (guard : Option Spelled) : Spelled := guard.getD baseline

/-- `model_version.rs:37`. -/
def advance (guard : Option Spelled) (version : String) : Option Spelled × Bool :=
  match h : Version.parse version with
  | none => (guard, false)
  | some next =>
    if next ≤ (current guard).version then (guard, false) else (some ⟨version, next, h⟩, true)

/-- What is left as it was, or is newer. -/
theorem advance_cases (guard : Option Spelled) (version : String) :
    advance guard version = (guard, false) ∨
      ∃ v : Spelled, v.text = version ∧ (current guard).version < v.version ∧
        advance guard version = (some v, true) := by
  unfold advance
  split
  · exact .inl rfl
  · next next hnext =>
    split
    · exact .inl rfl
    · next hnot => exact .inr ⟨⟨version, next, hnext⟩, rfl, lt_of_not_ge hnot, rfl⟩

/-- A spelled version is in force afterwards, or a newer one is. -/
theorem advance_spelled (guard : Option Spelled) (v : Spelled) :
    v.version ≤ (current (advance guard v.text).1).version := by
  unfold advance
  split
  · next hnone =>
    rw [v.parses] at hnone
    cases hnone
  · next next hnext =>
    obtain rfl : v.version = next := Option.some.inj (v.parses.symm.trans hnext)
    split
    · next hle => exact hle
    · exact le_rfl

private theorem current_le_advance (guard : Option Spelled) (version : String) :
    (current guard).version ≤ (current (advance guard version).1).version := by
  rcases advance_cases guard version with h | ⟨v, -, hlt, h⟩
  · rw [h]
  · rw [h]
    exact hlt.le

/-! ### Releases -/

/-- `model_version.rs:11` of the server. -/
structure Release where
  tagName : String
  prerelease : Bool
  draft : Bool
  deriving DecidableEq

/-- `model_version.rs:17` of the server: the version of a stable release of the client. -/
def releaseVersion (release : Release) : Option Spelled :=
  if release.prerelease || release.draft then none
  else (stripLeading "rust-v" release.tagName).bind fun version ↦
    match h : Version.parse version with
    | none => none
    | some v => some ⟨version, v, h⟩

/-- `Iterator::max_by_key`: the last of the newest. -/
def newest (versions : List Spelled) : Option Spelled :=
  versions.foldl (fun best v ↦ match best with
    | none => some v
    | some b => if b.version ≤ v.version then some v else some b) none

/-- `model_version.rs:30` of the server, with what the two addresses answer, if they do. -/
def fetch (latest : Option Release) (listed : Option (List (Option Release))) : Option Spelled :=
  match latest.bind releaseVersion with
  | some version => some version
  | none => listed.bind fun releases ↦ newest (releases.filterMap (·.bind releaseVersion))

/-- A stable release of the client with the version. -/
structure Stable (release : Release) (version : Spelled) : Prop where
  tag : release.tagName = "rust-v" ++ version.text
  released : release.prerelease = false ∧ release.draft = false

private theorem stable_of_releaseVersion {release : Release} {v : Spelled}
    (h : releaseVersion release = some v) : Stable release v := by
  unfold releaseVersion at h
  split at h
  · cases h
  · next hno =>
    obtain ⟨version, hstrip, hparse⟩ := Option.bind_eq_some_iff.mp h
    split at hparse
    · cases hparse
    · cases hparse
      refine ⟨stripLeading_eq_some hstrip, ?_⟩
      simpa using hno

/-- The newest is one of them, and none is newer. -/
theorem newest_eq_some {versions : List Spelled} {v : Spelled} (h : newest versions = some v) :
    v ∈ versions ∧ ∀ u ∈ versions, u.version ≤ v.version := by
  unfold newest at h
  induction versions using List.reverseRecOn generalizing v with
  | nil => cases h
  | append_singleton versions u ih =>
    rw [List.foldl_append, List.foldl_cons, List.foldl_nil] at h
    split at h
    · next hnone =>
      cases h
      have hempty : versions = [] := by
        by_contra hne
        obtain ⟨init, last, rfl⟩ := List.eq_nil_or_concat' versions |>.resolve_left hne
        rw [List.foldl_append, List.foldl_cons, List.foldl_nil] at hnone
        split at hnone
        · cases hnone
        · split at hnone <;> cases hnone
      subst hempty
      simp
    · next b hb =>
      obtain ⟨hmem, hmax⟩ := ih hb
      split at h
      · next hle =>
        cases h
        refine ⟨by simp, fun w hw ↦ ?_⟩
        rcases List.mem_append.mp hw with hw | hw
        · exact (hmax w hw).trans hle
        · rw [List.mem_singleton.mp hw]
      · next hnot =>
        cases h
        refine ⟨List.mem_append_left _ hmem, fun w hw ↦ ?_⟩
        rcases List.mem_append.mp hw with hw | hw
        · exact hmax w hw
        · rw [List.mem_singleton.mp hw]
          exact (lt_of_not_ge hnot).le

/-- A version is fetched from a stable release that was answered. -/
theorem fetch_eq_some {latest : Option Release} {listed : Option (List (Option Release))}
    {v : Spelled} (h : fetch latest listed = some v) :
    ∃ release, (latest = some release ∨ ∃ releases, listed = some releases ∧
      some release ∈ releases) ∧ Stable release v := by
  unfold fetch at h
  split at h
  · next version hlatest =>
    cases h
    obtain ⟨release, hrelease, hv⟩ := Option.bind_eq_some_iff.mp hlatest
    exact ⟨release, .inl hrelease, stable_of_releaseVersion hv⟩
  · obtain ⟨releases, hlisted, hnewest⟩ := Option.bind_eq_some_iff.mp h
    obtain ⟨answered, hmem, hv⟩ := List.mem_filterMap.mp (newest_eq_some hnewest).1
    obtain ⟨release, rfl, hv⟩ := Option.bind_eq_some_iff.mp hv
    exact ⟨release, .inr ⟨releases, hlisted, hmem⟩, stable_of_releaseVersion hv⟩

/-! ### The worker -/

/-- The version of the process, and the row of `model_discovery_version`. -/
structure Discovery where
  guard : Option Spelled
  stored : Option String

namespace Discovery

/-- What happens: a turn of the worker, or a new process that reads the row. -/
inductive Move where
  | sync (latest : Option Release) (listed : Option (List (Option Release))) (outcome : Outcome)
  | restart

/-- `model_version.rs:63` of the server: the start of a process. -/
def restore (stored : Option String) : Discovery where
  guard := (stored.map fun version ↦ (advance none version).1).getD none
  stored := stored

/-- `model_version.rs:84–92` of the server: persist first, then advance. A turn that is cut off
by the shutdown is one whose answer is lost. -/
def sync (d : Discovery) (version : Spelled) (outcome : Outcome) : Discovery :=
  if (current d.guard).version < version.version then
    match outcome with
    | .answered => ⟨(advance d.guard version.text).1, some version.text⟩
    | .lost => ⟨d.guard, some version.text⟩
    | .failed => d
  else d

/-- One move. -/
def step (d : Discovery) : Move → Discovery
  | .sync latest listed outcome => ((fetch latest listed).map fun v ↦ d.sync v outcome).getD d
  | .restart => restore d.stored

/-- A turn without a version changes nothing. -/
theorem step_sync (d : Discovery) (latest : Option Release)
    (listed : Option (List (Option Release))) (outcome : Outcome) :
    (d.step (.sync latest listed outcome) = d) ∨
      ∃ v, fetch latest listed = some v ∧
        d.step (.sync latest listed outcome) = d.sync v outcome := by
  have hstep : d.step (.sync latest listed outcome) =
      ((fetch latest listed).map fun v ↦ d.sync v outcome).getD d := rfl
  rw [hstep]
  cases fetch latest listed with
  | none => exact .inl rfl
  | some v => exact .inr ⟨v, rfl, rfl⟩

/-- The version in force is the first one of the process, or not newer than the stored one. -/
def Backed (d : Discovery) : Prop :=
  d.guard = none ∨ ∃ v : Spelled, d.stored = some v.text ∧ (current d.guard).version ≤ v.version

private theorem backed_restore (stored : Option String) : (restore stored).Backed := by
  cases stored with
  | none => exact .inl rfl
  | some version =>
    rcases advance_cases none version with h | ⟨v, rfl, -, h⟩
    · exact .inl (congrArg Prod.fst h)
    · right
      refine ⟨v, rfl, ?_⟩
      show (current (advance none v.text).1).version ≤ v.version
      rw [h]
      exact le_rfl

private theorem Backed.sync {d : Discovery} (h : d.Backed) (v : Spelled) (outcome : Outcome) :
    (d.sync v outcome).Backed := by
  unfold Discovery.sync
  split
  · next hlt =>
    cases outcome with
    | answered =>
      right
      refine ⟨v, rfl, ?_⟩
      rcases advance_cases d.guard v.text with ha | ⟨u, hu, -, ha⟩
      · dsimp only
        rw [ha]
        exact hlt.le
      · dsimp only
        rw [ha]
        have hsame := u.parses
        rw [hu, v.parses] at hsame
        exact (Option.some.inj hsame).ge
    | lost => exact .inr ⟨v, rfl, hlt.le⟩
    | failed => exact h
  · exact h

private theorem Backed.step {d : Discovery} (h : d.Backed) (m : Move) : (d.step m).Backed := by
  cases m with
  | sync latest listed outcome =>
    rcases d.step_sync latest listed outcome with hs | ⟨v, -, hs⟩
    · rw [hs]
      exact h
    · rw [hs]
      exact h.sync v outcome
  | restart => exact backed_restore d.stored

/-- No move takes the version down. -/
theorem Backed.le_step {d : Discovery} (h : d.Backed) (m : Move) :
    (current d.guard).version ≤ (current (d.step m).guard).version := by
  cases m with
  | sync latest listed outcome =>
    rcases d.step_sync latest listed outcome with hs | ⟨v, -, hs⟩
    · rw [hs]
    · rw [hs]
      unfold Discovery.sync
      split
      · cases outcome with
        | answered => exact current_le_advance d.guard v.text
        | lost | failed => exact le_rfl
      · exact le_rfl
  | restart =>
    rcases h with hnone | ⟨v, hstored, hle⟩
    · rw [hnone]
      show (current none).version ≤ (current (restore d.stored).guard).version
      cases d.stored with
      | none => exact le_rfl
      | some version => exact current_le_advance none version
    · refine hle.trans ?_
      show v.version ≤ (current (restore d.stored).guard).version
      rw [hstored]
      exact advance_spelled none v

/-- Where a version may come from: the program, the row at the beginning, or a stable release
that a turn of the worker was answered with. -/
def Sourced (stored : Option String) (moves : List Move) (text : String) : Prop :=
  text = baseline.text ∨ stored = some text ∨
    ∃ latest listed outcome release v, .sync latest listed outcome ∈ moves ∧
      (latest = some release ∨ ∃ releases, listed = some releases ∧ some release ∈ releases) ∧
        Stable release v ∧ v.text = text

private theorem Sourced.later {stored : Option String} {moves : List Move} {text : String}
    (h : Sourced stored moves text) (m : Move) : Sourced stored (moves ++ [m]) text := by
  rcases h with h | h | ⟨latest, listed, outcome, release, v, hm, hrest⟩
  · exact .inl h
  · exact .inr (.inl h)
  · exact .inr (.inr ⟨latest, listed, outcome, release, v, List.mem_append_left _ hm, hrest⟩)

/-- Both the version in force and the stored one come from there. -/
theorem sourced_run (stored : Option String) (moves : List Move) :
    Sourced stored moves (current (run step (restore stored) moves).guard).text ∧
      ∀ text, (run step (restore stored) moves).stored = some text →
        Sourced stored moves text := by
  have hrestore : ∀ {moves : List Move} (s : Option String),
      (∀ text, s = some text → Sourced stored moves text) →
        Sourced stored moves (current (restore s).guard).text := by
    intro moves s hs
    cases s with
    | none => exact .inl rfl
    | some version =>
      rcases advance_cases none version with h | ⟨v, rfl, -, h⟩
      · show Sourced stored moves (current (advance none version).1).text
        rw [h]
        exact .inl rfl
      · show Sourced stored moves (current (advance none v.text).1).text
        rw [h]
        exact hs v.text rfl
  induction moves using List.reverseRecOn with
  | nil => exact ⟨hrestore stored fun _ h ↦ .inr (.inl h), fun _ h ↦ .inr (.inl h)⟩
  | append_singleton moves m ih =>
    rw [run_append]
    show Sourced stored _ (current (Discovery.step _ m).guard).text ∧
      ∀ text, (Discovery.step _ m).stored = some text → _
    generalize run step (restore stored) moves = d at ih ⊢
    have hcurrent := ih.1.later m
    have hstored : ∀ text, d.stored = some text → Sourced stored (moves ++ [m]) text :=
      fun text h ↦ (ih.2 text h).later m
    cases m with
    | restart => exact ⟨hrestore d.stored hstored, hstored⟩
    | sync latest listed outcome =>
      rcases d.step_sync latest listed outcome with hs | ⟨v, hfetch, hs⟩
      · rw [hs]
        exact ⟨hcurrent, hstored⟩
      · rw [hs]
        obtain ⟨release, hanswered, hstable⟩ := fetch_eq_some hfetch
        have hv : Sourced stored (moves ++ [.sync latest listed outcome]) v.text :=
          .inr (.inr ⟨latest, listed, outcome, release, v,
            List.mem_append_right _ (List.mem_singleton_self _), hanswered, hstable, rfl⟩)
        unfold Discovery.sync
        split
        · cases outcome with
          | answered =>
            refine ⟨?_, fun text h ↦ (by cases h; exact hv)⟩
            dsimp only
            rcases advance_cases d.guard v.text with ha | ⟨u, hu, -, ha⟩
            · rw [ha]
              exact hcurrent
            · rw [ha]
              exact hu ▸ hv
          | lost => exact ⟨hcurrent, fun text h ↦ (by cases h; exact hv)⟩
          | failed => exact ⟨hcurrent, hstored⟩
        · exact ⟨hcurrent, hstored⟩

/-- **The version never goes down.** Whatever the releases are that the worker is answered with,
whether the store takes and answers its writes, and however often the process is cut off and
started again: the version in force is never an older one than it was, and it is the one of the
program, the one first stored, or the one of a stable release of the client. -/
theorem version_never_down (stored : Option String) (moves later : List Move) :
    (current (run step (restore stored) moves).guard).version ≤
        (current (run step (run step (restore stored) moves) later).guard).version ∧
      Sourced stored moves (current (run step (restore stored) moves).guard).text := by
  refine ⟨?_, (sourced_run stored moves).1⟩
  have hbacked : (run step (restore stored) moves).Backed :=
    run_invariant (fun _ m h ↦ h.step m) moves (backed_restore stored)
  generalize run step (restore stored) moves = d at hbacked
  induction later generalizing d with
  | nil => exact le_rfl
  | cons m later ih => exact (hbacked.le_step m).trans (ih _ (hbacked.step m))

end Discovery
end Xxgate.Workers
