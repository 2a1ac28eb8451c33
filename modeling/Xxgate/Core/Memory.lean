import Mathlib.Algebra.Order.Field.Rat
import Mathlib.Tactic.Linarith
import Xxgate.Core.Types

/-!
# Memory admission

`crates/xxgate-core/src/memory.rs:12–199`: requests are read only while the measured pressure
of the host and its containers allows it. A pressure is the rational it stands for; instants
are nanoseconds. Sampling, settings and clock are what each call finds, so a run is any order of
calls with any of them.
-/

namespace Xxgate.Core

/-- `memory.rs:12`. -/
structure MemoryDomain where
  source : String
  limitBytes : Nat
  usedBytes : Nat
  availableBytes : Nat
  deriving DecidableEq, Repr

/-- `memory.rs:19`. -/
def MemoryDomain.pressure (d : MemoryDomain) : Rat := d.usedBytes * 100 / d.limitBytes

/-- The limits of `settings.rs:39–41`; `settings.rs:84` keeps the lower below the upper. -/
structure MemorySettings where
  memoryRejectPercent : Nat
  memoryResumePercent : Nat
  requestReadConcurrency : Nat
  valid : memoryResumePercent < memoryRejectPercent

/-- `memory.rs:38`. -/
structure MemoryStatus where
  domains : List MemoryDomain
  rejectPercent : Nat
  resumePercent : Nat
  blocked : Bool
  readingRequests : Nat
  readerLimit : Nat
  probeError : Option String

/-- `memory.rs:47`. -/
structure MemoryRejection where
  error : Error
  status : MemoryStatus

namespace MemoryAdmission

/-- `memory.rs:51`. -/
structure State where
  last : Option Nat := none
  sample : Option (List MemoryDomain) := none
  probeError : Option String := none
  blocked : Bool := false
  readers : Nat := 0

/-- `memory.rs:94–101`. -/
def validSample (domains : List MemoryDomain) : Bool :=
  !domains.isEmpty && domains.all fun d ↦ (0 < d.limitBytes && d.availableBytes ≤ d.limitBytes)

/-- A domain is at or above the upper limit. -/
def isHot (cfg : MemorySettings) (domains : List MemoryDomain) : Bool :=
  domains.any fun d ↦ (cfg.memoryRejectPercent : Rat) ≤ d.pressure

/-- Every domain is at or below the lower limit. -/
def isCool (cfg : MemorySettings) (domains : List MemoryDomain) : Bool :=
  domains.all fun d ↦ d.pressure ≤ (cfg.memoryResumePercent : Rat)

/-- `Duration::from_millis(20)`. -/
def SAMPLE_AGE : Nat := 20000000

/-- What a call finds: the settings, the clock before and after sampling, and what sampling
gives. -/
structure Found where
  cfg : MemorySettings
  now : Nat
  taken : Nat
  probe : Option (List MemoryDomain)

namespace State

/-- `memory.rs:85–90`: whether the sample is taken anew. -/
def samples (s : State) (now : Nat) (fresh : Bool) : Bool :=
  fresh || s.last.all fun taken ↦ SAMPLE_AGE ≤ now - taken

/-- `memory.rs:91–112`. A sample that is not valid counts as none. -/
def takeSample (s : State) (taken : Nat) (probe : Option (List MemoryDomain)) : State :=
  match probe.filter validSample with
  | some domains => { s with sample := some domains, probeError := none, last := some taken }
  | none =>
    { s with sample := none, probeError := some "memory_probe_unavailable", last := some taken }

/-- `memory.rs:114–128`. -/
def judge (s : State) (cfg : MemorySettings) : State :=
  match s.sample with
  | none => s
  | some domains =>
    if isHot cfg domains then { s with blocked := true }
    else if isCool cfg domains then { s with blocked := false }
    else s

/-- The state with the sample a call goes by. -/
def sampled (s : State) (found : Found) (fresh : Bool) : State :=
  if s.samples found.now fresh then s.takeSample found.taken found.probe else s

/-- `memory.rs:81`. -/
def statusLocked (s : State) (found : Found) (fresh : Bool) : MemoryStatus × State :=
  let s := (s.sampled found fresh).judge found.cfg
  ({ domains := s.sample.getD []
     rejectPercent := found.cfg.memoryRejectPercent
     resumePercent := found.cfg.memoryResumePercent
     blocked := s.blocked || s.probeError.isSome
     readingRequests := s.readers
     readerLimit := found.cfg.requestReadConcurrency
     probeError := s.probeError }, s)

/-- `memory.rs:138`. -/
def rejection (status : MemoryStatus) (readerLimit : Bool) : MemoryRejection where
  error :=
    if status.probeError.isSome then
      ⟨503, "memory_probe_unavailable", "Actual memory usage is unavailable; retry later"⟩
    else if readerLimit then
      ⟨429, "request_read_limit",
        "Too many requests are reading or parsing their bodies; retry later"⟩
    else
      ⟨429, "memory_pressure",
        "Actual host or container memory usage is above the admission threshold; retry later"⟩
  status := status

/-- `memory.rs:171`. -/
def enter (s : State) (found : Found) : Except MemoryRejection Unit × State :=
  let (status, s) := s.statusLocked found true
  if status.blocked then (.error (rejection status false), s)
  else if status.readerLimit ≤ s.readers then (.error (rejection status true), s)
  else (.ok (), { s with readers := s.readers + 1 })

/-- `memory.rs:183`. -/
def check (s : State) (found : Found) (fresh : Bool) : Except MemoryRejection Unit × State :=
  let (status, s) := s.statusLocked found fresh
  if status.blocked then (.error (rejection status false), s) else (.ok (), s)

/-- `memory.rs:195`: a permit is dropped. -/
def dropPermit (s : State) : State := { s with readers := s.readers - 1, last := none }

/-! ### What sampling and judging leave -/

@[simp] theorem readers_sampled (s : State) (found : Found) (fresh : Bool) :
    (s.sampled found fresh).readers = s.readers := by
  unfold sampled takeSample
  split
  · split <;> rfl
  · rfl

@[simp] theorem blocked_sampled (s : State) (found : Found) (fresh : Bool) :
    (s.sampled found fresh).blocked = s.blocked := by
  unfold sampled takeSample
  split
  · split <;> rfl
  · rfl

@[simp] theorem readers_judge (s : State) (cfg : MemorySettings) :
    (s.judge cfg).readers = s.readers := by
  unfold judge
  split
  · rfl
  · split
    · rfl
    · split <;> rfl

@[simp] theorem probeError_judge (s : State) (cfg : MemorySettings) :
    (s.judge cfg).probeError = s.probeError := by
  unfold judge
  split
  · rfl
  · split
    · rfl
    · split <;> rfl

/-- A sample with a hot domain blocks. -/
theorem blocked_of_hot {s : State} {cfg : MemorySettings} {domains : List MemoryDomain}
    (hs : s.sample = some domains) (h : isHot cfg domains = true) :
    (s.judge cfg).blocked = true := by
  unfold judge
  rw [hs]
  dsimp only
  rw [if_pos h]

/-- Only a cool sample takes the block away. -/
theorem blocked_of_not_cool {s : State} {cfg : MemorySettings} (hs : s.blocked = true)
    (h : ∀ domains, s.sample = some domains → isCool cfg domains = false) :
    (s.judge cfg).blocked = true := by
  unfold judge
  split
  · exact hs
  · next domains hsample =>
    split
    · rfl
    · rw [if_neg (by rw [h domains hsample]; exact Bool.false_ne_true)]
      exact hs

/-- A domain cannot be hot and cool. -/
theorem not_hot_of_cool {cfg : MemorySettings} {domains : List MemoryDomain}
    (h : isCool cfg domains = true) : isHot cfg domains = false := by
  have hlt : (cfg.memoryResumePercent : Rat) < cfg.memoryRejectPercent := by
    exact_mod_cast cfg.valid
  refine List.any_eq_false.mpr fun d hd ↦ ?_
  have hle := of_decide_eq_true (List.all_eq_true.mp h d hd)
  rw [decide_eq_true_eq, not_le]
  exact hle.trans_lt hlt

/-- A cool sample leaves nothing blocked. -/
theorem not_blocked_of_cool {s : State} {cfg : MemorySettings} {domains : List MemoryDomain}
    (hs : s.sample = some domains) (h : isCool cfg domains = true) :
    (s.judge cfg).blocked = false := by
  unfold judge
  rw [hs]
  dsimp only
  rw [if_neg (by rw [not_hot_of_cool h]; exact Bool.false_ne_true), if_pos h]

/-- What a call that samples leaves of its failure. -/
theorem sampled_of_failed {s : State} {found : Found} {fresh : Bool}
    (hsamples : s.samples found.now fresh = true)
    (hprobe : found.probe.filter validSample = none) :
    (s.sampled found fresh).probeError.isSome = true := by
  unfold sampled takeSample
  rw [if_pos hsamples, hprobe]
  rfl

/-- What a call that samples leaves of a valid sample. -/
theorem sampled_of_valid {s : State} {found : Found} {fresh : Bool}
    {domains : List MemoryDomain} (hsamples : s.samples found.now fresh = true)
    (hprobe : found.probe.filter validSample = some domains) :
    (s.sampled found fresh).sample = some domains := by
  unfold sampled takeSample
  rw [if_pos hsamples, hprobe]

/-- Only a valid sample takes the failure away. -/
theorem probeError_sampled {s : State} {found : Found} {fresh : Bool}
    (hs : s.probeError.isSome = true)
    (h : s.samples found.now fresh = true → found.probe.filter validSample = none) :
    (s.sampled found fresh).probeError.isSome = true := by
  by_cases hsamples : s.samples found.now fresh = true
  · exact sampled_of_failed hsamples (h hsamples)
  · unfold sampled
    rw [if_neg hsamples]
    exact hs

/-- A sample that is kept is valid, and leaves no failure. -/
theorem sample_valid {s : State} (hs : ∀ domains, s.sample = some domains →
    validSample domains = true ∧ s.probeError = none) (found : Found) (fresh : Bool)
    {domains : List MemoryDomain} (h : (s.sampled found fresh).sample = some domains) :
    validSample domains = true ∧ (s.sampled found fresh).probeError = none := by
  unfold sampled takeSample at h ⊢
  split at h
  · next hsamples =>
    rw [if_pos hsamples]
    split at h
    · next domains' hprobe =>
      cases h
      exact ⟨(Option.filter_eq_some_iff.mp hprobe).2, rfl⟩
    · cases h
  · next hsamples =>
    rw [if_neg hsamples]
    exact hs domains h

/-- The state a call leaves, its readers apart. -/
def evaluated (s : State) (found : Found) (fresh : Bool) : State :=
  (s.sampled found fresh).judge found.cfg

@[simp] theorem sample_judge (s : State) (cfg : MemorySettings) :
    (s.judge cfg).sample = s.sample := by
  unfold judge
  split
  · rfl
  · split
    · rfl
    · split <;> rfl

/-- The sample is kept as it was checked. -/
def Kept (s : State) : Prop :=
  ∀ domains, s.sample = some domains → validSample domains = true ∧ s.probeError = none

private theorem kept_evaluated {s : State} (hs : s.Kept) (found : Found) (fresh : Bool) :
    (s.evaluated found fresh).Kept := by
  intro domains h
  unfold evaluated at h ⊢
  rw [sample_judge] at h
  rw [probeError_judge]
  exact sample_valid hs found fresh h

/-- A call is turned away exactly where the state it leaves is blocked or has no sample, or the
readers are at their limit. -/
theorem enter_eq (s : State) (found : Found) :
    (s.enter found).2 = s.evaluated found true ∧ (∃ r, (s.enter found).1 = .error r) ∧
        ((s.evaluated found true).blocked || (s.evaluated found true).probeError.isSome ||
          decide (found.cfg.requestReadConcurrency ≤ s.readers)) = true ∨
      (s.enter found) = (.ok (), { s.evaluated found true with readers := s.readers + 1 }) ∧
        (s.evaluated found true).blocked = false ∧ (s.evaluated found true).probeError = none ∧
        s.readers < found.cfg.requestReadConcurrency := by
  have hreaders : (s.evaluated found true).readers = s.readers := by simp [evaluated]
  by_cases hb : ((s.evaluated found true).blocked ||
      (s.evaluated found true).probeError.isSome) = true
  · have h : s.enter found = (.error (rejection (s.statusLocked found true).1 false),
        s.evaluated found true) := if_pos hb
    refine .inl ⟨by rw [h], ⟨_, by rw [h]⟩, ?_⟩
    rw [hb, Bool.true_or]
  · by_cases hl : found.cfg.requestReadConcurrency ≤ (s.evaluated found true).readers
    · have h : s.enter found = (.error (rejection (s.statusLocked found true).1 true),
          s.evaluated found true) := (if_neg hb).trans (if_pos hl)
      refine .inl ⟨by rw [h], ⟨_, by rw [h]⟩, ?_⟩
      rw [decide_eq_true (hreaders ▸ hl), Bool.or_true]
    · have h : s.enter found = (.ok (), { s.evaluated found true with
          readers := (s.evaluated found true).readers + 1 }) := (if_neg hb).trans (if_neg hl)
      rw [hreaders] at h hl
      rw [Bool.not_eq_true, Bool.or_eq_false_iff] at hb
      exact .inr ⟨h, hb.1, by simpa using hb.2, not_le.mp hl⟩

private theorem check_eq (s : State) (found : Found) (fresh : Bool) :
    (s.check found fresh).2 = s.evaluated found fresh ∧
      ((∃ r, (s.check found fresh).1 = .error r) ↔
        ((s.evaluated found fresh).blocked ||
          (s.evaluated found fresh).probeError.isSome) = true) := by
  by_cases hb : ((s.evaluated found fresh).blocked ||
      (s.evaluated found fresh).probeError.isSome) = true
  · have h : s.check found fresh = (.error (rejection (s.statusLocked found fresh).1 false),
        s.evaluated found fresh) := if_pos hb
    rw [h]
    exact ⟨rfl, fun _ ↦ hb, fun _ ↦ ⟨_, rfl⟩⟩
  · have h : s.check found fresh = (.ok (), s.evaluated found fresh) := if_neg hb
    rw [h]
    refine ⟨rfl, ?_, fun h ↦ absurd h hb⟩
    rintro ⟨r, hr⟩
    cases hr

end State

/-! ### Runs -/

/-- A call. A permit is dropped by its number, in the order of issue. -/
inductive Call where
  | enter
  | check (fresh : Bool)
  | status
  | drop (permit : Nat)
  deriving DecidableEq, Repr

/-- Whether a call goes by a fresh sample, for those that go by a sample. -/
def Call.fresh : Call → Option Bool
  | .enter => some true
  | .check fresh => some fresh
  | .status => some false
  | .drop _ => none

/-- The admission and the permits that are alive. -/
structure World where
  state : State := {}
  permits : List Nat := []
  issued : Nat := 0

namespace World

/-- What a call answers. -/
inductive Answer where
  | admitted (permit : Nat)
  | passed
  | rejected (rejection : MemoryRejection)
  | status (status : MemoryStatus)
  | dropped

/-- One call, with what it finds. A permit is owned, so it is dropped once at most. -/
def step (w : World) (call : Call) (found : Found) : Answer × World :=
  match call with
  | .enter =>
    match w.state.enter found with
    | (.ok (), s) => (.admitted w.issued, ⟨s, w.issued :: w.permits, w.issued + 1⟩)
    | (.error e, s) => (.rejected e, { w with state := s })
  | .check fresh =>
    match w.state.check found fresh with
    | (.ok (), s) => (.passed, { w with state := s })
    | (.error e, s) => (.rejected e, { w with state := s })
  | .status =>
    let (status, s) := w.state.statusLocked found false
    (.status status, { w with state := s })
  | .drop permit =>
    if permit ∈ w.permits then
      (.dropped, { w with state := w.state.dropPermit, permits := w.permits.erase permit })
    else (.dropped, w)

/-- A run of calls. -/
def run (w : World) (calls : List (Call × Found)) : World :=
  calls.foldl (fun w c ↦ (w.step c.1 c.2).2) w

/-! ### What calls find -/

/-- The sample a call judges. -/
def judged (w : World) (call : Call) (found : Found) : Option (List MemoryDomain) :=
  call.fresh.bind fun fresh ↦ (w.state.sampled found fresh).sample

/-- The call finds a domain at or above the upper limit in force. -/
def FindsHot (w : World) (call : Call) (found : Found) : Prop :=
  ∃ domains, w.judged call found = some domains ∧ isHot found.cfg domains = true

/-- The call finds every domain at or below the lower limit in force. -/
def FindsCool (w : World) (call : Call) (found : Found) : Prop :=
  ∃ domains, w.judged call found = some domains ∧ isCool found.cfg domains = true

/-- The call takes a sample, and it fails or is not valid. -/
def FailsToSample (w : World) (call : Call) (found : Found) : Prop :=
  ∃ fresh, call.fresh = some fresh ∧ w.state.samples found.now fresh = true ∧
    found.probe.filter validSample = none

/-- The call takes a valid sample. -/
def Samples (w : World) (call : Call) (found : Found) : Prop :=
  ∃ fresh domains, call.fresh = some fresh ∧ w.state.samples found.now fresh = true ∧
    found.probe = some domains ∧ validSample domains = true

/-- No call of a run does something. -/
def Never (p : World → Call → Found → Prop) : World → List (Call × Found) → Prop
  | _, [] => True
  | w, (call, found) :: rest => ¬ p w call found ∧ Never p (w.step call found).2 rest

/-- The calls that ask to be admitted. -/
def Asks (call : Call) : Prop := call = .enter ∨ ∃ fresh, call = .check fresh

/-- What holds of the admission at any time. -/
structure Guarded (w : World) : Prop where
  /-- The readers are the permits alive. -/
  readers : w.state.readers = w.permits.length ∧ w.permits.Nodup
  /-- A request enters below the limit, on a valid sample taken by that call. -/
  enters : ∀ found permit, (w.step .enter found).1 = .admitted permit →
    w.permits.length < found.cfg.requestReadConcurrency ∧
      ∃ domains, found.probe = some domains ∧ validSample domains = true ∧
        w.judged .enter found = some domains ∧ isHot found.cfg domains = false
  /-- A call that finds a domain too hot, or fails to sample, is rejected itself. -/
  itself : ∀ call found, w.FindsHot call found ∨ w.FailsToSample call found → Asks call →
    ∃ r, (w.step call found).1 = .rejected r
  /-- Once too hot, calls are rejected until all is cool. -/
  hot : ∀ call found, w.FindsHot call found → ∀ calls last lastFound,
    Never FindsCool (w.step call found).2 calls →
    ¬ ((w.step call found).2.run calls).FindsCool last lastFound → Asks last →
      ∃ r, (((w.step call found).2.run calls).step last lastFound).1 = .rejected r
  /-- Once sampling has failed, calls are rejected until it succeeds. -/
  failed : ∀ call found, w.FailsToSample call found → ∀ calls last lastFound,
    Never Samples (w.step call found).2 calls →
    ¬ ((w.step call found).2.run calls).Samples last lastFound → Asks last →
      ∃ r, (((w.step call found).2.run calls).step last lastFound).1 = .rejected r
  /-- Where all is cool, only the number of readers keeps a request out. -/
  cool : ∀ call found r, w.FindsCool call found → (w.step call found).1 = .rejected r →
    call = .enter ∧ found.cfg.requestReadConcurrency ≤ w.permits.length

/-! ### What a call leaves -/

private theorem step_check (w : World) (fresh : Bool) (found : Found) :
    (w.step (.check fresh) found).2 = { w with state := w.state.evaluated found fresh } := by
  rw [← (w.state.check_eq found fresh).1]
  dsimp only [step]
  rcases w.state.check found fresh with ⟨- | -, s⟩
  · rfl
  · rfl

/-- A call that goes by a sample leaves what it judged, with its readers. -/
theorem step_state (w : World) {call : Call} (found : Found) {fresh : Bool}
    (h : call.fresh = some fresh) : ∃ readers,
      (w.step call found).2.state = { w.state.evaluated found fresh with readers := readers } := by
  cases call with
  | enter =>
    cases h
    unfold step
    rcases w.state.enter_eq found with ⟨hs, ⟨r, hr⟩, -⟩ | ⟨hs, -⟩
    · rw [show w.state.enter found = (.error r, w.state.evaluated found true) from
        Prod.ext hr hs]
      exact ⟨_, rfl⟩
    · rw [hs]
      exact ⟨_, rfl⟩
  | check fresh' =>
    cases h
    exact ⟨_, by rw [step_check]⟩
  | status =>
    cases h
    exact ⟨_, rfl⟩
  | drop permit => cases h

private theorem step_drop (w : World) (permit : Nat) (found : Found) :
    ∃ readers last, (w.step (.drop permit) found).2.state =
      { w.state with readers := readers, last := last } := by
  unfold step
  dsimp only
  split
  · exact ⟨_, _, rfl⟩
  · exact ⟨_, _, rfl⟩

/-- What the block, the failure and the sample are after any call. -/
theorem step_kept {w : World} (hw : w.state.Kept) (call : Call) (found : Found) :
    (w.step call found).2.state.Kept := by
  cases hfresh : call.fresh with
  | some fresh =>
    obtain ⟨readers, hs⟩ := w.step_state found hfresh
    intro domains hsample
    rw [hs] at hsample ⊢
    exact State.kept_evaluated hw found fresh domains hsample
  | none =>
    cases call with
    | drop permit =>
      obtain ⟨readers, last, hs⟩ := w.step_drop permit found
      intro domains hsample
      rw [hs] at hsample ⊢
      exact hw domains hsample
    | enter => cases hfresh
    | check fresh => cases hfresh
    | status => cases hfresh

/-- The block stays where not all is found cool. -/
theorem step_blocked {w : World} (hw : w.state.blocked = true) {call : Call} {found : Found}
    (h : ¬ w.FindsCool call found) : (w.step call found).2.state.blocked = true := by
  cases hfresh : call.fresh with
  | some fresh =>
    obtain ⟨readers, hs⟩ := w.step_state found hfresh
    rw [hs]
    refine State.blocked_of_not_cool (by simpa using hw) fun domains hsample ↦ ?_
    rw [Bool.eq_false_iff]
    intro hcool
    refine h ⟨domains, ?_, hcool⟩
    unfold judged
    rw [hfresh]
    exact hsample
  | none =>
    cases call with
    | drop permit =>
      obtain ⟨readers, last, hs⟩ := w.step_drop permit found
      rw [hs]
      exact hw
    | enter => cases hfresh
    | check fresh => cases hfresh
    | status => cases hfresh

/-- The failure stays where no valid sample is taken. -/
theorem step_failed {w : World} (hw : w.state.probeError.isSome = true) {call : Call}
    {found : Found} (h : ¬ w.Samples call found) :
    (w.step call found).2.state.probeError.isSome = true := by
  cases hfresh : call.fresh with
  | some fresh =>
    obtain ⟨readers, hs⟩ := w.step_state found hfresh
    rw [hs]
    show ((w.state.sampled found fresh).judge found.cfg).probeError.isSome = true
    rw [State.probeError_judge]
    refine State.probeError_sampled hw fun hsamples ↦ ?_
    rw [Option.filter_eq_none_iff]
    intro domains hprobe hvalid
    exact h ⟨fresh, domains, hfresh, hsamples, hprobe, hvalid⟩
  | none =>
    cases call with
    | drop permit =>
      obtain ⟨readers, last, hs⟩ := w.step_drop permit found
      rw [hs]
      exact hw
    | enter => cases hfresh
    | check fresh => cases hfresh
    | status => cases hfresh

/-- A call that asks is rejected where it leaves a block or a failure. -/
theorem rejected {w : World} {call : Call} (hcall : Asks call) {found : Found}
    (h : ((w.step call found).2.state.blocked ||
      (w.step call found).2.state.probeError.isSome) = true) :
    ∃ r, (w.step call found).1 = .rejected r := by
  rcases hcall with rfl | ⟨fresh, rfl⟩
  · rcases w.state.enter_eq found with ⟨-, ⟨r, hr⟩, -⟩ | ⟨hs, hblocked, hfailed, -⟩
    · refine ⟨r, ?_⟩
      unfold step
      rw [show w.state.enter found = (.error r, (w.state.enter found).2) from Prod.ext hr rfl]
    · unfold step at h
      rw [hs] at h
      simp [hblocked, hfailed] at h
  · rw [step_check] at h
    obtain ⟨r, hr⟩ := (w.state.check_eq found fresh).2.mpr h
    refine ⟨r, ?_⟩
    dsimp only [step]
    rw [show w.state.check found fresh = (.error r, (w.state.check found fresh).2) from
      Prod.ext hr rfl]

/-- What holds of the admission over its life. -/
structure Lives (w : World) : Prop where
  readers : w.state.readers = w.permits.length
  nodup : w.permits.Nodup
  issued : ∀ permit ∈ w.permits, permit < w.issued
  kept : w.state.Kept

private theorem Lives.new : Lives {} where
  readers := rfl
  nodup := List.nodup_nil
  issued := fun _ h ↦ absurd h List.not_mem_nil
  kept := fun _ h ↦ by cases h

/-- The readers and the permits change together. -/
theorem Lives.step {w : World} (h : Lives w) (call : Call) (found : Found) :
    Lives (w.step call found).2 := by
  have hkept := w.step_kept h.kept call found
  have hsame : ∀ fresh, (w.state.evaluated found fresh).readers = w.permits.length := by
    intro fresh
    rw [← h.readers]
    simp [State.evaluated]
  cases call with
  | enter =>
    dsimp only [World.step] at hkept ⊢
    rcases w.state.enter_eq found with ⟨hs, ⟨r, hr⟩, -⟩ | ⟨hs, -⟩
    · rw [show w.state.enter found = (.error r, w.state.evaluated found true) from
        Prod.ext hr hs] at hkept ⊢
      exact ⟨hsame true, h.nodup, h.issued, hkept⟩
    · rw [hs] at hkept ⊢
      refine ⟨congrArg (· + 1) h.readers, ?_, ?_, hkept⟩
      · refine List.nodup_cons.mpr ⟨fun hmem ↦ ?_, h.nodup⟩
        exact lt_irrefl _ (h.issued _ hmem)
      · intro permit hmem
        rcases List.mem_cons.mp hmem with rfl | hmem
        · exact Nat.lt_succ_self _
        · exact (h.issued _ hmem).trans (Nat.lt_succ_self _)
  | check fresh =>
    rw [step_check] at hkept ⊢
    exact ⟨hsame fresh, h.nodup, h.issued, hkept⟩
  | status => exact ⟨hsame false, h.nodup, h.issued, hkept⟩
  | drop permit =>
    dsimp only [World.step] at hkept ⊢
    by_cases hmem : permit ∈ w.permits
    · rw [if_pos hmem] at hkept ⊢
      refine ⟨?_, h.nodup.erase _, fun p hp ↦ h.issued p (List.mem_of_mem_erase hp), hkept⟩
      show w.state.readers - 1 = (w.permits.erase permit).length
      rw [List.length_erase_of_mem hmem, h.readers]
    · rw [if_neg hmem] at hkept ⊢
      exact h

private theorem Lives.run {w : World} (h : Lives w) (calls : List (Call × Found)) :
    Lives (w.run calls) := by
  induction calls generalizing w with
  | nil => exact h
  | cons c calls ih => exact ih (h.step c.1 c.2)

/-- A block lasts as long as not all is found cool. -/
theorem run_blocked {w : World} (hw : w.state.blocked = true) {calls : List (Call × Found)}
    (h : Never FindsCool w calls) : (w.run calls).state.blocked = true := by
  induction calls generalizing w with
  | nil => exact hw
  | cons c calls ih => exact ih (step_blocked hw h.1) h.2

/-- A failure lasts as long as no valid sample is taken. -/
theorem run_failed {w : World} (hw : w.state.probeError.isSome = true)
    {calls : List (Call × Found)} (h : Never Samples w calls) :
    (w.run calls).state.probeError.isSome = true := by
  induction calls generalizing w with
  | nil => exact hw
  | cons c calls ih => exact ih (step_failed hw h.1) h.2

/-- A request that is admitted goes by its own sample. -/
theorem enter_admitted {w : World} {found : Found} {permit : Nat}
    (h : (w.step .enter found).1 = .admitted permit) :
    w.state.readers < found.cfg.requestReadConcurrency ∧
      ∃ domains, found.probe = some domains ∧ validSample domains = true ∧
        w.judged .enter found = some domains ∧ isHot found.cfg domains = false := by
  dsimp only [World.step] at h
  rcases w.state.enter_eq found with ⟨hs, ⟨r, hr⟩, -⟩ | ⟨-, hblocked, hfailed, hlimit⟩
  · rw [show w.state.enter found = (.error r, w.state.evaluated found true) from
      Prod.ext hr hs] at h
    cases h
  · refine ⟨hlimit, ?_⟩
    cases hprobe : found.probe.filter validSample with
    | none =>
      have hisSome := @State.sampled_of_failed w.state found true rfl hprobe
      rw [State.evaluated, State.probeError_judge] at hfailed
      rw [hfailed] at hisSome
      cases hisSome
    | some domains =>
      have hsample := @State.sampled_of_valid w.state found true domains rfl hprobe
      obtain ⟨hsome, hvalid⟩ := Option.filter_eq_some_iff.mp hprobe
      refine ⟨domains, hsome, hvalid, hsample, ?_⟩
      rw [Bool.eq_false_iff]
      intro hhot
      rw [State.evaluated, State.blocked_of_hot hsample hhot] at hblocked
      cases hblocked

/-- A call that finds a domain too hot leaves a block. -/
theorem blocked_of_findsHot {w : World} {call : Call} {found : Found}
    (h : w.FindsHot call found) : (w.step call found).2.state.blocked = true := by
  obtain ⟨domains, hsample, hhot⟩ := h
  obtain ⟨fresh, hfresh, hsample⟩ := Option.bind_eq_some_iff.mp hsample
  obtain ⟨readers, hs⟩ := w.step_state found hfresh
  rw [hs]
  exact State.blocked_of_hot hsample hhot

/-- A call that fails to sample leaves a failure. -/
theorem failed_of_failsToSample {w : World} {call : Call} {found : Found}
    (h : w.FailsToSample call found) :
    (w.step call found).2.state.probeError.isSome = true := by
  obtain ⟨fresh, hfresh, hsamples, hprobe⟩ := h
  obtain ⟨readers, hs⟩ := w.step_state found hfresh
  rw [hs]
  show ((w.state.sampled found fresh).judge found.cfg).probeError.isSome = true
  rw [State.probeError_judge]
  exact State.sampled_of_failed hsamples hprobe

/-- Where all is cool nothing is left but the limit of the readers. -/
theorem rejected_of_findsCool {w : World} (hw : w.state.Kept) {call : Call} {found : Found}
    {r : MemoryRejection} (h : w.FindsCool call found)
    (hr : (w.step call found).1 = .rejected r) :
    call = .enter ∧ found.cfg.requestReadConcurrency ≤ w.state.readers := by
  obtain ⟨domains, hsample, hcool⟩ := h
  obtain ⟨fresh, hfresh, hsample⟩ := Option.bind_eq_some_iff.mp hsample
  have hopen : ((w.state.evaluated found fresh).blocked ||
      (w.state.evaluated found fresh).probeError.isSome) = false := by
    rw [Bool.or_eq_false_iff]
    refine ⟨State.not_blocked_of_cool hsample hcool, ?_⟩
    rw [State.evaluated, State.probeError_judge,
      (State.sample_valid hw found fresh hsample).2]
    rfl
  cases call with
  | enter =>
    cases hfresh
    rcases w.state.enter_eq found with ⟨-, -, hreason⟩ | ⟨hs, -⟩
    · rw [hopen, Bool.false_or, decide_eq_true_eq] at hreason
      exact ⟨rfl, hreason⟩
    · dsimp only [World.step] at hr
      rw [hs] at hr
      cases hr
  | check fresh' =>
    cases hfresh
    dsimp only [World.step] at hr
    split at hr
    · cases hr
    · next e s hcheck =>
      have hblocked := (w.state.check_eq found fresh).2.mp ⟨e, by rw [hcheck]⟩
      rw [hopen] at hblocked
      cases hblocked
  | status => cases hr
  | drop permit => cases hfresh

/-- Admission is exact and has hysteresis, at any time of any run. -/
theorem memory_guarded (calls : List (Call × Found)) : Guarded (run {} calls) := by
  have hlives := Lives.new.run calls
  generalize run {} calls = w at hlives
  refine ⟨⟨hlives.readers, hlives.nodup⟩, ?_, ?_, ?_, ?_, ?_⟩
  · intro found permit hstep
    rw [← hlives.readers]
    exact enter_admitted hstep
  · rintro call found (hhot | hfails) hasks
    · exact rejected hasks (by rw [blocked_of_findsHot hhot, Bool.true_or])
    · exact rejected hasks (by rw [failed_of_failsToSample hfails, Bool.or_true])
  · intro call found hhot calls last lastFound hnever hlast hasks
    have hblocked := step_blocked (run_blocked (blocked_of_findsHot hhot) hnever) hlast
    exact rejected hasks (by rw [hblocked, Bool.true_or])
  · intro call found hfails calls last lastFound hnever hlast hasks
    have hfailed := step_failed (run_failed (failed_of_failsToSample hfails) hnever) hlast
    exact rejected hasks (by rw [hfailed, Bool.or_true])
  · intro call found r hcool hr
    rw [← hlives.readers]
    exact rejected_of_findsCool hlives.kept hcool hr

end World
end MemoryAdmission
end Xxgate.Core
