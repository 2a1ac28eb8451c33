import Mathlib.Data.List.Induction
import Mathlib.Tactic.Ring
import Xxgate.Base.Nullable
import Xxgate.Store.Accounting

/-!
# The spending report

`crates/xxgate-postgres/src/account_spending.sql`. The report of an account adds up the
hourly totals inside a window and the single entries of the two hours its bounds fall into.
The totals roll up the entries after any transactions, and so the report is what adding up
the entries of the window one by one gives.
-/

namespace Xxgate.Store

open Xxgate.Base Xxgate.Core FiniteMap
open PgStore

/-! ### The query -/

/-- `account_spending.sql:5`: a window of the report, with its bounds in microseconds. The lower
one is exclusive, and a null bound admits nothing. -/
structure Window where
  label : String
  startsAt : Option Int
  endsAt : Option Int
  mainOnly : Bool

/-- A row of `parts`. -/
structure Part where
  cny : Option Rat
  requests : Nat
  unpriced : Nat
  inputTokens : Option Nat
  outputTokens : Option Nat
  missingTokens : Nat

/-- `account_spending.sql:25–28`: the part of an hour. -/
def Part.ofHour (mainOnly : Bool) (h : Spending) : Part where
  cny := some (if mainOnly then h.codexCny else h.cny)
  requests := if mainOnly then h.codexRequests else h.requests
  unpriced := if mainOnly then h.codexUnpriced else h.unpriced
  inputTokens := h.inputTokens
  outputTokens := h.outputTokens
  missingTokens := h.missingTokens

/-- `account_spending.sql:32–33`: the part of a single entry. -/
def Part.ofEntry (e : SpendingEntry) : Part where
  cny := e.cny
  requests := 1
  unpriced := e.cny.isNone.toNat
  inputTokens := e.inputTokens
  outputTokens := e.outputTokens
  missingTokens := (e.inputTokens.isNone || e.outputTokens.isNone).toNat

/-- An hour in microseconds. -/
def microsecondsPerHour : Int := 3600000000

/-- `date_trunc('hour', instant)` for a bound, as `hourOf` for an instant. -/
def hourOfBound (instant : Int) : Int := instant / microsecondsPerHour

namespace PgStore

/-- `account_spending.sql:24–47`: the hours inside the bounds, the entries of the first hour, and
those of the last one when it is another. -/
def parts (s : PgStore) (account : Uuid) (startsAt endsAt : Int) (mainOnly : Bool) : List Part :=
  let startHour := hourOfBound startsAt
  let endHour := hourOfBound endsAt
  let hours := s.spending.filter fun k _ ↦
    k.1 == account && decide (startHour < k.2) && decide ((k.2 : Int) < endHour)
  let first := s.entries.values.filter fun e ↦
    e.accountId == account && decide (startsAt < e.finishedAt) &&
      decide ((e.finishedAt : Int) < (startHour + 1) * microsecondsPerHour) &&
      decide ((e.finishedAt : Int) ≤ endsAt) && (!mainOnly || e.codexMain)
  let last := s.entries.values.filter fun e ↦
    e.accountId == account && decide (startHour < endHour) &&
      decide (endHour * microsecondsPerHour ≤ e.finishedAt) &&
      decide ((e.finishedAt : Int) ≤ endsAt) && (!mainOnly || e.codexMain)
  hours.values.map (Part.ofHour mainOnly) ++ first.map Part.ofEntry ++ last.map Part.ofEntry

/-- `account_reports.rs:13`. -/
structure SpendingTotal where
  label : String
  cny : Rat
  requests : Nat
  unpriced : Nat
  inputTokens : Option Nat
  outputTokens : Option Nat
  missingTokens : Nat
  deriving DecidableEq

/-- `account_spending.sql:17–23`. -/
def totals (label : String) (parts : List Part) : SpendingTotal :=
  let requests := (Nullable.sum (parts.map fun p ↦ some p.requests)).getD 0
  { label := label
    cny := (Nullable.sum (parts.map (·.cny))).getD 0
    requests := requests
    unpriced := (Nullable.sum (parts.map fun p ↦ some p.unpriced)).getD 0
    inputTokens :=
      if requests = 0 then some 0 else Nullable.sum (parts.map (·.inputTokens))
    outputTokens :=
      if requests = 0 then some 0 else Nullable.sum (parts.map (·.outputTokens))
    missingTokens := (Nullable.sum (parts.map fun p ↦ some p.missingTokens)).getD 0 }

/-- `account_spending.sql:15–48`: the totals of one window. -/
def windowTotal (s : PgStore) (account : Uuid) (w : Window) : SpendingTotal :=
  totals w.label <|
    match w.startsAt, w.endsAt with
    | some startsAt, some endsAt => s.parts account startsAt endsAt w.mainOnly
    | _, _ => []

/-! ### Adding up one by one -/

/-- The entry is one of the account's in the window. -/
def within (account : Uuid) (startsAt endsAt : Int) (mainOnly : Bool) (e : SpendingEntry) : Bool :=
  e.accountId == account && decide (startsAt < e.finishedAt) &&
    decide ((e.finishedAt : Int) ≤ endsAt) && (!mainOnly || e.codexMain)

/-- Token counts added up with unknown ones as zero: unknown when all of some are. -/
def tokens (counts : List (Option Nat)) : Option Nat :=
  if counts = [] then some 0
  else if counts.all Option.isNone then none
  else some (counts.map (·.getD 0)).sum

/-- The totals of a window, entry by entry. -/
def directTotal (s : PgStore) (label : String) (account : Uuid) (startsAt endsAt : Int)
    (mainOnly : Bool) : SpendingTotal :=
  let entries := s.entries.values.filter (within account startsAt endsAt mainOnly)
  { label := label
    cny := (entries.map (·.cny.getD 0)).sum
    requests := entries.length
    unpriced := entries.countP (·.cny.isNone)
    inputTokens := tokens (entries.map (·.inputTokens))
    outputTokens := tokens (entries.map (·.outputTokens))
    missingTokens := entries.countP fun e ↦ e.inputTokens.isNone || e.outputTokens.isNone }

end PgStore

/-! ### The totals of the hours -/

/-- Every hourly total is that of the entries of its hour. -/
def RolledUp (s : PgStore) : Prop :=
  Rolled mergeSpending spendingKey spendingShare (fun _ ↦ True) s.spending s.entries.values

private theorem summand_mergeTokens (a b : Option Nat) :
    Nullable.summand (mergeTokens a b) = Nullable.summand a + Nullable.summand b := by
  cases a with
  | none =>
    cases b with
    | none => rfl
    | some b => exact congrArg some (Nat.zero_add b)
  | some a => cases b <;> rfl

private theorem mergeTokens_comm (a b : Option Nat) : mergeTokens a b = mergeTokens b a :=
  (summand_mergeTokens a b).trans ((add_comm _ _).trans (summand_mergeTokens b a).symm)

private theorem mergeTokens_assoc (a b c : Option Nat) :
    mergeTokens (mergeTokens a b) c = mergeTokens a (mergeTokens b c) := by
  change Nullable.summand (mergeTokens (mergeTokens a b) c) =
    Nullable.summand (mergeTokens a (mergeTokens b c))
  rw [summand_mergeTokens, summand_mergeTokens, summand_mergeTokens, summand_mergeTokens, add_assoc]

instance : Std.Commutative mergeSpending where
  comm := fun a b ↦ by
    simp only [mergeSpending, Spending.mk.injEq]
    exact ⟨add_comm .., add_comm .., add_comm .., add_comm .., add_comm .., add_comm ..,
      mergeTokens_comm .., mergeTokens_comm .., add_comm ..⟩

instance : Std.Associative mergeSpending where
  assoc := fun a b c ↦ by
    simp only [mergeSpending, Spending.mk.injEq]
    exact ⟨add_assoc .., add_assoc .., add_assoc .., add_assoc .., add_assoc .., add_assoc ..,
      mergeTokens_assoc .., mergeTokens_assoc .., add_assoc ..⟩

namespace RolledUp

variable {s s' : PgStore}

/-- A new entry is counted in its hour. -/
theorem incrementSpending (h : RolledUp s) (id : Uuid) (entry : SpendingEntry) :
    RolledUp (s.incrementSpending id entry) := by
  unfold PgStore.incrementSpending
  split
  · exact h
  · next hnew =>
    have habsent : s.entries.lookup id = none := AList.lookup_eq_none.mpr hnew
    have hperm : (s.entries.values ++ [entry]).Perm (values (s.entries.insert id entry)) := by
      rw [values_insert, values_erase_of_absent _ habsent]
      exact List.perm_append_singleton _ _
    exact (h.accumulate entry).perm hperm

/-- Billing counts the entry of a request, if it has one. -/
theorem bill (h : RolledUp s) (now : Nat) (r : RequestRecord) (row : Row) :
    RolledUp (s.bill now r row) := by
  cases ha : r.accountId with
  | none =>
    unfold PgStore.bill
    rw [ha]
    exact h
  | some account =>
    have hcounted := h.incrementSpending r.id (spendingEntry r account (r.finishedAt.getD now))
    have hsame : (s.bill now r row).spending = (s.incrementSpending r.id
          (spendingEntry r account (r.finishedAt.getD now))).spending ∧
        (s.bill now r row).entries = (s.incrementSpending r.id
          (spendingEntry r account (r.finishedAt.getD now))).entries := by
      unfold PgStore.bill PgStore.incrementSpending
      rw [ha]
      dsimp only [appendEvent]
      split <;> exact ⟨rfl, rfl⟩
    unfold RolledUp
    rw [hsame.1, hsame.2]
    exact hcounted

/-- Cleaning up drops whole hours of both tables. -/
theorem cleanup (h : RolledUp s) (now retentionDays : Nat) :
    RolledUp (s.cleanup now retentionDays) := by
  have hd := Rolled.drop h fun k ↦ decide (hourOf (now - 31 * 86400000000) ≤ k.2)
  unfold RolledUp
  have hvalues : (s.cleanup now retentionDays).entries.values = s.entries.values.filter
      fun e ↦ decide (hourOf (now - 31 * 86400000000) ≤ hourOf e.finishedAt) :=
    values_filter ..
  rw [hvalues]
  exact hd

end RolledUp

/-! ### The report against the entries -/

/-- Adding up over a filtered list is adding up with zero for what is filtered out. -/
theorem sum_filter {α M : Type} [AddCommMonoid M] (l : List α) (p : α → Bool) (g : α → M) :
    ((l.filter p).map g).sum = (l.map fun a ↦ if p a then g a else 0).sum := by
  induction l with
  | nil => rfl
  | cons a l ih =>
    rw [List.filter_cons, List.map_cons, List.sum_cons, ← ih]
    split
    · rw [List.map_cons, List.sum_cons]
    · rw [zero_add]

/-- At most one of three exclusive cases contributes. -/
theorem sum_exclusive {M : Type} [AddCommMonoid M] {p q r : Prop} [Decidable p] [Decidable q]
    [Decidable r] (hpq : p → ¬q) (hpr : p → ¬r) (hqr : q → ¬r) (x : M) :
    (if p then x else 0) + (if q then x else 0) + (if r then x else 0) =
      if p ∨ q ∨ r then x else 0 := by
  by_cases hp : p
  · rw [if_pos hp, if_neg (hpq hp), if_neg (hpr hp), if_pos (.inl hp), add_zero, add_zero]
  · rw [if_neg hp, zero_add]
    by_cases hq : q
    · rw [if_pos hq, if_neg (hqr hq), if_pos (.inr (.inl hq)), add_zero]
    · rw [if_neg hq, zero_add]
      exact if_congr (by simp only [hp, hq, false_or]) rfl rfl

/-- The three ranges of a window tile it: an entry lies in one of them when it lies in the window,
and in none otherwise. -/
theorem sum_tile {M : Type} [AddCommMonoid M] (account : Uuid) (startsAt endsAt : Int)
    (mainOnly : Bool) (e : SpendingEntry) (x : M) :
    ((if (spendingKey e).1 == account && decide (hourOfBound startsAt < (spendingKey e).2) &&
          decide (((spendingKey e).2 : Int) < hourOfBound endsAt) then
        if !mainOnly || e.codexMain then x else 0
      else 0) +
      if e.accountId == account && decide (startsAt < e.finishedAt) &&
          decide ((e.finishedAt : Int) < (hourOfBound startsAt + 1) * microsecondsPerHour) &&
          decide ((e.finishedAt : Int) ≤ endsAt) && (!mainOnly || e.codexMain) then x else 0) +
      (if e.accountId == account && decide (hourOfBound startsAt < hourOfBound endsAt) &&
          decide (hourOfBound endsAt * microsecondsPerHour ≤ e.finishedAt) &&
          decide ((e.finishedAt : Int) ≤ endsAt) && (!mainOnly || e.codexMain) then x else 0) =
      if within account startsAt endsAt mainOnly e then x else 0 := by
  unfold within spendingKey hourOf hourOfBound microsecondsPerHour
  simp only [Bool.and_eq_true, beq_iff_eq, decide_eq_true_eq]
  rw [← ite_and, sum_exclusive (by omega) (by omega) (by omega)]
  refine if_congr ?_ rfl rfl
  -- the account and the model are the same in all of them, and the instants tile
  by_cases ha : e.accountId = account
  · by_cases hm : (!mainOnly || e.codexMain) = true
    · simp only [ha, hm, true_and, and_true]
      omega
    · simp only [hm, Bool.false_eq_true, and_false, or_false]
  · simp only [ha, false_and, or_false]

/-- The parts of a window add up as its entries do, in every measure that adds up over hours. -/
theorem sum_parts {s : PgStore} (h : RolledUp s) {M : Type} [AddCommMonoid M] {g : Part → M}
    {mainOnly : Bool}
    (hadd : ∀ a b, g (.ofHour mainOnly (mergeSpending a b)) =
      g (.ofHour mainOnly a) + g (.ofHour mainOnly b))
    (hshare : ∀ e, g (.ofHour mainOnly (spendingShare e)) =
      if !mainOnly || e.codexMain then g (.ofEntry e) else 0)
    (account : Uuid) (startsAt endsAt : Int) :
    ((s.parts account startsAt endsAt mainOnly).map g).sum =
      ((s.entries.values.filter (within account startsAt endsAt mainOnly)).map
        fun e ↦ g (.ofEntry e)).sum := by
  have hhours := Rolled.sum_values (f := g ∘ Part.ofHour mainOnly) hadd (Rolled.drop h fun k ↦
    k.1 == account && decide (hourOfBound startsAt < k.2) &&
      decide ((k.2 : Int) < hourOfBound endsAt))
  unfold parts
  simp only [List.map_append, List.sum_append, List.map_map]
  rw [hhours, sum_filter, sum_filter, sum_filter, sum_filter, ← List.sum_map_add,
    ← List.sum_map_add]
  refine congrArg _ (List.map_congr_left fun e _ ↦ ?_)
  simp only [Function.comp_apply, hshare]
  exact sum_tile account startsAt endsAt mainOnly e (g (.ofEntry e))

/-- A count of entries as a sum. -/
theorem sum_toNat {α : Type} (l : List α) (p : α → Bool) :
    (l.map fun a ↦ (p a).toNat).sum = l.countP p := by
  induction l with
  | nil => rfl
  | cons a l ih =>
    rw [List.map_cons, List.sum_cons, ih, List.countP_cons, Nat.add_comm]
    cases p a <;> rfl

section Columns

variable {s : PgStore} (h : RolledUp s) (account : Uuid) (startsAt endsAt : Int) (mainOnly : Bool)

include h

private theorem sum_cny :
    (Nullable.sum ((s.parts account startsAt endsAt mainOnly).map (·.cny))).getD 0 =
      ((s.entries.values.filter (within account startsAt endsAt mainOnly)).map
        (·.cny.getD 0)).sum := by
  rw [Nullable.getD_sum, List.map_map]
  refine sum_parts h (g := fun p ↦ p.cny.getD 0) ?_ ?_ account startsAt endsAt
  · intro a b
    cases mainOnly <;> rfl
  · intro e
    cases mainOnly <;> rfl

private theorem sum_requests :
    (Nullable.sum ((s.parts account startsAt endsAt mainOnly).map fun p ↦ some p.requests)).getD 0 =
      (s.entries.values.filter (within account startsAt endsAt mainOnly)).length := by
  rw [Nullable.getD_sum, List.map_map]
  refine (sum_parts h (g := fun p ↦ p.requests) ?_ ?_ account startsAt endsAt).trans ?_
  · intro a b
    cases mainOnly <;> rfl
  · intro e
    cases mainOnly with
    | false => rfl
    | true => cases he : e.codexMain <;> simp [Part.ofHour, Part.ofEntry, spendingShare, he]
  · exact (sum_toNat _ fun _ ↦ true).trans (congrFun List.countP_true _)

private theorem sum_unpriced :
    (Nullable.sum ((s.parts account startsAt endsAt mainOnly).map fun p ↦ some p.unpriced)).getD 0 =
      (s.entries.values.filter (within account startsAt endsAt mainOnly)).countP
        (·.cny.isNone) := by
  rw [Nullable.getD_sum, List.map_map]
  refine (sum_parts h (g := fun p ↦ p.unpriced) ?_ ?_ account startsAt endsAt).trans ?_
  · intro a b
    cases mainOnly <;> rfl
  · intro e
    cases mainOnly with
    | false => rfl
    | true => cases he : e.codexMain <;> simp [Part.ofHour, Part.ofEntry, spendingShare, he]
  · exact sum_toNat _ _

private theorem sum_missingTokens :
    (Nullable.sum ((s.parts account startsAt endsAt false).map fun p ↦
        some p.missingTokens)).getD 0 =
      (s.entries.values.filter (within account startsAt endsAt false)).countP fun e ↦
        e.inputTokens.isNone || e.outputTokens.isNone := by
  rw [Nullable.getD_sum, List.map_map]
  refine (sum_parts h (g := fun p ↦ p.missingTokens) ?_ ?_ account startsAt endsAt).trans ?_
  · intro a b
    rfl
  · intro e
    rfl
  · exact sum_toNat _ _

/-- A column of tokens adds up over the hours as over the entries. -/
theorem sum_tokens (ofPart : Part → Option Nat) (ofEntry : SpendingEntry → Option Nat)
    (hadd : ∀ a b, ofPart (.ofHour false (mergeSpending a b)) =
      mergeTokens (ofPart (.ofHour false a)) (ofPart (.ofHour false b)))
    (hshare : ∀ e, ofPart (.ofHour false (spendingShare e)) = ofEntry e)
    (hentry : ∀ e, ofPart (.ofEntry e) = ofEntry e) :
    Nullable.sum ((s.parts account startsAt endsAt false).map ofPart) =
      Nullable.sum ((s.entries.values.filter (within account startsAt endsAt false)).map
        ofEntry) := by
  unfold Nullable.sum
  rw [List.map_map, List.map_map]
  refine (sum_parts h (g := fun p ↦ Nullable.summand (ofPart p)) ?_ ?_ account startsAt
    endsAt).trans ?_
  · intro a b
    rw [hadd, summand_mergeTokens]
  · intro e
    rw [hshare, hentry]
    rfl
  · exact congrArg _ (List.map_congr_left fun e _ ↦ congrArg _ (hentry e))

end Columns

/-- Adding up token counts as the query does. -/
theorem tokens_eq (counts : List (Option Nat)) :
    tokens counts = if counts.length = 0 then some 0 else Nullable.sum counts := by
  unfold tokens
  rw [Nullable.sum_eq]
  exact if_congr List.length_eq_zero_iff.symm rfl rfl

/-- The report gives for each window the totals of its entries; those of the main model leave
the tokens out. -/
theorem windowTotal_eq {s : PgStore} (h : RolledUp s) (account : Uuid) (label : String)
    (startsAt endsAt : Int) (mainOnly : Bool) :
    let reported := s.windowTotal account ⟨label, some startsAt, some endsAt, mainOnly⟩
    let direct := s.directTotal label account startsAt endsAt mainOnly
    reported.label = direct.label ∧ reported.cny = direct.cny ∧
      reported.requests = direct.requests ∧ reported.unpriced = direct.unpriced ∧
      (mainOnly = false → reported = direct) := by
  have hcny := sum_cny h account startsAt endsAt mainOnly
  have hrequests := sum_requests h account startsAt endsAt mainOnly
  have hunpriced := sum_unpriced h account startsAt endsAt mainOnly
  refine ⟨rfl, hcny, hrequests, hunpriced, ?_⟩
  rintro rfl
  have hmissing := sum_missingTokens h account startsAt endsAt
  have hinput := sum_tokens h account startsAt endsAt Part.inputTokens
    SpendingEntry.inputTokens (fun _ _ ↦ rfl) (fun _ ↦ rfl) fun _ ↦ rfl
  have houtput := sum_tokens h account startsAt endsAt Part.outputTokens
    SpendingEntry.outputTokens (fun _ _ ↦ rfl) (fun _ ↦ rfl) fun _ ↦ rfl
  unfold windowTotal directTotal totals
  simp only [hcny, hrequests, hunpriced, hmissing, hinput, houtput, tokens_eq, List.length_map]

/-! ### Runs of transactions -/

/-- The transactions that write what the report reads, and those that begin the requests. -/
inductive Transaction where
  | beginRequest (now : Nat) (r : RequestRecord)
  | finishRequest (now : Nat) (r : RequestRecord)
  | cleanup (now retentionDays : Nat)

namespace Transaction

/-- The request a transaction begins. -/
def begun : Transaction → Option Uuid
  | .beginRequest _ r => some r.id
  | .finishRequest .. | .cleanup .. => none

/-- The tables after a transaction. A refused one leaves them as they are. -/
def apply (s : PgStore) : Transaction → PgStore
  | .beginRequest now r => (settle .answered s (s.beginRequest now r)).1
  | .finishRequest now r => (settle .answered s (s.finishRequest now r)).1
  | .cleanup now retentionDays => s.cleanup now retentionDays

/-- Entries of the hour outlive the transaction. -/
def keeps (hour : Nat) : Transaction → Bool
  | .cleanup now _ => decide (hourOf (now - 31 * 86400000000) ≤ hour)
  | .beginRequest .. | .finishRequest .. => true

/-- The tables after some transactions, oldest first. -/
def run (txs : List Transaction) : PgStore := txs.foldl apply .empty

private theorem run_concat (txs : List Transaction) (tx : Transaction) :
    run (txs ++ [tx]) = apply (run txs) tx := by
  unfold run
  rw [List.foldl_append]
  rfl

/-- Finishing the request now takes effect. -/
def Finishes (s : PgStore) (r : RequestRecord) : Prop :=
  (s.unfinished r.id).isSome = true ∧ r.usage.searchCalls < 2 ^ 63

end Transaction

open Transaction

/-- The tables in the middle of a run, when the requests begun so far are these. -/
structure Books (s : PgStore) (requests : List Uuid) : Prop where
  accounted : Accounted s
  rolledUp : RolledUp s
  rows : ∀ id ∈ s.rows, id ∈ requests
  billed : ∀ r ∈ s.billed, r.id ∈ requests

/-- An effective finish bills the request. -/
theorem apply_finish {s : PgStore} (now : Nat) {r : RequestRecord} (h : Finishes s r) :
    ∃ row, s.unfinished r.id = some row ∧ apply s (.finishRequest now r) = s.bill now r row := by
  obtain ⟨row, hrow⟩ := Option.isSome_iff_exists.mp h.1
  refine ⟨row, hrow, ?_⟩
  have hok : s.finishRequest now r = .ok (s.bill now r row) := by
    unfold PgStore.finishRequest
    rw [hrow]
    exact if_neg (Nat.not_le_of_lt h.2)
  change (settle .answered s (s.finishRequest now r)).1 = _
  rw [hok]
  rfl

/-- A finish without effect leaves the tables. -/
theorem apply_finish_idle {s : PgStore} {now : Nat} {r : RequestRecord} (h : ¬Finishes s r) :
    apply s (.finishRequest now r) = s := by
  change (settle .answered s (s.finishRequest now r)).1 = s
  unfold PgStore.finishRequest
  cases hrow : s.unfinished r.id with
  | none => rfl
  | some row =>
    have hlimit : 2 ^ 63 ≤ r.usage.searchCalls :=
      Nat.le_of_not_lt fun hlt ↦ h ⟨Option.isSome_iff_exists.mpr ⟨row, hrow⟩, hlt⟩
    dsimp only
    rw [if_pos hlimit]
    rfl

/-- Beginning a request writes its row at most. -/
theorem apply_begin (s : PgStore) (now : Nat) (r : RequestRecord) :
    apply s (.beginRequest now r) = s ∨
      s.beginRequest now r = .ok (apply s (.beginRequest now r)) :=
  settle_store ..

/-- What beginning a request leaves alone. -/
theorem beginRequest_tables {s s' : PgStore} {now : Nat} {r : RequestRecord}
    (h : s.beginRequest now r = .ok s') :
    s'.entries = s.entries ∧ s'.spending = s.spending ∧ s'.billed = s.billed ∧
      ∀ id ∈ s'.rows, id ∈ s.rows ∨ id = r.id := by
  unfold PgStore.beginRequest at h
  split at h
  · cases h
  · cases h
    refine ⟨rfl, rfl, rfl, fun id hid ↦ ?_⟩
    rcases AList.mem_insert _ |>.mp hid with rfl | hold
    · exact .inr rfl
    · exact .inl hold

namespace Books

variable {s : PgStore} {requests : List Uuid}

/-- An unfinished request has not been billed yet. -/
theorem entry_absent (h : Books s requests) {r : RequestRecord} {row : Row}
    (hrow : s.unfinished r.id = some row) : s.entries.lookup r.id = none := by
  obtain ⟨hlookup, hopen⟩ := unfinished_eq_some.mp hrow
  rw [Option.eq_none_iff_forall_ne_some]
  intro e he
  obtain ⟨r', hr', hid⟩ := h.accounted.entries _ _ he
  exact (h.accounted.unfinished _ _ hlookup hopen).2 r' hr' hid

/-- Every transaction keeps the books, when it begins no request again. -/
theorem apply (h : Books s requests) (tx : Transaction)
    (hfresh : ∀ id, tx.begun = some id → id ∉ requests) :
    Books (tx.apply s) (requests ++ tx.begun.toList) := by
  cases tx with
  | beginRequest now r =>
    have hmem : ∀ id ∈ requests, id ∈ requests ++ [r.id] := fun id ↦ List.mem_append_left _
    rcases apply_begin s now r with hs | hb
    · rw [hs]
      exact ⟨h.accounted, h.rolledUp, fun id hid ↦ hmem id (h.rows id hid),
        fun q hq ↦ hmem _ (h.billed q hq)⟩
    · obtain ⟨hentries, hspending, hbilled, hrows⟩ := beginRequest_tables hb
      refine ⟨h.accounted.beginRequest (fun q hq heq ↦ ?_) hb, ?_, fun id hid ↦ ?_, ?_⟩
      · exact hfresh r.id rfl (heq ▸ h.billed q hq)
      · unfold RolledUp
        rw [hentries, hspending]
        exact h.rolledUp
      · rcases hrows id hid with hold | rfl
        · exact hmem id (h.rows id hold)
        · exact List.mem_append_right _ (List.mem_singleton_self _)
      · rw [hbilled]
        exact fun q hq ↦ hmem _ (h.billed q hq)
  | finishRequest now r =>
    have hmem : requests ++ (Transaction.finishRequest now r).begun.toList = requests :=
      List.append_nil _
    rw [hmem]
    by_cases hf : Finishes s r
    · obtain ⟨row, hrow, hs⟩ := apply_finish now hf
      have hknown : r.id ∈ requests :=
        h.rows _ ((mem_iff_lookup _ _).mpr ⟨row, (unfinished_eq_some.mp hrow).1⟩)
      rw [hs]
      refine ⟨h.accounted.bill now hrow, h.rolledUp.bill now r row, fun id hid ↦ ?_, ?_⟩
      · rw [bill_rows] at hid
        rcases AList.mem_insert _ |>.mp hid with rfl | hold
        · exact hknown
        · exact h.rows id hold
      · intro q hq
        rw [bill_billed, List.mem_append, List.mem_singleton] at hq
        rcases hq with hq | rfl
        · exact h.billed q hq
        · exact hknown
    · rw [apply_finish_idle hf]
      exact h
  | cleanup now retentionDays =>
    have hmem : requests ++ (Transaction.cleanup now retentionDays).begun.toList = requests :=
      List.append_nil _
    rw [hmem]
    refine ⟨h.accounted.cleanup now retentionDays, h.rolledUp.cleanup now retentionDays, ?_,
      h.billed⟩
    intro id hid
    obtain ⟨row, hrow⟩ := (mem_iff_lookup _ _).mp hid
    have hold := (lookup_filter s.rows _ id).symm.trans hrow
    exact h.rows id ((mem_iff_lookup _ _).mpr ⟨row, (Option.filter_eq_some_iff.mp hold).1⟩)

private theorem filter_all {α : Type} (o : Option α) : (o.filter fun _ ↦ true) = o := by
  cases o <;> rfl

/-- The entry of a billed request stays until a cleanup drops its hour. -/
theorem entry_apply (h : Books s requests) (tx : Transaction) {r : RequestRecord}
    (hr : r ∈ s.billed) :
    (tx.apply s).entries.lookup r.id =
      (s.entries.lookup r.id).filter fun e ↦ tx.keeps (hourOf e.finishedAt) := by
  cases tx with
  | beginRequest now q =>
    refine Eq.trans ?_ (filter_all _).symm
    rcases apply_begin s now q with hs | hb
    · rw [hs]
    · rw [(beginRequest_tables hb).1]
  | finishRequest now q =>
    refine Eq.trans ?_ (filter_all _).symm
    by_cases hf : Finishes s q
    · obtain ⟨row, hrow, hs⟩ := apply_finish now hf
      rw [hs, (bill_spending s now q row (h.entry_absent hrow)).1]
      obtain ⟨hlookup, hopen⟩ := unfinished_eq_some.mp hrow
      have hother : r.id ≠ q.id := (h.accounted.unfinished _ _ hlookup hopen).2 r hr
      cases charge (stamped now q) with
      | none => rfl
      | some e => exact AList.lookup_insert_ne hother
    · rw [apply_finish_idle hf]
  | cleanup now retentionDays => exact lookup_filter ..

/-- What is billed stays billed. -/
theorem billed_apply (tx : Transaction) {r : RequestRecord} (hr : r ∈ s.billed) :
    r ∈ (tx.apply s).billed := by
  cases tx with
  | beginRequest now q =>
    rcases apply_begin s now q with hs | hb
    · rw [hs]
      exact hr
    · rw [(beginRequest_tables hb).2.2.1]
      exact hr
  | finishRequest now q =>
    by_cases hf : Finishes s q
    · obtain ⟨row, -, hs⟩ := apply_finish now hf
      rw [hs, bill_billed]
      exact List.mem_append_left _ hr
    · rw [apply_finish_idle hf]
      exact hr
  | cleanup now retentionDays => exact hr

end Books

/-- The requests begun in a longer run. -/
theorem filterMap_begun_concat (txs : List Transaction) (tx : Transaction) :
    (txs ++ [tx]).filterMap begun = txs.filterMap begun ++ tx.begun.toList := by
  rw [List.filterMap_append]
  cases h : tx.begun with
  | none => rw [List.filterMap_cons_none h]; rfl
  | some id => rw [List.filterMap_cons_some h]; rfl

/-- The books are in order all along a run that begins every request once. -/
theorem books_run (txs : List Transaction) (hfresh : (txs.filterMap begun).Nodup) :
    Books (run txs) (txs.filterMap begun) := by
  induction txs using List.reverseRecOn with
  | nil =>
    refine ⟨.empty, Rolled.empty, fun id hid ↦ ?_, fun r hr ↦ absurd hr List.not_mem_nil⟩
    exact absurd hid (AList.notMem_empty id)
  | append_singleton txs tx ih =>
    rw [filterMap_begun_concat] at hfresh ⊢
    rw [run_concat]
    obtain ⟨hbefore, -, hapart⟩ := List.nodup_append.mp hfresh
    refine (ih hbefore).apply tx fun id hid hin ↦ ?_
    exact hapart id hin id (by rw [hid]; exact List.mem_singleton_self _) rfl

/-- The entry of a request that was finished in a run, unless its hour was cleaned up since. -/
theorem entry_run (earlier later : List Transaction) {now : Nat} {r : RequestRecord}
    (hfresh : ((earlier ++ .finishRequest now r :: later).filterMap begun).Nodup)
    (hf : Finishes (run earlier) r) :
    stamped now r ∈ (run (earlier ++ .finishRequest now r :: later)).billed ∧
      (run (earlier ++ .finishRequest now r :: later)).entries.lookup r.id =
        (charge (stamped now r)).filter fun e ↦ later.all (·.keeps (hourOf e.finishedAt)) := by
  induction later using List.reverseRecOn with
  | nil =>
    have hbooks := books_run earlier (hfresh.sublist
      ((List.sublist_append_left _ _).filterMap _))
    obtain ⟨row, hrow, hs⟩ := apply_finish now hf
    rw [run_concat, hs, bill_billed, (bill_spending _ now r row (hbooks.entry_absent hrow)).1]
    refine ⟨List.mem_append_right _ (List.mem_singleton_self _), ?_⟩
    cases charge (stamped now r) with
    | none => exact hbooks.entry_absent hrow
    | some e => exact AList.lookup_insert _
  | append_singleton later tx ih =>
    have hsplit : earlier ++ .finishRequest now r :: (later ++ [tx]) =
        earlier ++ .finishRequest now r :: later ++ [tx] := by
      rw [List.append_assoc, List.cons_append]
    rw [hsplit] at hfresh ⊢
    have hbefore := hfresh.sublist ((List.sublist_append_left _ _).filterMap _)
    obtain ⟨hbilled, hentry⟩ := ih hbefore
    rw [run_concat]
    refine ⟨Books.billed_apply tx hbilled, ?_⟩
    have hkept := (books_run _ hbefore).entry_apply tx hbilled
    refine hkept.trans ?_
    rw [show (stamped now r).id = r.id from rfl, hentry, Option.filter_filter]
    congr 1
    funext e
    rw [List.all_append, List.all_cons, List.all_nil, Bool.and_true, Bool.and_comm]

/-- Every entry was written when its request was finished. -/
theorem entry_origin (txs : List Transaction) (hfresh : (txs.filterMap begun).Nodup) {id : Uuid}
    {e : SpendingEntry} (he : (run txs).entries.lookup id = some e) :
    ∃ earlier now r later, txs = earlier ++ .finishRequest now r :: later ∧
      Finishes (run earlier) r ∧ r.id = id ∧ charge (stamped now r) = some e := by
  induction txs using List.reverseRecOn with
  | nil => cases (AList.lookup_empty id).symm.trans he
  | append_singleton txs tx ih =>
    have hbefore := hfresh.sublist ((List.sublist_append_left _ _).filterMap _)
    -- an entry that was there before the last transaction
    have hold : (run txs).entries.lookup id = some e →
        ∃ earlier now r later, txs ++ [tx] = earlier ++ .finishRequest now r :: later ∧
          Finishes (run earlier) r ∧ r.id = id ∧ charge (stamped now r) = some e := by
      intro he'
      obtain ⟨earlier, now, r, later, rfl, hf, hid, hc⟩ := ih hbefore he'
      exact ⟨earlier, now, r, later ++ [tx], by simp, hf, hid, hc⟩
    rw [run_concat] at he
    cases tx with
    | beginRequest now q =>
      rcases apply_begin (run txs) now q with hs | hb
      · rw [hs] at he
        exact hold he
      · rw [(beginRequest_tables hb).1] at he
        exact hold he
    | finishRequest now q =>
      by_cases hf : Finishes (run txs) q
      · obtain ⟨row, hrow, hs⟩ := apply_finish now hf
        rw [hs, (bill_spending _ now q row ((books_run txs hbefore).entry_absent hrow)).1] at he
        cases hc : charge (stamped now q) with
        | none =>
          rw [hc] at he
          exact hold he
        | some e' =>
          rw [hc, Option.elim_some, lookup_insert_ite] at he
          split at he
          · next hid =>
            exact ⟨txs, now, q, [], rfl, hf, hid.symm, hc.trans he⟩
          · exact hold he
      · rw [apply_finish_idle hf] at he
        exact hold he
    | cleanup now retentionDays =>
      have hl := (lookup_filter (run txs).entries _ id).symm.trans he
      exact hold (Option.filter_eq_some_iff.mp hl).1

/-- After any transactions the hourly table rolls up the entries, the entries are those of the
requests that were finished with an account, each counted once and until its hour is cleaned up,
and the report gives for every window what adding up its entries gives. -/
theorem report_agrees (txs : List Transaction) (hfresh : (txs.filterMap begun).Nodup) :
    (∀ k, (run txs).spending.lookup k =
      total mergeSpending (contributions spendingKey spendingShare (run txs).entries.values k)) ∧
    (∀ earlier now r later, txs = earlier ++ .finishRequest now r :: later →
      Finishes (run earlier) r → (run txs).entries.lookup r.id =
        (charge (stamped now r)).filter fun e ↦ later.all (·.keeps (hourOf e.finishedAt))) ∧
    (∀ id e, (run txs).entries.lookup id = some e →
      ∃ earlier now r later, txs = earlier ++ .finishRequest now r :: later ∧
        Finishes (run earlier) r ∧ r.id = id ∧ charge (stamped now r) = some e) ∧
    ∀ account label startsAt endsAt mainOnly,
      let reported := (run txs).windowTotal account ⟨label, some startsAt, some endsAt, mainOnly⟩
      let direct := (run txs).directTotal label account startsAt endsAt mainOnly
      reported.label = direct.label ∧ reported.cny = direct.cny ∧
        reported.requests = direct.requests ∧ reported.unpriced = direct.unpriced ∧
        (mainOnly = false → reported = direct) := by
  have hbooks := books_run txs hfresh
  refine ⟨fun k ↦ hbooks.rolledUp k trivial, ?_, ?_, ?_⟩
  · rintro earlier now r later rfl hf
    exact (entry_run earlier later hfresh hf).2
  · exact fun id e he ↦ entry_origin txs hfresh he
  · exact fun account label startsAt endsAt mainOnly ↦
      windowTotal_eq hbooks.rolledUp account label startsAt endsAt mainOnly

/-- A request of account 7 for the witness. -/
def exampleRecord : RequestRecord where
  requestLogLevel := none
  stateless := false
  kind := .responses
  searchPrice := none
  id := 1
  keyId := 0
  groupId := none
  clientSessionId := "s"
  clientThreadId := "s"
  model := "m"
  provider := "codex"
  upstreamModel := none
  responseModel := none
  requestedTier := none
  accountId := some 7
  bindingId := none
  bindingGeneration := none
  state := .completed
  createdAt := 0
  finishedAt := none
  totalMs := none
  upstreamStatus := none
  errorCode := none
  errorMessage := none
  usage := { inputTokens := some 10 }
  valuation := none
  upstreamAttempts := 1

/-- A request that is finished twice is charged once, and the report has it. -/
theorem report_agrees_repeated :
    (run [.beginRequest 0 exampleRecord, .finishRequest 7200000000 exampleRecord,
        .finishRequest 7300000000 exampleRecord]).entries.lookup 1 =
      some ⟨7, 7200000000, none, true, some 10, none⟩ ∧
    (run [.beginRequest 0 exampleRecord, .finishRequest 7200000000 exampleRecord,
        .finishRequest 7300000000 exampleRecord]).windowTotal 7
          ⟨"last_5h", some 5000000000, some 7400000000, false⟩ =
      ⟨"last_5h", 0, 1, 1, some 10, none, 1⟩ := by
  obtain ⟨-, hentry, -, hreport⟩ := report_agrees [.beginRequest 0 exampleRecord,
    .finishRequest 7200000000 exampleRecord, .finishRequest 7300000000 exampleRecord] (by decide)
  constructor
  · exact hentry [.beginRequest 0 exampleRecord] 7200000000 exampleRecord
      [.finishRequest 7300000000 exampleRecord] rfl ⟨rfl, by decide⟩
  · obtain ⟨-, -, -, -, heq⟩ := hreport 7 "last_5h" 5000000000 7400000000 false
    exact (heq rfl).trans (by decide +kernel)

end Xxgate.Store
