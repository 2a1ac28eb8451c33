import Mathlib.Data.List.Infix
import Mathlib.Data.List.Count
import Mathlib.Data.Int.Order.Basic
import Xxgate.Core.Json
import Xxgate.Core.Memory

/-!
# Reading JSON under the memory gate

`crates/xxgate-core/src/memory_json.rs:1–104`. The deserializer is a parameter: for some bytes it
gives what it drives a visitor with, and whether the input ends there. The answers of the gate are
any sequence. What the visitor does is kept in a log, for the distance between two checks.
-/

namespace Xxgate.Core.MemoryJson

mutual

/-- What a deserializer drives a visitor with, for one value. -/
inductive Drive where
  /-- An error of the deserializer, which calls no visitor. -/
  | fail
  | unit
  | bool (value : Bool)
  | i64 (value : Int)
  | u64 (value : Nat)
  /-- A number that is no integer, by its text; none where it is not finite. -/
  | f64 (value : Option String)
  | str (value : String)
  | seq (elements : Elements)
  | map (entries : Entries)

/-- What the access to a sequence gives, one call after the other. -/
inductive Elements where
  | done
  | fail
  | next (element : Drive) (rest : Elements)

/-- What the access to a map gives, one key and value after the other. -/
inductive Entries where
  | done
  | fail
  | next (key : String) (value : Drive) (rest : Entries)

end

/-- Induction over what a deserializer gives. -/
theorem Drive.induct {P : Drive → Prop} {Q : Elements → Prop} {R : Entries → Prop}
    (fail : P .fail) (unit : P .unit) (bool : ∀ b, P (.bool b)) (i64 : ∀ n, P (.i64 n))
    (u64 : ∀ n, P (.u64 n)) (f64 : ∀ v, P (.f64 v)) (str : ∀ s, P (.str s))
    (seq : ∀ es, Q es → P (.seq es)) (map : ∀ es, R es → P (.map es))
    (elementsDone : Q .done) (elementsFail : Q .fail)
    (elementsNext : ∀ d es, P d → Q es → Q (.next d es))
    (entriesDone : R .done) (entriesFail : R .fail)
    (entriesNext : ∀ key d es, P d → R es → R (.next key d es)) (d : Drive) : P d :=
  @Drive.rec P Q R fail unit bool i64 u64 f64 str seq map elementsDone elementsFail elementsNext
    entriesDone entriesFail entriesNext d

/-! ### Values -/

mutual

/-- The value the grammar gives, if the input is one. -/
def Drive.value : Drive → Option Json
  | .fail => none
  | .unit => some .null
  | .bool v => some (.bool v)
  | .i64 v => some (.int v)
  | .u64 v => some (.int v)
  | .f64 v => v.map .float
  | .str v => some (.str v)
  | .seq elements => (elements.values []).map .arr
  | .map entries => (entries.fields []).map .obj

def Elements.values : Elements → List Json → Option (List Json)
  | .done, values => some values
  | .fail, _ => none
  | .next element rest, values => element.value.bind fun v ↦ rest.values (values ++ [v])

def Entries.fields : Entries → List (String × Json) → Option (List (String × Json))
  | .done, fields => some fields
  | .fail, _ => none
  | .next key value rest, fields =>
    value.value.bind fun v ↦ rest.fields (Json.insert fields key v)

end

/-- The text of a raw value: the only one under its key. -/
def rawText : Drive → Entries → Option String
  | .str text, .done => some text
  | _, _ => none

section

variable (fromStr : String → Option Json)

mutual

/-- `serde_json`'s own visitor for `Value`. With the feature `raw_value`, which `Cargo.toml:38`
turns on, an object that begins with the key above stands for the text under it, read again. A
number that is not finite is null. -/
def Drive.plain : Drive → Option Json
  | .fail => none
  | .unit => some .null
  | .bool v => some (.bool v)
  | .i64 v => some (.int v)
  | .u64 v => some (.int v)
  | .f64 v => some (v.elim .null .float)
  | .str v => some (.str v)
  | .seq elements => (elements.plain []).map .arr
  | .map .done => some (.obj [])
  | .map .fail => none
  | .map (.next key value rest) =>
    if key = RAW_VALUE then (rawText value rest).bind fromStr
    else
      value.plain.bind fun v ↦ (rest.plain (Json.insert [] key v)).map .obj

def Elements.plain : Elements → List Json → Option (List Json)
  | .done, values => some values
  | .fail, _ => none
  | .next element rest, values => element.plain.bind fun v ↦ rest.plain (values ++ [v])

def Entries.plain : Entries → List (String × Json) → Option (List (String × Json))
  | .done, fields => some fields
  | .fail, _ => none
  | .next key value rest, fields =>
    value.plain.bind fun v ↦ rest.plain (Json.insert fields key v)

end
end

section

variable (p : Drive → Bool)

mutual

/-- Whether every value in what is driven is as asked. -/
def Drive.all : Drive → Bool
  | .seq elements => p (.seq elements) && elements.all
  | .map entries => p (.map entries) && entries.all
  | d => p d

def Elements.all : Elements → Bool
  | .next element rest => element.all && rest.all
  | _ => true

def Entries.all : Entries → Bool
  | .next _ value rest => value.all && rest.all
  | _ => true

end
end

/-- A value that is no raw value. -/
def Drive.isPlain : Drive → Bool
  | .map (.next key _ _) => decide (key ≠ RAW_VALUE)
  | _ => true

/-- No object begins with the key of a raw value. -/
def Drive.rawFree (d : Drive) : Bool := d.all isPlain

/-- A number is finite, as the grammar has it. -/
def Drive.isFinite : Drive → Bool
  | .f64 none => false
  | _ => true

/-- What some bytes are to the deserializer: a value, whether the input ends after it. -/
structure Document where
  value : Drive
  ends : Bool
  finite : value.all Drive.isFinite = true

/-- `serde_json::from_slice::<Value>`. -/
def fromSlice (fromStr : String → Option Json) (serde : List UInt8 → Document)
    (bytes : List UInt8) : Option Json :=
  let document := serde bytes
  (document.value.plain fromStr).filter fun _ ↦ document.ends

/-- An object that begins with another key is read as the grammar has it. -/
theorem plain_map (fromStr : String → Option Json) {entries : Entries}
    (h : Drive.isPlain (.map entries) = true) :
    (Drive.map entries).plain fromStr = (entries.plain fromStr []).map .obj := by
  cases entries with
  | done => rfl
  | fail => rfl
  | next key value rest =>
    rw [Drive.plain, if_neg (of_decide_eq_true h), Entries.plain, Option.map_bind]
    rfl

/-- Without raw values the visitor of `Value` reads what the grammar has. -/
theorem plain_eq_value (fromStr : String → Option Json) (d : Drive) (hraw : d.rawFree = true)
    (hfinite : d.all Drive.isFinite = true) : d.plain fromStr = d.value := by
  revert hraw hfinite
  refine Drive.induct (P := fun d ↦ d.rawFree = true → d.all Drive.isFinite = true →
      d.plain fromStr = d.value)
    (Q := fun es ↦ es.all Drive.isPlain = true → es.all Drive.isFinite = true →
      ∀ values, es.plain fromStr values = es.values values)
    (R := fun es ↦ es.all Drive.isPlain = true → es.all Drive.isFinite = true →
      ∀ fields, es.plain fromStr fields = es.fields fields)
    ?_ ?_ ?_ ?_ ?_ ?_ ?_ ?_ ?_ ?_ ?_ ?_ ?_ ?_ ?_ d
  · exact fun _ _ ↦ rfl
  · exact fun _ _ ↦ rfl
  · exact fun _ _ _ ↦ rfl
  · exact fun _ _ _ ↦ rfl
  · exact fun _ _ _ ↦ rfl
  · intro v _ hfinite
    cases v with
    | none => cases hfinite
    | some v => rfl
  · exact fun _ _ _ ↦ rfl
  · intro es ih hraw hfinite
    rw [Drive.plain, Drive.value, ih hraw hfinite]
  · intro es ih hraw hfinite
    rw [Drive.rawFree, Drive.all, Bool.and_eq_true] at hraw
    rw [plain_map fromStr hraw.1, Drive.value, ih hraw.2 hfinite]
  · exact fun _ _ _ ↦ rfl
  · exact fun _ _ _ ↦ rfl
  · intro d es hd hes hraw hfinite values
    rw [Elements.all, Bool.and_eq_true] at hraw hfinite
    rw [Elements.plain, Elements.values, hd hraw.1 hfinite.1]
    exact congrArg _ (funext fun v ↦ hes hraw.2 hfinite.2 _)
  · exact fun _ _ _ ↦ rfl
  · exact fun _ _ _ ↦ rfl
  · intro key d es hd hes hraw hfinite fields
    rw [Entries.all, Bool.and_eq_true] at hraw hfinite
    rw [Entries.plain, Entries.fields, hd hraw.1 hfinite.1]
    exact congrArg _ (funext fun v ↦ hes hraw.2 hfinite.2 _)

/-! ### The gated visitor -/

/-- What is done between two checks. -/
inductive Event where
  /-- The gate is asked. -/
  | checked
  /-- A value is begun. -/
  | begun
  /-- A value is built. -/
  | built
  deriving DecidableEq

/-- `memory_json.rs:12`, with the number of answers taken and the log. -/
structure Context where
  nodes : Nat := 0
  rejection : Option MemoryRejection := none
  asked : Nat := 0
  log : List Event := []

def Context.note (c : Context) (e : Event) : Context := { c with log := c.log ++ [e] }

/-- Go on with what was read, or leave with the error. -/
def andThen {α β : Type} (x : Option α × Context) (k : α → Context → Option β × Context) :
    Option β × Context :=
  match x with
  | (some a, c) => k a c
  | (none, c) => (none, c)

section

variable (answers : Nat → Option MemoryRejection)

/-- `memory_json.rs:18`. An error is none. -/
def Context.check (c : Context) (force : Bool) : Option Unit × Context :=
  let c := { c with nodes := c.nodes + 1 }
  if force || c.nodes % 4096 == 0 then
    let asked := { c with asked := c.asked + 1 }.note .checked
    match answers c.asked with
    | some error => (none, { asked with rejection := some error })
    | none => (some (), asked)
  else (some (), c)

/-- `memory_json.rs:33`, around `deserialize_any`. -/
def seed (visit : Context → Option Json × Context) (c : Context) : Option Json × Context :=
  andThen (c.check answers false) fun _ c ↦
    andThen (visit (c.note .begun)) fun v c ↦ (some v, c.note .built)

mutual

/-- `memory_json.rs:38–85`. -/
def Drive.visit : Drive → Context → Option Json × Context
  | .fail, c => (none, c)
  | .unit, c => (some .null, c)
  | .bool v, c => (some (.bool v), c)
  | .i64 v, c => (some (.int v), c)
  | .u64 v, c => (some (.int v), c)
  | .f64 v, c => (v.map .float, c)
  | .str v, c =>
    if 1024 * 1024 < v.utf8ByteSize then
      andThen (c.check answers true) fun _ c ↦ (some (.str v), c)
    else (some (.str v), c)
  | .seq elements, c => andThen (elements.visit [] c) fun values c ↦ (some (.arr values), c)
  | .map entries, c => andThen (entries.visit [] c) fun values c ↦ (some (.obj values), c)

def Elements.visit : Elements → List Json → Context → Option (List Json) × Context
  | .done, values, c => (some values, c)
  | .fail, _, c => (none, c)
  | .next element rest, values, c =>
    andThen (seed answers element.visit c) fun v c ↦ rest.visit (values ++ [v]) c

def Entries.visit : Entries → List (String × Json) → Context →
    Option (List (String × Json)) × Context
  | .done, values, c => (some values, c)
  | .fail, _, c => (none, c)
  | .next key value rest, values, c =>
    andThen (seed answers value.visit c) fun v c ↦ rest.visit (Json.insert values key v) c

end

/-- `memory_json.rs:8`. -/
inductive ParseError where
  | invalid
  | memory (rejection : MemoryRejection)

/-- `memory_json.rs:88`: where a parse starts, after the first answer. -/
def started : Context := { asked := 1, log := [.checked] }

/-- `memory_json.rs:86`. -/
def parse (serde : List UInt8 → Document) (bytes : List UInt8) :
    Except ParseError Json × Context :=
  match answers 0 with
  | some error => (.error (.memory error), started)
  | none =>
    let document := serde bytes
    let (result, context) := seed answers (document.value.visit answers) started
    match result.filter fun _ ↦ document.ends with
    | some value => (.ok value, context)
    | none => (.error (context.rejection.elim .invalid .memory), context)

end

/-! ### The distance between two checks -/

/-- The values begun since the last check. -/
def since (log : List Event) : Nat :=
  log.foldl (fun n e ↦ match e with
    | .checked => 0
    | .begun => n + 1
    | .built => n) 0

/-- The values begun and not built. -/
def balance (log : List Event) : Int := log.count .begun - log.count .built

@[simp] theorem since_checked (log : List Event) : since (log ++ [.checked]) = 0 := by
  simp [since]

@[simp] theorem since_begun (log : List Event) : since (log ++ [.begun]) = since log + 1 := by
  simp [since]

@[simp] theorem since_built (log : List Event) : since (log ++ [.built]) = since log := by
  simp [since]

@[simp] theorem balance_checked (log : List Event) : balance (log ++ [.checked]) = balance log := by
  simp [balance]

@[simp] theorem balance_begun (log : List Event) :
    balance (log ++ [.begun]) = balance log + 1 := by
  simp [balance]
  omega

@[simp] theorem balance_built (log : List Event) :
    balance (log ++ [.built]) = balance log - 1 := by
  simp [balance]
  omega

/-- Without a check, what was begun was begun since the last one. -/
theorem count_begun_le (before : List Event) {l : List Event} (h : Event.checked ∉ l) :
    l.count .begun ≤ since (before ++ l) := by
  induction l using List.reverseRecOn with
  | nil => exact Nat.zero_le _
  | append_singleton l e ih =>
    have hl := ih fun hmem ↦ h (List.mem_append_left _ hmem)
    rw [← List.append_assoc]
    cases e with
    | checked => exact absurd (List.mem_append_right _ List.mem_cons_self) h
    | begun =>
      rw [since_begun, List.count_append]
      simpa using hl
    | built =>
      rw [since_built, List.count_append]
      simpa using hl

/-- The checks so far are close enough. -/
structure Spaced (c : Context) : Prop where
  le : ∀ p, p <+: c.log → since p ≤ 4096
  last : since c.log ≤ c.nodes % 4096 + 1

/-- A log that is longer by one event. -/
theorem prefix_note {log p : List Event} {e : Event} (h : p <+: log ++ [e]) :
    p <+: log ∨ p = log ++ [e] :=
  (List.prefix_concat_iff.mp h).symm

/-- What happens to the log while a part of the input is read. -/
structure Ran (c c' : Context) (ok : Bool) : Prop where
  spaced : Spaced c → Spaced c'
  nested : ∀ p, p <+: c'.log → p <+: c.log ∨ balance c.log ≤ balance p
  balanced : ok = true → balance c'.log = balance c.log
  asked : c.log.count .checked = c.asked → c'.log.count .checked = c'.asked

private theorem Ran.refl (c : Context) (ok : Bool) : Ran c c ok :=
  ⟨id, fun _ h ↦ .inl h, fun _ ↦ rfl, id⟩

private theorem Ran.trans {c c' c'' : Context} {ok : Bool} (h : Ran c c' true)
    (h' : Ran c' c'' ok) : Ran c c'' ok where
  spaced hs := h'.spaced (h.spaced hs)
  nested p hp := by
    rcases h'.nested p hp with hp | hp
    · exact h.nested p hp
    · exact .inr ((h.balanced rfl).symm.le.trans hp)
  balanced hok := (h'.balanced hok).trans (h.balanced rfl)
  asked hs := h'.asked (h.asked hs)

section

variable {answers : Nat → Option MemoryRejection}

/-- No answer so far is a rejection. -/
def Quiet (answers : Nat → Option MemoryRejection) (c : Context) : Prop :=
  c.rejection = none ∧ ∀ i < c.asked, answers i = none

/-- The last answer is a rejection, and it is kept. -/
def Rejected (answers : Nat → Option MemoryRejection) (c : Context) : Prop :=
  ∃ n e, c.asked = n + 1 ∧ answers n = some e ∧ c.rejection = some e

/-- What reading a part of the input comes to. -/
structure Outcome {α : Type} (answers : Nat → Option MemoryRejection) (c : Context)
    (value : Option α) (out : Option α × Context) : Prop where
  answered : Quiet answers c →
    Quiet answers out.2 ∧ out.1 = value ∨ Rejected answers out.2 ∧ out.1 = none
  ran : Ran c out.2 out.1.isSome

private theorem Outcome.pure {α : Type} (c : Context) (v : Option α) : Outcome answers c v (v, c) :=
  ⟨fun h ↦ .inl ⟨h, rfl⟩, Ran.refl c _⟩

/-- Outcomes go one after the other. -/
theorem Outcome.andThen {α β : Type} {c : Context} {value : Option α} {x : Option α × Context}
    {next : α → Option β} {k : α → Context → Option β × Context}
    (h : Outcome answers c value x) (hk : ∀ a c, Outcome answers c (next a) (k a c)) :
    Outcome answers c (value.bind next) (andThen x k) := by
  obtain ⟨r, c'⟩ := x
  cases r with
  | none =>
    refine ⟨fun hq ↦ ?_, h.ran⟩
    rcases h.answered hq with ⟨hquiet, hvalue⟩ | ⟨hrejected, -⟩
    · exact .inl ⟨hquiet, by rw [← hvalue]; rfl⟩
    · exact .inr ⟨hrejected, rfl⟩
  | some a =>
    refine ⟨fun hq ↦ ?_, h.ran.trans (hk a c').ran⟩
    rcases h.answered hq with ⟨hquiet, hvalue⟩ | ⟨-, hnone⟩
    · rw [← hvalue]
      exact (hk a c').answered hquiet
    · cases hnone

/-- What a check comes to. -/
theorem check_answered (c : Context) (force : Bool) (hq : Quiet answers c) :
    Quiet answers (c.check answers force).2 ∧ (c.check answers force).1 = some () ∨
      Rejected answers (c.check answers force).2 ∧ (c.check answers force).1 = none := by
  unfold Context.check
  dsimp only
  split
  · split
    · next error he => exact .inr ⟨⟨c.asked, error, rfl, he, rfl⟩, rfl⟩
    · next he =>
      refine .inl ⟨⟨hq.1, fun i hi ↦ ?_⟩, rfl⟩
      rcases Nat.lt_succ_iff_lt_or_eq.mp hi with hi | rfl
      · exact hq.2 i hi
      · exact he
  · exact .inl ⟨hq, rfl⟩

/-- Where a check leaves the log. -/
theorem check_log (c : Context) (force : Bool) :
    (c.check answers force).2.nodes = c.nodes + 1 ∧
      ((c.check answers force).2.log = c.log ++ [.checked] ∧
          (c.check answers force).2.asked = c.asked + 1 ∨
        (c.check answers force).2.log = c.log ∧ (c.check answers force).2.asked = c.asked ∧
          (c.nodes + 1) % 4096 ≠ 0 ∧ (c.check answers force).1 = some ()) := by
  unfold Context.check
  dsimp only
  split
  · split
    · exact ⟨rfl, .inl ⟨rfl, rfl⟩⟩
    · exact ⟨rfl, .inl ⟨rfl, rfl⟩⟩
  · next h =>
    rw [Bool.or_eq_true, not_or, beq_iff_eq] at h
    exact ⟨rfl, .inr ⟨rfl, rfl, h.2, rfl⟩⟩

/-- After a check fewer values than the distance are begun. -/
theorem check_spaced {c : Context} (force : Bool) (h : Spaced c) :
    Spaced (c.check answers force).2 ∧
      since (c.check answers force).2.log ≤ (c.check answers force).2.nodes % 4096 := by
  obtain ⟨hnodes, ⟨hlog, -⟩ | ⟨hlog, -, hne, -⟩⟩ := @check_log answers c force
  · rw [hnodes, hlog, since_checked]
    refine ⟨⟨fun p hp ↦ ?_, ?_⟩, Nat.zero_le _⟩
    · rw [hlog] at hp
      rcases prefix_note hp with hp | rfl
      · exact h.le p hp
      · rw [since_checked]
        exact Nat.zero_le _
    · rw [hlog, since_checked]
      exact Nat.zero_le _
  · have hmod : since c.log ≤ (c.nodes + 1) % 4096 := by
      have := h.last
      omega
    rw [hnodes, hlog]
    refine ⟨⟨fun p hp ↦ h.le p (hlog ▸ hp), ?_⟩, hmod⟩
    rw [hnodes, hlog]
    exact hmod.trans (Nat.le_succ _)

private theorem check_ran (c : Context) (force ok : Bool) : Ran c (c.check answers force).2 ok := by
  refine ⟨fun h ↦ (check_spaced force h).1, fun p hp ↦ ?_, fun _ ↦ ?_, fun h ↦ ?_⟩
  · obtain ⟨-, ⟨hlog, -⟩ | ⟨hlog, -⟩⟩ := @check_log answers c force
    · rw [hlog] at hp
      rcases prefix_note hp with hp | rfl
      · exact .inl hp
      · exact .inr (balance_checked _).ge
    · exact .inl (hlog ▸ hp)
  · obtain ⟨-, ⟨hlog, -⟩ | ⟨hlog, -⟩⟩ := @check_log answers c force
    · rw [hlog, balance_checked]
    · rw [hlog]
  · obtain ⟨-, ⟨hlog, hasked⟩ | ⟨hlog, hasked, -⟩⟩ := @check_log answers c force
    · rw [hlog, hasked, List.count_append, h]
      rfl
    · rw [hlog, hasked, h]

private theorem check_outcome (c : Context) (force : Bool) :
    Outcome answers c (some ()) (c.check answers force) :=
  ⟨check_answered c force, check_ran c force _⟩

/-- A value is begun after the check made for it. -/
theorem note_begun_spaced {c : Context} (h : Spaced c) (hlast : since c.log ≤ c.nodes % 4096) :
    Spaced (c.note .begun) := by
  have hsince : since (c.log ++ [.begun]) ≤ c.nodes % 4096 + 1 := by
    rw [since_begun]
    omega
  refine ⟨fun p hp ↦ ?_, hsince⟩
  rcases prefix_note hp with hp | rfl
  · exact h.le p hp
  · have := Nat.mod_lt c.nodes (show 0 < 4096 by decide)
    omega

private theorem note_built_spaced {c : Context} (h : Spaced c) : Spaced (c.note .built) := by
  refine ⟨fun p hp ↦ ?_, ?_⟩
  · rcases prefix_note hp with hp | rfl
    · exact h.le p hp
    · rw [since_built]
      exact h.le c.log List.prefix_rfl
  · show since (c.log ++ [.built]) ≤ c.nodes % 4096 + 1
    rw [since_built]
    exact h.last

/-- A value read in its place: what it comes to is what reading it comes to. -/
theorem seed_outcome {value : Option Json} {visit : Context → Option Json × Context}
    (h : ∀ c, Outcome answers c value (visit c)) (c : Context) :
    Outcome answers c value (seed answers visit c) := by
  unfold seed
  have hanswered := @check_answered answers c false
  have hran := @check_ran answers c false true
  have hspaced := @check_spaced answers c false
  rcases hc : c.check answers false with ⟨_ | ⟨⟩, c₁⟩
  · rw [hc] at hanswered
    have hrefused := @check_ran answers c false false
    rw [hc] at hrefused
    refine ⟨fun hq ↦ ?_, hrefused⟩
    rcases hanswered hq with ⟨-, hnone⟩ | ⟨hrejected, -⟩
    · cases hnone
    · exact .inr ⟨hrejected, rfl⟩
  · rw [hc] at hanswered hran hspaced
    have hvisit := h (c₁.note .begun)
    have hbegun : balance (c₁.note .begun).log = balance c.log + 1 := by
      rw [← hran.balanced rfl]
      exact balance_begun _
    -- Up to the start of the value the log is that of the check, and the start.
    have hstart : ∀ p, p <+: (c₁.note .begun).log → p <+: c.log ∨ balance c.log ≤ balance p := by
      intro p hp
      rcases prefix_note hp with hp | rfl
      · exact hran.nested p hp
      · rw [show balance (c₁.log ++ [.begun]) = _ from hbegun]
        omega
    have hnested : ∀ p, p <+: (visit (c₁.note .begun)).2.log →
        p <+: c.log ∨ balance c.log ≤ balance p := by
      intro p hp
      rcases hvisit.ran.nested p hp with hp | hp
      · exact hstart p hp
      · omega
    have hspaced' : Spaced c → Spaced (visit (c₁.note .begun)).2 := fun hs ↦
      hvisit.ran.spaced (note_begun_spaced (hspaced hs).1 (hspaced hs).2)
    have hasked : c.log.count .checked = c.asked →
        (visit (c₁.note .begun)).2.log.count .checked = (visit (c₁.note .begun)).2.asked := by
      intro hcount
      refine hvisit.ran.asked ?_
      show (c₁.log ++ [Event.begun]).count Event.checked = c₁.asked
      rw [List.count_append, hran.asked hcount]
      rfl
    have hquiet : Quiet answers c → Quiet answers c₁ := by
      intro hq
      rcases hanswered hq with ⟨hquiet, -⟩ | ⟨-, hnone⟩
      · exact hquiet
      · cases hnone
    dsimp only [MemoryJson.andThen]
    rcases hv : visit (c₁.note .begun) with ⟨_ | v, c₂⟩
    · rw [hv] at hvisit hnested hspaced' hasked
      exact ⟨fun hq ↦ hvisit.answered (hquiet hq), hspaced', hnested, fun hok ↦ (by cases hok),
        hasked⟩
    · rw [hv] at hvisit hnested hspaced' hasked
      have hbuilt : balance (c₂.note .built).log = balance c.log := by
        rw [show balance (c₂.note .built).log = balance c₂.log - 1 from balance_built _,
          hvisit.ran.balanced rfl, hbegun]
        omega
      refine ⟨fun hq ↦ hvisit.answered (hquiet hq), fun hs ↦ note_built_spaced (hspaced' hs),
        fun p hp ↦ ?_, fun _ ↦ hbuilt, fun hcount ↦ ?_⟩
      · rcases prefix_note hp with hp | rfl
        · exact hnested p hp
        · exact .inr hbuilt.ge
      · show (c₂.log ++ [Event.built]).count Event.checked = c₂.asked
        rw [List.count_append, hasked hcount]
        rfl

/-- Whatever is driven is read as the grammar has it, or the gate rejects. -/
theorem visit_outcome (d : Drive) (c : Context) :
    Outcome answers c d.value (d.visit answers c) := by
  revert c
  refine Drive.induct (P := fun d ↦ ∀ c, Outcome answers c d.value (d.visit answers c))
    (Q := fun es ↦ ∀ values c, Outcome answers c (es.values values) (es.visit answers values c))
    (R := fun es ↦ ∀ fields c, Outcome answers c (es.fields fields) (es.visit answers fields c))
    ?_ ?_ ?_ ?_ ?_ ?_ ?_ ?_ ?_ ?_ ?_ ?_ ?_ ?_ ?_ d
  · exact fun c ↦ Outcome.pure c _
  · exact fun c ↦ Outcome.pure c _
  · exact fun _ c ↦ Outcome.pure c _
  · exact fun _ c ↦ Outcome.pure c _
  · exact fun _ c ↦ Outcome.pure c _
  · exact fun _ c ↦ Outcome.pure c _
  · intro v c
    rw [Drive.visit]
    split
    · show Outcome answers c ((some ()).bind fun _ ↦ some (Json.str v)) _
      exact (check_outcome c true).andThen fun _ c ↦ Outcome.pure c _
    · exact Outcome.pure c _
  · intro es hes c
    rw [Drive.visit, Drive.value, Option.map_eq_bind]
    exact (hes [] c).andThen fun _ c ↦ Outcome.pure c _
  · intro es hes c
    rw [Drive.visit, Drive.value, Option.map_eq_bind]
    exact (hes [] c).andThen fun _ c ↦ Outcome.pure c _
  · exact fun _ c ↦ Outcome.pure c _
  · exact fun _ c ↦ Outcome.pure c _
  · intro d es hd hes values c
    exact (seed_outcome hd c).andThen fun v c ↦ hes _ c
  · exact fun _ c ↦ Outcome.pure c _
  · exact fun _ c ↦ Outcome.pure c _
  · intro key d es hd hes fields c
    exact (seed_outcome hd c).andThen fun v c ↦ hes _ c

/-! ### Parsing -/

/-- Between checks the log holds few values. -/
def Close (log : List Event) : Prop :=
  ∀ before l after, log = before ++ l ++ after → Event.checked ∉ l →
    l.count .begun ≤ 4096 ∧ (l.count .built : Int) ≤ 4096 + balance before

private theorem close_of_ran {c c' : Context} {ok : Bool} (h : Ran c c' ok) (hs : Spaced c)
    (hc : c.log = [.checked]) : Close c'.log := by
  intro before l after hlog hl
  have hprefix : before ++ l <+: c'.log := ⟨after, hlog.symm⟩
  have hbegun := (count_begun_le before hl).trans ((h.spaced hs).le _ hprefix)
  refine ⟨hbegun, ?_⟩
  have hbalance : 0 ≤ balance (before ++ l) := by
    rcases h.nested _ hprefix with hp | hp
    · rw [hc] at hp
      rcases List.prefix_concat_iff.mp (show before ++ l <+: [] ++ [Event.checked] from hp)
        with hp | hp
      · rw [hp]
        decide
      · rw [List.prefix_nil.mp hp]
        decide
    · rw [hc] at hp
      exact hp
  unfold balance at hbalance ⊢
  rw [List.count_append, List.count_append] at hbalance
  omega

private theorem spaced_started : Spaced started := by
  refine ⟨fun p hp ↦ ?_, by decide⟩
  rcases List.prefix_concat_iff.mp (show p <+: [] ++ [Event.checked] from hp) with hp | hp
  · rw [hp]
    decide
  · rw [List.prefix_nil.mp hp]
    decide

/-- What a parse comes to is what its value comes to. -/
theorem parse_of_quiet (serde : List UInt8 → Document) (bytes : List UInt8)
    (hfirst : answers 0 = none) {r : Option Json} {c : Context}
    (h : seed answers ((serde bytes).value.visit answers) started = (r, c)) :
    parse answers serde bytes =
      ((r.filter fun _ ↦ (serde bytes).ends).elim
        (.error (c.rejection.elim .invalid .memory)) .ok, c) := by
  unfold parse
  dsimp only
  rw [hfirst, h]
  dsimp only
  cases r.filter fun _ ↦ (serde bytes).ends with
  | none => rfl
  | some v => rfl

/-- Under the gate the input is read as without it, until the gate rejects; and the gate is asked
often enough. -/
theorem parse_gated (serde : List UInt8 → Document) (fromStr : String → Option Json)
    (answers : Nat → Option MemoryRejection) (bytes : List UInt8) :
    ((∀ i < (parse answers serde bytes).2.asked, answers i = none) →
      (serde bytes).value.rawFree = true →
        (parse answers serde bytes).1 =
          (fromSlice fromStr serde bytes).elim (.error .invalid) .ok) ∧
    ((∃ i < (parse answers serde bytes).2.asked, (answers i).isSome = true) →
      ∃ i rejection, i < (parse answers serde bytes).2.asked ∧ answers i = some rejection ∧
        (parse answers serde bytes).1 = .error (.memory rejection)) ∧
    (parse answers serde bytes).2.log.count .checked = (parse answers serde bytes).2.asked ∧
    Close (parse answers serde bytes).2.log := by
  cases hfirst : answers 0 with
  | some e =>
    have hparse : parse answers serde bytes = (.error (.memory e), started) := by
      unfold parse
      rw [hfirst]
    rw [hparse]
    refine ⟨fun h ↦ ?_, fun _ ↦ ⟨0, e, Nat.zero_lt_one, hfirst, rfl⟩, rfl,
      close_of_ran (Ran.refl started true) spaced_started rfl⟩
    rw [h 0 Nat.zero_lt_one] at hfirst
    cases hfirst
  | none =>
    have hquiet : Quiet answers started := by
      refine ⟨rfl, fun i hi ↦ ?_⟩
      rw [Nat.lt_one_iff.mp hi]
      exact hfirst
    have hout := seed_outcome (@visit_outcome answers (serde bytes).value) started
    rcases hseed : seed answers ((serde bytes).value.visit answers) started with ⟨r, c⟩
    rw [parse_of_quiet serde bytes hfirst hseed]
    rw [hseed] at hout
    refine ⟨fun hnone hraw ↦ ?_, fun hsome ↦ ?_, hout.ran.asked rfl,
      close_of_ran hout.ran spaced_started rfl⟩
    · rcases hout.answered hquiet with ⟨hq, hvalue⟩ | ⟨⟨n, e, hasked, he, -⟩, -⟩
      · dsimp only at hq hvalue
        unfold fromSlice
        dsimp only
        rw [plain_eq_value fromStr _ hraw (serde bytes).finite, hq.1, hvalue]
        rfl
      · rw [hnone n (by dsimp only at hasked ⊢; omega)] at he
        cases he
    · obtain ⟨i, hi, hsome⟩ := hsome
      rcases hout.answered hquiet with ⟨hq, -⟩ | ⟨⟨n, e, hasked, he, hrejection⟩, hr⟩
      · rw [hq.2 i hi] at hsome
        cases hsome
      · dsimp only at hasked hrejection hr ⊢
        refine ⟨n, e, by omega, he, ?_⟩
        rw [hr, hrejection]
        rfl

end

/-- An object under the key of a raw value is an object here, and another value for
`serde_json`: the text `"1"` under it stands for 1. -/
theorem parse_keeps_raw :
    (parse (fun _ ↦ none) (fun _ ↦ ⟨.map (.next RAW_VALUE (.str "1") .done), true, rfl⟩)
        (String.toUTF8 "\x7b\"$serde_json::private::RawValue\":\"1\"\x7d").toList).1 =
      .ok (.obj [(RAW_VALUE, .str "1")]) ∧
    fromSlice (fun text ↦ if text = "1" then some (.int 1) else none)
        (fun _ ↦ ⟨.map (.next RAW_VALUE (.str "1") .done), true, rfl⟩)
        (String.toUTF8 "\x7b\"$serde_json::private::RawValue\":\"1\"\x7d").toList =
      some (.int 1) := by
  constructor
  · rfl
  · simp [fromSlice, Drive.plain, rawText]

end Xxgate.Core.MemoryJson
