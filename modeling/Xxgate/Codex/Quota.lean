import Mathlib.Data.List.Nodup
import Mathlib.Data.List.Pairwise
import Xxgate.Base.Fallible
import Xxgate.Core.Json
import Xxgate.Core.Quota

/-!
# Quota windows of a usage report

`crates/xxgate-codex/src/provider/quota.rs:78–151`: the windows that an upstream report names at
any depth. How a number becomes a percentage and a second an instant are parameters; the clock is
read as one instant.
-/

namespace Xxgate.Codex

open Xxgate.Core Xxgate.Core.Json

namespace Quota

section Depth

mutual

/-- How deep a value is nested. -/
def depth : Json → Nat
  | .arr items => depthItems items + 1
  | .obj fields => depthFields fields + 1
  | _ => 1

def depthItems : List Json → Nat
  | [] => 0
  | item :: items => max (depth item) (depthItems items)

def depthFields : List (String × Json) → Nat
  | [] => 0
  | (_, value) :: fields => max (depth value) (depthFields fields)

end

private theorem depth_le_items {items : List Json} {item : Json} (h : item ∈ items) :
    depth item ≤ depthItems items := by
  induction items with
  | nil => cases h
  | cons first items ih =>
    rw [depthItems]
    rcases List.mem_cons.mp h with rfl | h
    · exact le_max_left _ _
    · exact (ih h).trans (le_max_right _ _)

private theorem depth_le_fields {fields : List (String × Json)} {f : String × Json}
    (h : f ∈ fields) : depth f.2 ≤ depthFields fields := by
  induction fields with
  | nil => cases h
  | cons first fields ih =>
    rw [depthFields]
    rcases List.mem_cons.mp h with rfl | h
    · exact le_max_left _ _
    · exact (ih h).trans (le_max_right _ _)

private theorem depthFields_insert_le (fields : List (String × Json)) (key : String)
    (value : Json) :
    depthFields (Json.insert fields key value) ≤ max (depth value) (depthFields fields) := by
  induction fields with
  | nil => exact le_rfl
  | cons f fields ih =>
    unfold Json.insert
    split
    · simp only [depthFields]
      omega
    · split
      · simp only [depthFields]
        omega
      · simp only [depthFields]
        omega

/-- A field is less deep than its object. -/
theorem depth_get_lt {value entry : Json} {key : String} (h : value.get key = some entry) :
    depth entry < depth value := by
  cases value with
  | obj fields =>
    have hmem : ∃ k, (k, entry) ∈ fields := by
      have hfield : field fields key = some entry := h
      clear h
      induction fields with
      | nil => cases hfield
      | cons f fields ih =>
        unfold field at hfield
        split at hfield
        · next hk =>
          cases hfield
          exact ⟨f.1, List.mem_cons_self⟩
        · obtain ⟨k, hk⟩ := ih hfield
          exact ⟨k, List.mem_cons_of_mem _ hk⟩
    obtain ⟨k, hk⟩ := hmem
    exact Nat.lt_succ_of_le (depth_le_fields hk)
  | _ => cases h

end Depth

/-! ### The report -/

/-- `value["limit_id"] = pool`: only an object or null has the index; the source panics at
another value. -/
def withLimitId (item : Json) (pool : String) : Option Json :=
  match item with
  | .obj fields => some (.obj (Json.insert fields "limit_id" (.str pool)))
  | .null => some (.obj [("limit_id", .str pool)])
  | _ => none

/-- `quota.rs:134–149`, for one key: the entries below, in order. -/
def entriesUnder (value : Json) (key : String) : Option (List Json) :=
  match value.get key with
  | some (.arr entries) => some entries
  | some (.obj map) => map.mapM fun f ↦ withLimitId f.2 f.1
  | _ => some []

/-- What is read below a value. -/
def nested (value : Json) : Option (List Json) :=
  match value with
  | .arr entries => some entries
  | _ => do
    let additional ← entriesUnder value "additional_rate_limits"
    let byLimitId ← entriesUnder value "rate_limits_by_limit_id"
    return additional ++ byLimitId

private theorem depth_withLimitId_le {item item' : Json} {pool : String}
    (h : withLimitId item pool = some item') : depth item' ≤ depth item + 1 := by
  unfold withLimitId at h
  split at h
  · next fields =>
    cases h
    have hle := depthFields_insert_le fields "limit_id" (.str pool)
    have hone : depth (.str pool) = 1 := rfl
    rw [hone] at hle
    simp only [depth]
    omega
  · cases h
    show max (depth (.str pool)) 0 + 1 ≤ depth .null + 1
    simp [depth]
  · cases h

private theorem depth_entriesUnder_lt {value entry : Json} {key : String} {entries : List Json}
    (h : entriesUnder value key = some entries) (hentry : entry ∈ entries) :
    depth entry < depth value := by
  unfold entriesUnder at h
  split at h
  · next entries' hget =>
    cases h
    exact (Nat.lt_succ_of_le (depth_le_items hentry)).trans (depth_get_lt hget)
  · next map hget =>
    have hmap : depthFields map + 1 < depth value := depth_get_lt hget
    obtain ⟨f, hf, hwith⟩ := Base.Fallible.exists_of_mem_mapM h hentry
    have hle := depth_withLimitId_le hwith
    have hfield := depth_le_fields hf
    omega
  · cases h
    cases hentry

/-- What is read below a value is less deep. -/
theorem depth_nested_lt {value entry : Json} {entries : List Json}
    (h : nested value = some entries) (hentry : entry ∈ entries) : depth entry < depth value := by
  unfold nested at h
  split at h
  · cases h
    exact Nat.lt_succ_of_le (depth_le_items hentry)
  · obtain ⟨additional, hadditional, h⟩ := Option.bind_eq_some_iff.mp h
    obtain ⟨byLimitId, hbyLimitId, h⟩ := Option.bind_eq_some_iff.mp h
    cases h
    rcases List.mem_append.mp hentry with hmem | hmem
    · exact depth_entriesUnder_lt hadditional hmem
    · exact depth_entriesUnder_lt hbyLimitId hmem

/-- `as_i64`. -/
def asI64 : Json → Option Int
  | .int n => if n ≤ 9223372036854775807 then some n else none
  | _ => none

/-- `quota.rs:86`: the pool as the report names it. -/
def poolOf (value : Json) : String :=
  ((((value.get "metered_limit_name").or (value.get "limit_id")).or
    (value.get "limit_name")).bind asStr).getD "codex"

/-- `pool.replace('-', "_")`. -/
def normalised (pool : String) : String :=
  String.ofList (pool.toList.map fun c ↦ if c = '-' then '_' else c)

section

variable (asF64 : Json → Option Rat) (fromTimestamp : Int → Option Int) (now : Int)

/-- `quota.rs:101–131`: the window under one key of a root, in the pool of the value. -/
def windowUnder (pool : String) (root : Json) (key : String) : Option QuotaWindow := do
  let w ← root.get key
  let percent ← ((w.get "used_percent").bind asF64).filter fun p ↦ decide (0 ≤ p)
  let minutes := ((w.get "window_minutes").bind asI64).or
    (((w.get "limit_window_seconds").bind asI64).map fun v ↦ v.tdiv 60)
  let reset := (((w.get "reset_at").or (w.get "resets_at")).bind asI64).bind fromTimestamp
  return ⟨normalised pool, minutes, some percent, reset, now⟩

/-- `quota.rs:92–104`: the windows of a value, in the order in which they are read. -/
def offered (value : Json) : List QuotaWindow :=
  ([value.get "rate_limit", value.get "rate_limits", some value].filterMap id).flatMap fun root ↦
    ["primary_window", "secondary_window", "primary", "secondary"].filterMap
      (windowUnder asF64 fromTimestamp now (poolOf value) root)

/-- The lengths of the windows of a value. -/
def lengths (value : Json) : List (Option Int) :=
  (offered asF64 fromTimestamp now value).map (·.windowMinutes)

/-- `quota.rs:118`: the name of the value is compared with the names that are kept. -/
def pushWindow (pool : String) (result : List QuotaWindow) (w : QuotaWindow) :
    List QuotaWindow :=
  if result.any fun e ↦ e.pool == pool && e.windowMinutes == w.windowMinutes then result
  else result ++ [w]

/-- The windows of a value that are kept. An array has none, as it has no fields. -/
def ownWindows (value : Json) : List QuotaWindow :=
  (offered asF64 fromTimestamp now value).foldl (pushWindow (poolOf value)) []

/-- `quota.rs:78`. A panic is none. -/
def windows (value : Json) : Option (List QuotaWindow) :=
  match h : nested value with
  | none => none
  | some entries => do
    let below ← entries.attach.mapM fun entry ↦
      have := depth_nested_lt h entry.2
      windows entry.1
    return ownWindows asF64 fromTimestamp now value ++ below.flatten
termination_by depth value

end

/-- The values whose windows are read, in order. -/
def levels (value : Json) : Option (List Json) :=
  match h : nested value with
  | none => none
  | some entries => do
    let below ← entries.attach.mapM fun entry ↦
      have := depth_nested_lt h entry.2
      levels entry.1
    return value :: below.flatten
termination_by depth value

section

variable {asF64 : Json → Option Rat} {fromTimestamp : Int → Option Int} {now : Int}

/-- The windows of a value are its own, then those of what is nested in it. -/
theorem windows_eq (value : Json) : windows asF64 fromTimestamp now value =
    (nested value).bind fun entries ↦ (entries.mapM (windows asF64 fromTimestamp now)).map
      fun below ↦ ownWindows asF64 fromTimestamp now value ++ below.flatten := by
  rw [windows]
  split
  · next h => rw [h]; rfl
  · next entries h =>
    have hmap : (entries.attach.mapM fun entry ↦ windows asF64 fromTimestamp now entry.1) =
        entries.mapM (windows asF64 fromTimestamp now) := by
      rw [List.mapM_subtype fun _ _ ↦ rfl, List.unattach_attach]
    refine Eq.trans ?_ (congrArg (Option.bind · _) h).symm
    rw [Option.bind_some, ← hmap, Option.map_eq_bind]
    rfl

private theorem levels_eq (value : Json) : levels value =
    (nested value).bind fun entries ↦ (entries.mapM levels).map fun below ↦
      value :: below.flatten := by
  rw [levels]
  split
  · next h => rw [h]; rfl
  · next entries h =>
    have hmap : (entries.attach.mapM fun entry ↦ levels entry.1) = entries.mapM levels := by
      rw [List.mapM_subtype fun _ _ ↦ rfl, List.unattach_attach]
    refine Eq.trans ?_ (congrArg (Option.bind · _) h).symm
    rw [Option.bind_some, ← hmap, Option.map_eq_bind]
    rfl

/-- The windows are those of each value that is read. -/
theorem windows_levels (value : Json) : windows asF64 fromTimestamp now value =
    (levels value).map (List.flatMap (ownWindows asF64 fromTimestamp now)) := by
  induction hd : depth value using Nat.strong_induction_on generalizing value with
  | _ d ih =>
    rw [windows_eq, levels_eq]
    cases hnested : nested value with
    | none => rfl
    | some entries =>
      have hentries := Base.Fallible.mapM_map_eq fun entry hentry ↦
        ih (depth entry) (hd ▸ depth_nested_lt hnested hentry) entry rfl
      simp only [Option.bind_some]
      rw [hentries, Option.map_map, Option.map_map]
      refine congrArg (Option.map · _) (funext fun below ↦ ?_)
      show ownWindows asF64 fromTimestamp now value ++ (below.map _).flatten =
        (value :: below.flatten).flatMap _
      rw [List.flatMap_cons, show below.flatten = below.flatMap id from List.flatMap_id.symm,
        List.flatMap_assoc]
      rfl

/-! ### One value -/

/-- What identifies a window. -/
def keyOf (w : QuotaWindow) : String × Option Int := (w.pool, w.windowMinutes)

/-- The windows of a value are in its pool. -/
theorem pool_offered {value : Json} {w : QuotaWindow}
    (h : w ∈ offered asF64 fromTimestamp now value) : w.pool = normalised (poolOf value) := by
  obtain ⟨root, -, hw⟩ := List.mem_flatMap.mp h
  obtain ⟨key, -, hw⟩ := List.mem_filterMap.mp hw
  obtain ⟨_, -, hw⟩ := Option.bind_eq_some_iff.mp hw
  obtain ⟨_, -, hw⟩ := Option.bind_eq_some_iff.mp hw
  cases hw
  rfl

/-- A name is normalised exactly where it has no hyphen. -/
theorem normalised_eq_iff (pool : String) : normalised pool = pool ↔ '-' ∉ pool.toList := by
  have hsame : normalised pool = pool ↔
      ∀ c ∈ pool.toList, (if c = '-' then '_' else c) = id c := by
    rw [← List.map_inj_left, List.map_id, ← String.toList_inj, normalised, String.toList_ofList]
  rw [hsame]
  constructor
  · intro h hmem
    have hhyphen := h '-' hmem
    rw [if_pos rfl] at hhyphen
    cases hhyphen
  · intro h c hc
    refine if_neg ?_
    rintro rfl
    exact h hc

/-- What keeping a window does. -/
theorem pushWindow_of_hyphen {pool : String} (hpool : '-' ∈ pool.toList)
    {result : List QuotaWindow} (hresult : ∀ e ∈ result, e.pool = normalised pool)
    (w : QuotaWindow) : pushWindow pool result w = result ++ [w] := by
  unfold pushWindow
  refine if_neg fun hany ↦ ?_
  obtain ⟨e, he, hsame⟩ := List.any_eq_true.mp hany
  rw [Bool.and_eq_true, beq_iff_eq, hresult e he, normalised_eq_iff] at hsame
  exact hsame.1 hpool

private theorem pushWindow_of_plain {pool : String} (hpool : '-' ∉ pool.toList)
    (result : List QuotaWindow) {w : QuotaWindow} (hw : w.pool = normalised pool) :
    pushWindow pool result w =
      if keyOf w ∈ result.map keyOf then result else result ++ [w] := by
  have hany : (result.any fun e ↦ e.pool == pool && e.windowMinutes == w.windowMinutes) = true ↔
      keyOf w ∈ result.map keyOf := by
    rw [List.any_eq_true, List.mem_map]
    refine exists_congr fun e ↦ and_congr_right fun he ↦ ?_
    rw [Bool.and_eq_true, beq_iff_eq, beq_iff_eq, keyOf, keyOf, Prod.mk.injEq, hw,
      (normalised_eq_iff pool).mpr hpool]
  unfold pushWindow
  simp only [hany]

/-- A name with a hyphen keeps every window. -/
theorem foldl_of_hyphen {pool : String} (hpool : '-' ∈ pool.toList) {ws : List QuotaWindow}
    (hws : ∀ w ∈ ws, w.pool = normalised pool) {result : List QuotaWindow}
    (hresult : ∀ e ∈ result, e.pool = normalised pool) :
    ws.foldl (pushWindow pool) result = result ++ ws := by
  induction ws generalizing result with
  | nil => rw [List.foldl_nil, List.append_nil]
  | cons w ws ih =>
    rw [List.foldl_cons, pushWindow_of_hyphen hpool hresult,
      ih (fun w' hw' ↦ hws w' (List.mem_cons_of_mem _ hw')), List.append_assoc]
    · rfl
    · intro e he
      rcases List.mem_append.mp he with he | he
      · exact hresult e he
      · rw [List.mem_singleton.mp he]
        exact hws w List.mem_cons_self

/-- A window whose key is there already is not the first of its key. -/
theorem find?_append_of_mem {result : List QuotaWindow} {w : QuotaWindow}
    (hmem : keyOf w ∈ result.map keyOf) (ws : List QuotaWindow) (k : String × Option Int) :
    (result ++ w :: ws).find? (fun w ↦ keyOf w == k) =
      (result ++ ws).find? fun w ↦ keyOf w == k := by
  rw [List.find?_append, List.find?_append, List.find?_cons]
  by_cases hk : keyOf w = k
  · obtain ⟨e, he, hsame⟩ := List.mem_map.mp hmem
    have hfound : (result.find? fun w ↦ keyOf w == k).isSome = true :=
      List.find?_isSome.mpr ⟨e, he, beq_iff_eq.mpr (hsame.trans hk)⟩
    obtain ⟨found, hfound⟩ := Option.isSome_iff_exists.mp hfound
    rw [hfound]
    rfl
  · rw [beq_eq_false_iff_ne.mpr hk]

/-- A name without one keeps the first window of each length. -/
theorem foldl_of_plain {pool : String} (hpool : '-' ∉ pool.toList) {ws : List QuotaWindow}
    (hws : ∀ w ∈ ws, w.pool = normalised pool) {result : List QuotaWindow}
    (hnodup : (result.map keyOf).Nodup) :
    ((ws.foldl (pushWindow pool) result).map keyOf).Nodup ∧
      ∀ k, (ws.foldl (pushWindow pool) result).find? (fun w ↦ keyOf w == k) =
        (result ++ ws).find? fun w ↦ keyOf w == k := by
  induction ws generalizing result with
  | nil =>
    rw [List.append_nil]
    exact ⟨hnodup, fun _ ↦ rfl⟩
  | cons w ws ih =>
    have hrest := fun w' hw' ↦ hws w' (List.mem_cons_of_mem _ hw')
    rw [List.foldl_cons, pushWindow_of_plain hpool result (hws w List.mem_cons_self)]
    split
    · next hmem =>
      obtain ⟨hunique, hfind⟩ := ih hrest hnodup
      exact ⟨hunique, fun k ↦ (hfind k).trans (find?_append_of_mem hmem ws k).symm⟩
    · next hmem =>
      have hmore : ((result ++ [w]).map keyOf).Nodup := by
        rw [List.map_append, List.map_singleton, List.nodup_append]
        refine ⟨hnodup, List.nodup_singleton _, fun k hk k' hk' ↦ ?_⟩
        rw [List.mem_singleton.mp hk']
        rintro rfl
        exact hmem hk
      obtain ⟨hunique, hfind⟩ := ih hrest hmore
      refine ⟨hunique, fun k ↦ ?_⟩
      rw [hfind k, List.append_assoc]
      rfl

/-- A key is among the windows exactly where one is found. -/
theorem mem_keys_iff (ws : List QuotaWindow) (k : String × Option Int) :
    k ∈ ws.map keyOf ↔ (ws.find? fun w ↦ keyOf w == k).isSome = true := by
  rw [List.mem_map, List.find?_isSome]
  refine exists_congr fun w ↦ and_congr_right fun _ ↦ ?_
  rw [beq_iff_eq]

variable (asF64 fromTimestamp now) in
/-- The first window of each key is kept, whatever else is. -/
theorem ownWindows_first (value : Json) (k : String × Option Int) :
    (ownWindows asF64 fromTimestamp now value).find? (fun w ↦ keyOf w == k) =
      (offered asF64 fromTimestamp now value).find? fun w ↦ keyOf w == k := by
  unfold ownWindows
  by_cases hpool : '-' ∈ (poolOf value).toList
  · rw [foldl_of_hyphen hpool (fun _ ↦ pool_offered) (fun _ he ↦ absurd he List.not_mem_nil),
      List.nil_append]
  · have hnil : (([] : List QuotaWindow).map keyOf).Nodup := List.nodup_nil
    exact (foldl_of_plain hpool (fun _ ↦ pool_offered) hnil).2 k

variable (asF64 fromTimestamp now) in
private theorem keys_offered (value : Json) : (offered asF64 fromTimestamp now value).map keyOf =
    (lengths asF64 fromTimestamp now value).map fun m ↦ (normalised (poolOf value), m) := by
  unfold lengths
  rw [List.map_map]
  refine List.map_congr_left fun w hw ↦ ?_
  rw [keyOf, pool_offered hw]
  rfl

variable (asF64 fromTimestamp now) in
/-- A value gives a window once unless its name has a hyphen and it names a length twice. -/
theorem ownWindows_nodup_iff (value : Json) :
    ((ownWindows asF64 fromTimestamp now value).map keyOf).Nodup ↔
      ('-' ∈ (poolOf value).toList → (lengths asF64 fromTimestamp now value).Nodup) := by
  have hinjective : Function.Injective fun m : Option Int ↦ (normalised (poolOf value), m) :=
    fun _ _ h ↦ (Prod.mk.inj h).2
  unfold ownWindows
  by_cases hpool : '-' ∈ (poolOf value).toList
  · rw [foldl_of_hyphen hpool (fun _ ↦ pool_offered) (fun _ he ↦ absurd he List.not_mem_nil),
      List.nil_append, keys_offered, List.nodup_map_iff hinjective]
    exact ⟨fun h _ ↦ h, fun h ↦ h hpool⟩
  · have hnil : (([] : List QuotaWindow).map keyOf).Nodup := List.nodup_nil
    exact iff_of_true (foldl_of_plain hpool (fun _ ↦ pool_offered) hnil).1
      fun h ↦ absurd h hpool

variable (asF64 fromTimestamp now) in
/-- Which keys a value gives. -/
theorem mem_keys_ownWindows (value : Json) (k : String × Option Int) :
    k ∈ (ownWindows asF64 fromTimestamp now value).map keyOf ↔
      k.1 = normalised (poolOf value) ∧ k.2 ∈ lengths asF64 fromTimestamp now value := by
  rw [mem_keys_iff, ownWindows_first, ← mem_keys_iff, keys_offered, List.mem_map]
  constructor
  · rintro ⟨m, hm, rfl⟩
    exact ⟨rfl, hm⟩
  · rintro ⟨hpool, hm⟩
    exact ⟨k.2, hm, by rw [← hpool]⟩

/-! ### The report as a whole -/

/-- No pool has a length twice, and of each the first is kept. -/
structure Unique (offers result : List QuotaWindow) : Prop where
  nodup : (result.map keyOf).Nodup
  first : ∀ k, result.find? (fun w ↦ keyOf w == k) = offers.find? fun w ↦ keyOf w == k

variable (asF64 fromTimestamp now) in
/-- No window is named twice where the source does not look for it: within a value whose name has
a hyphen, and in two values whose names normalise to one. -/
structure Apart (levels : List Json) : Prop where
  within : ∀ level ∈ levels, '-' ∈ (poolOf level).toList →
    (lengths asF64 fromTimestamp now level).Nodup
  between : levels.Pairwise fun a b ↦ normalised (poolOf a) = normalised (poolOf b) →
    ∀ m ∈ lengths asF64 fromTimestamp now a, m ∉ lengths asF64 fromTimestamp now b

variable (asF64 fromTimestamp now) in
private theorem nodup_levels_iff (levels : List Json) :
    ((levels.flatMap (ownWindows asF64 fromTimestamp now)).map keyOf).Nodup ↔
      Apart asF64 fromTimestamp now levels := by
  rw [List.map_flatMap, List.nodup_flatMap]
  constructor
  · rintro ⟨hwithin, hbetween⟩
    refine ⟨fun level hlevel ↦ (ownWindows_nodup_iff asF64 fromTimestamp now level).mp
      (hwithin level hlevel), hbetween.imp fun {a b} hdisjoint hpool m ha hb ↦ ?_⟩
    refine hdisjoint (a := (normalised (poolOf a), m)) ?_ ?_
    · exact (mem_keys_ownWindows asF64 fromTimestamp now a _).mpr ⟨rfl, ha⟩
    · exact (mem_keys_ownWindows asF64 fromTimestamp now b _).mpr ⟨hpool, hb⟩
  · rintro ⟨hwithin, hbetween⟩
    refine ⟨fun level hlevel ↦ (ownWindows_nodup_iff asF64 fromTimestamp now level).mpr
      (hwithin level hlevel), hbetween.imp fun {a b} hapart k ha hb ↦ ?_⟩
    obtain ⟨hpool, hm⟩ := (mem_keys_ownWindows asF64 fromTimestamp now a k).mp ha
    obtain ⟨hpool', hm'⟩ := (mem_keys_ownWindows asF64 fromTimestamp now b k).mp hb
    exact hapart (hpool.symm.trans hpool') k.2 hm hm'

variable (asF64 fromTimestamp now) in
private theorem first_levels (levels : List Json) (k : String × Option Int) :
    (levels.flatMap (ownWindows asF64 fromTimestamp now)).find? (fun w ↦ keyOf w == k) =
      (levels.flatMap (offered asF64 fromTimestamp now)).find? fun w ↦ keyOf w == k := by
  induction levels with
  | nil => rfl
  | cons level levels ih =>
    rw [List.flatMap_cons, List.flatMap_cons, List.find?_append, List.find?_append,
      ownWindows_first, ih]

/-- The windows of a report are unique, the first of each, exactly where nothing is named twice
in the places the source does not compare. -/
theorem windows_unique_iff {value : Json} {result : List QuotaWindow}
    (h : windows asF64 fromTimestamp now value = some result) :
    ∃ visited, levels value = some visited ∧
      (Unique (visited.flatMap (offered asF64 fromTimestamp now)) result ↔
        Apart asF64 fromTimestamp now visited) := by
  rw [windows_levels] at h
  obtain ⟨visited, hvisited, rfl⟩ := Option.map_eq_some_iff.mp h
  refine ⟨visited, hvisited, ?_⟩
  rw [← nodup_levels_iff]
  exact ⟨fun h ↦ h.nodup, fun h ↦ ⟨h, first_levels asF64 fromTimestamp now visited⟩⟩

end

/-- A report that names one length twice in a pool whose name has a hyphen. -/
def repeated : Json :=
  .obj [("limit_id", .str "codex-spark"),
    ("primary", .obj [("used_percent", .int 10), ("window_minutes", .int 300)]),
    ("secondary", .obj [("used_percent", .int 90), ("window_minutes", .int 300)])]

private theorem windows_repeated :
    windows (fun v ↦ v.asU64.map fun n ↦ (n : Rat)) (fun n ↦ some (n * 1000)) 0 repeated =
      some [⟨"codex_spark", some 300, some 10, none, 0⟩,
        ⟨"codex_spark", some 300, some 90, none, 0⟩] := by
  have hnested : nested repeated = some [] := by rfl
  rw [windows_eq, hnested, Option.bind_some, List.mapM_nil]
  decide +kernel

/-- Both windows of the report are of one pool and length, and the condition says so. -/
theorem windows_unique_iff_repeated :
    ∃ visited, levels repeated = some visited ∧
      (Unique (visited.flatMap (offered (fun v ↦ v.asU64.map fun n ↦ (n : Rat))
          (fun n ↦ some (n * 1000)) 0))
        [⟨"codex_spark", some 300, some 10, none, 0⟩,
          ⟨"codex_spark", some 300, some 90, none, 0⟩] ↔
        Apart (fun v ↦ v.asU64.map fun n ↦ (n : Rat)) (fun n ↦ some (n * 1000)) 0 visited) :=
  windows_unique_iff windows_repeated

/-- The name is compared with what it became, so both windows are kept. -/
theorem windows_repeats :
    ∃ result,
      windows (fun v ↦ v.asU64.map fun n ↦ (n : Rat)) (fun n ↦ some (n * 1000)) 0 repeated =
        some result ∧ ¬ (result.map keyOf).Nodup :=
  ⟨_, windows_repeated, by decide +kernel⟩

end Quota
end Xxgate.Codex
