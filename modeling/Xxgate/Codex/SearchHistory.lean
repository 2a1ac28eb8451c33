import Xxgate.Codex.Request

/-!
# Declaring a search tool for a search history

`crates/xxgate-codex/src/provider/search_history.rs:6–58`. A request that replays hosted
searches without declaring a search tool is given one, and one that had declared no tool is
kept from calling it. The function is written here statement by statement: it indexes and
unwraps the map it has just written, and has no value where one of these fails. It always has
one, which is that of the function that prepares a request with it.
-/

namespace Xxgate.Codex.SearchHistory

open Xxgate.Core Json

/-- The object of a request body: its fields. -/
abbrev Body := List (String × Json)

/-- `search_history.rs:13–23`: the tools of the body, then those of the items that add tools. -/
def declared (body : Body) : List Json :=
  let input := ((field body "input").bind asArray).getD []
  let additional := (input.filter (·.hasType "additional_tools")).flatMap fun item ↦
    ((item.get "tools").bind asArray).getD []
  ((field body "tools").bind asArray).getD [] ++ additional

/-- `search_history.rs:39`. -/
def tool : Json := .obj [("external_web_access", .bool false), ("type", .str "web_search")]

/-- `search_history.rs:40–48`: a missing or null `tools` is made an array, and the tool is
pushed. None where the source panics: an absent key is indexed, or no array is unwrapped. -/
def pushTool (body : Body) : Option Body := do
  let body := if (field body "tools").isSome then body else insert body "tools" (.arr [])
  let tools ← field body "tools"
  let body := if tools.isNull then insert body "tools" (.arr []) else body
  let items ← (← field body "tools").asArray
  return replace body "tools" (.arr (items ++ [tool]))

/-- `search_history.rs:49–57`. -/
def chooseNone (body : Body) (noTools : Bool) : Body :=
  if noTools && ((field body "tool_choice").isNone ||
      (field body "tool_choice").any fun choice ↦
        choice.asStr == some "auto" || choice.asStr == some "none") then
    insert body "tool_choice" (.str "none")
  else body

/-- `search_history.rs:6–58`; none where the source panics. -/
def ensureDeclaration (body : Body) : Option Body :=
  match (field body "input").bind asArray with
  | none => some body
  | some input =>
    if !input.any (·.hasType "web_search_call") then some body
    else if (declared body).any isSearchTool then some body
    else if (field body "tools").any fun v ↦ v.asArray.isNone && !v.isNull then some body
    else (pushTool body).map (chooseNone · (declared body).isEmpty)

/-- The body asks for the repair: there is a search in its history, and its tools are absent,
null or an array. -/
def Repairable (body : Body) : Prop :=
  (∃ input, field body "input" = some (.arr input) ∧
    ∃ item ∈ input, item.hasType "web_search_call" = true) ∧
  (field body "tools" = none ∨ field body "tools" = some .null ∨
    ∃ tools, field body "tools" = some (.arr tools))

/-- A choice that does not ask for a tool. -/
def Unasked (choice : Option Json) : Prop :=
  choice = none ∨ choice = some .null ∨ choice = some (.str "auto") ∨ choice = some (.str "none")

/-- What the repair of a body does to it. -/
structure Repaired (body body' : Body) : Prop where
  idempotent : ensureDeclaration body' = some body'
  input : field body' "input" = field body "input"
  tools : ∀ tools, field body "tools" = some (.arr tools) →
    ∃ added, field body' "tools" = some (.arr (tools ++ added))
  other : ∀ name, name ≠ "tools" → name ≠ "tool_choice" → field body' name = field body name
  searchable : Repairable body → ∃ t ∈ declared body', isSearchTool t = true
  uncalled : Repairable body → declared body = [] → Unasked (field body "tool_choice") →
    field body' "tool_choice" = some (.str "none")
  asked : Repairable body → declared body = [] → ¬ Unasked (field body "tool_choice") →
    field body' "tool_choice" = field body "tool_choice"
  chosen : declared body ≠ [] → field body' "tool_choice" = field body "tool_choice"
  untouched : ¬ Repairable body → body' = body

/-! ### The tool is pushed -/

/-- What a body holds after the tool is pushed. -/
structure Pushed (body body' : Body) : Prop where
  tools : field body' "tools" =
    some (.arr (((field body "tools").bind asArray).getD [] ++ [tool]))
  other : ∀ name, name ≠ "tools" → field body' name = field body name

/-- Writing a field of a body that has it. -/
theorem pushed_replace {body body' : Body} {items : List Json}
    (htools : field body' "tools" = some (.arr items))
    (hitems : items = ((field body "tools").bind asArray).getD [])
    (hother : ∀ name, name ≠ "tools" → field body' name = field body name) :
    Pushed body (replace body' "tools" (.arr (items ++ [tool]))) := by
  refine ⟨?_, fun name hname ↦ ?_⟩
  · rw [field_replace htools, hitems]
  · rw [field_replace_ne body' hname, hother name hname]

/-- The tool is pushed, and nothing panics, unless `tools` is malformed. -/
theorem pushTool_isSome {body : Body} (h : field body "tools" = none ∨
    field body "tools" = some .null ∨ ∃ tools, field body "tools" = some (.arr tools)) :
    ∃ body', pushTool body = some body' ∧ Pushed body body' := by
  have hinserted : field (insert body "tools" (.arr [])) "tools" = some (.arr []) := by
    rw [field_insert, if_pos rfl]
  have hothers : ∀ name, name ≠ "tools" →
      field (insert body "tools" (.arr [])) name = field body name :=
    fun name hname ↦ by rw [field_insert, if_neg hname]
  rcases h with h | h | ⟨tools, h⟩
  · refine ⟨_, ?_, pushed_replace hinserted (by rw [h]; rfl) hothers⟩
    simp [pushTool, h, hinserted, isNull, asArray]
  · refine ⟨_, ?_, pushed_replace hinserted (by rw [h]; rfl) hothers⟩
    simp [pushTool, h, hinserted, isNull, asArray]
  · refine ⟨_, ?_, pushed_replace h (by rw [h]; rfl) fun _ _ ↦ rfl⟩
    simp [pushTool, h, isNull, asArray]

/-- The pushed tool is a declared search tool. -/
theorem Pushed.searchable {body body' : Body} (h : Pushed body body') :
    tool ∈ declared body' := by
  unfold declared
  rw [h.tools]
  exact List.mem_append_left _ (List.mem_append_right _ (List.mem_singleton.mpr rfl))

/-! ### The choice -/

/-- The choice does not change which tools are declared, nor any other field. -/
theorem field_chooseNone (body : Body) (noTools : Bool) {name : String}
    (hname : name ≠ "tool_choice") : field (chooseNone body noTools) name = field body name := by
  unfold chooseNone
  split
  · rw [field_insert, if_neg hname]
  · rfl

private theorem declared_chooseNone (body : Body) (noTools : Bool) :
    declared (chooseNone body noTools) = declared body := by
  unfold declared
  rw [field_chooseNone body noTools (by decide), field_chooseNone body noTools (by decide)]

/-- With tools of the caller's own the choice is kept. -/
theorem chooseNone_false (body : Body) : chooseNone body false = body := rfl

/-- A choice that does not ask for a tool becomes `none`, unless it is null. -/
theorem field_chooseNone_unasked {body : Body} (h : Unasked (field body "tool_choice"))
    (hnull : field body "tool_choice" ≠ some .null) :
    field (chooseNone body true) "tool_choice" = some (.str "none") := by
  unfold chooseNone
  rcases h with h | h | h | h
  · rw [h, if_pos (by decide), field_insert, if_pos rfl]
  · exact absurd h hnull
  · rw [h, if_pos (by decide), field_insert, if_pos rfl]
  · rw [h, if_pos (by decide), field_insert, if_pos rfl]

/-- One that does, or is null, is kept. -/
theorem chooseNone_kept {body : Body}
    (h : ¬ Unasked (field body "tool_choice") ∨ field body "tool_choice" = some .null) :
    chooseNone body true = body := by
  refine if_neg fun hset ↦ ?_
  rw [Bool.true_and, Bool.or_eq_true, Option.isNone_iff_eq_none, Option.any_eq_true] at hset
  rcases hset with hnone | ⟨choice, hchoice, hset⟩
  · rw [hnone] at h
    exact h.elim (fun h ↦ h (.inl rfl)) nofun
  · have hunasked : choice = .str "auto" ∨ choice = .str "none" := by
      cases choice with
      | str text => simpa [asStr] using hset
      | _ => simp [asStr] at hset
    rw [hchoice] at h
    rcases h with h | h
    · exact h (.inr (.inr (hunasked.imp (congrArg some) (congrArg some))))
    · rw [Option.some.inj h] at hunasked
      exact hunasked.elim nofun nofun

/-! ### The whole function -/

private theorem asArray_eq_some {value : Json} {items : List Json}
    (h : value.asArray = some items) : value = .arr items := by
  cases value with
  | arr values => rw [Option.some.inj h]
  | _ => cases h

/-- Tools that are not malformed are absent, null or an array. -/
theorem tools_of_not_malformed {tools : Option Json}
    (h : ¬ (tools.any fun v ↦ v.asArray.isNone && !v.isNull) = true) :
    tools = none ∨ tools = some .null ∨ ∃ items, tools = some (.arr items) := by
  cases tools with
  | none => exact .inl rfl
  | some value =>
    cases value with
    | null => exact .inr (.inl rfl)
    | arr items => exact .inr (.inr ⟨items, rfl⟩)
    | _ => exact absurd rfl h

/-- A body that declares a search tool is kept. -/
theorem ensureDeclaration_of_declared {body : Body} (h : (declared body).any isSearchTool = true) :
    ensureDeclaration body = some body := by
  unfold ensureDeclaration
  split
  · rfl
  · rw [if_pos h, ite_self]

/-- A body that does not ask for the repair is kept. -/
theorem ensureDeclaration_of_not_repairable {body : Body} (h : ¬ Repairable body) :
    ensureDeclaration body = some body := by
  unfold ensureDeclaration
  split
  · rfl
  · next input hinput =>
    obtain ⟨items, hitems, harray⟩ := Option.bind_eq_some_iff.mp hinput
    have hitems : field body "input" = some (.arr input) := by rw [hitems, asArray_eq_some harray]
    refine ite_eq_left_iff.mpr fun hsearch ↦ ite_eq_left_iff.mpr fun _ ↦
      ite_eq_left_iff.mpr fun htools ↦ absurd ⟨⟨input, hitems, ?_⟩, ?_⟩ h
    · simpa using hsearch
    · exact tools_of_not_malformed htools

/-- In a body that asks for the repair the tool is pushed and the choice is made; nothing
panics. -/
theorem ensureDeclaration_of_repairable {body : Body} (h : Repairable body)
    (hnone : ¬ (declared body).any isSearchTool = true) :
    ∃ pushed, Pushed body pushed ∧
      ensureDeclaration body = some (chooseNone pushed (declared body).isEmpty) := by
  obtain ⟨⟨input, hinput, item, hitem, hsearch⟩, htools⟩ := h
  obtain ⟨pushed, hpush, hpushed⟩ := pushTool_isSome htools
  refine ⟨pushed, hpushed, ?_⟩
  have hany : input.any (·.hasType "web_search_call") = true :=
    List.any_eq_true.mpr ⟨item, hitem, hsearch⟩
  have hwell : ¬ ((field body "tools").any fun v ↦ v.asArray.isNone && !v.isNull) = true := by
    rcases htools with h | h | ⟨tools, h⟩ <;> rw [h] <;> simp [asArray, isNull]
  have hread : (field body "input").bind asArray = some input := by rw [hinput]; rfl
  unfold ensureDeclaration
  rw [hread]
  dsimp only
  rw [if_neg (by rw [hany]; decide), if_neg hnone, if_neg hwell, hpush, Option.map_some]

/-- What is kept is repaired: there is nothing to do, or a search tool is declared. -/
theorem repaired_self {body : Body}
    (h : ¬ Repairable body ∨ (declared body).any isSearchTool = true) : Repaired body body := by
  have hempty : Repairable body → declared body ≠ [] := by
    intro hrepair hempty
    rcases h with h | h
    · exact h hrepair
    · rw [hempty] at h
      cases h
  exact {
    idempotent := h.elim ensureDeclaration_of_not_repairable ensureDeclaration_of_declared
    input := rfl
    tools := fun tools htools ↦ ⟨[], by rw [htools, List.append_nil]⟩
    other := fun _ _ _ ↦ rfl
    searchable := fun hrepair ↦ List.any_eq_true.mp (h.resolve_left (absurd hrepair))
    uncalled := fun hrepair hnone _ ↦ absurd hnone (hempty hrepair)
    asked := fun _ _ _ ↦ rfl
    chosen := fun _ ↦ rfl
    untouched := fun _ ↦ rfl }

/-- A pushed tool leaves the caller's choice, however it is made. -/
theorem Pushed.choice {body pushed : Body} (h : Pushed body pushed) :
    field pushed "tool_choice" = field body "tool_choice" := h.other _ (by decide)

/-- After the tool is pushed and the choice is made the body is repaired, unless a caller who
declared no tool left the choice null. -/
theorem repaired_pushed {body pushed : Body} (h : Pushed body pushed) (hrepair : Repairable body) :
    Repaired body (chooseNone pushed (declared body).isEmpty) ↔
      ¬ (declared body = [] ∧ field body "tool_choice" = some .null) := by
  have hsearch : isSearchTool tool = true := by decide
  have hdeclared : tool ∈ declared (chooseNone pushed (declared body).isEmpty) := by
    rw [declared_chooseNone]
    exact h.searchable
  constructor
  · intro hrepaired hnull
    have hset := hrepaired.uncalled hrepair hnull.1 (.inr (.inl hnull.2))
    rw [hnull.1, List.isEmpty_nil,
      chooseNone_kept (.inr (h.choice.trans hnull.2)), h.choice, hnull.2] at hset
    cases hset
  · intro hchoice
    exact {
      idempotent := ensureDeclaration_of_declared
        (List.any_eq_true.mpr ⟨tool, hdeclared, hsearch⟩)
      input := by rw [field_chooseNone _ _ (by decide), h.other _ (by decide)]
      tools := fun tools htools ↦ ⟨[tool], by
        rw [field_chooseNone _ _ (by decide), h.tools, htools]
        rfl⟩
      other := fun name htools hname ↦ by rw [field_chooseNone _ _ hname, h.other _ htools]
      searchable := fun _ ↦ ⟨tool, hdeclared, hsearch⟩
      uncalled := fun _ hnone hunasked ↦ by
        rw [hnone, List.isEmpty_nil]
        exact field_chooseNone_unasked (h.choice ▸ hunasked)
          (h.choice ▸ fun hnull ↦ hchoice ⟨hnone, hnull⟩)
      asked := fun _ hnone hasked ↦ by
        rw [hnone, List.isEmpty_nil, chooseNone_kept (.inl (h.choice ▸ hasked)), h.choice]
      chosen := fun hsome ↦ by
        rw [List.isEmpty_eq_false_iff.mpr hsome, chooseNone_false, h.choice]
      untouched := fun hnot ↦ absurd hrepair hnot }

/-! ### The function that prepares a request -/

/-- Pushing the tool writes `tools` once. -/
theorem pushTool_eq {body : Body} (hordered : body.Pairwise (·.1 < ·.1))
    (h : field body "tools" = none ∨ field body "tools" = some .null ∨
      ∃ tools, field body "tools" = some (.arr tools)) :
    pushTool body = some (insert body "tools"
      (.arr (((field body "tools").bind asArray).getD [] ++ [tool]))) := by
  have hinserted : field (insert body "tools" (.arr [])) "tools" = some (.arr []) := by
    rw [field_insert, if_pos rfl]
  rcases h with h | h | ⟨tools, h⟩
  · simp [pushTool, h, hinserted, isNull, asArray, replace_insert]
  · simp [pushTool, h, hinserted, isNull, asArray, replace_insert]
  · have hwritten := Option.isSome_iff_exists.mpr ⟨_, h⟩
    simp [pushTool, h, isNull, asArray, replace_eq_insert hordered hwritten]

/-- The keys of an object are in order. The preparation of a request then computes the value
the source's statements compute, and they do not panic. -/
theorem ensureDeclaration_eq {body : Body} (hordered : body.Pairwise (·.1 < ·.1)) :
    ensureDeclaration body = some (Codex.ensureDeclaration body) := by
  unfold ensureDeclaration Codex.ensureDeclaration
  cases hinput : (field body "input").bind asArray with
  | none => rfl
  | some input =>
    have hdeclared : ((field body "tools").bind asArray).getD [] ++
        (input.filter (·.hasType "additional_tools")).flatMap (fun item ↦
          ((item.get "tools").bind asArray).getD []) = declared body := by
      unfold declared
      rw [hinput, Option.getD_some]
    dsimp only
    rw [hdeclared]
    split
    · rfl
    · split
      · rfl
      · split
        · rfl
        · next hwell =>
          rw [pushTool_eq hordered (tools_of_not_malformed hwell), Option.map_some]
          refine congrArg some (if_congr ?_ rfl rfl)
          rw [field_insert, if_neg (by decide)]
          cases field body "tool_choice" <;> rfl

/-! ### Every body -/

/-- Every body gets its repair, without a panic, and the repair is idempotent and keeps the
input, the tools and the caller's choice. It fails in one case: a caller who declared no tool
and whose choice is null. The injected tool can then be called. Where the keys are in order, as
those of a parsed object are, the preparation of a request computes the same body. -/
theorem repaired_iff (body : Body) :
    ∃ body', ensureDeclaration body = some body' ∧
      (Repaired body body' ↔
        ¬ (Repairable body ∧ declared body = [] ∧ field body "tool_choice" = some .null)) ∧
      (body.Pairwise (·.1 < ·.1) → body' = Codex.ensureDeclaration body) := by
  have hprepared : ∀ {body' : Body}, ensureDeclaration body = some body' →
      body.Pairwise (·.1 < ·.1) → body' = Codex.ensureDeclaration body :=
    fun heq hordered ↦ Option.some.inj (heq.symm.trans (ensureDeclaration_eq hordered))
  by_cases hkept : ¬ Repairable body ∨ (declared body).any isSearchTool = true
  · have heq := hkept.elim ensureDeclaration_of_not_repairable ensureDeclaration_of_declared
    refine ⟨body, heq, iff_of_true (repaired_self hkept) fun hnull ↦ ?_, hprepared heq⟩
    rcases hkept with hkept | hkept
    · exact hkept hnull.1
    · rw [hnull.2.1] at hkept
      cases hkept
  · obtain ⟨hrepair, hnone⟩ := not_or.mp hkept
    have hrepair := not_not.mp hrepair
    obtain ⟨pushed, hpushed, heq⟩ := ensureDeclaration_of_repairable hrepair hnone
    refine ⟨_, heq, (repaired_pushed hpushed hrepair).trans (not_congr ?_), hprepared heq⟩
    exact (and_iff_right hrepair).symm

/-- A body with a search in its history, no tools, and a null choice. -/
def nullChoice : Body :=
  [("input", .arr [.obj [("type", .str "web_search_call")]]), ("tool_choice", .null)]

/-- The body with a null choice is given a search tool, and the choice stays null. -/
theorem null_choice_kept :
    ∃ body', ensureDeclaration nullChoice = some body' ∧ Repairable nullChoice ∧
      declared nullChoice = [] ∧ Unasked (field nullChoice "tool_choice") ∧
      field body' "tool_choice" = some .null ∧ ¬ Repaired nullChoice body' := by
  have hrepair : Repairable nullChoice :=
    ⟨⟨_, rfl, _, List.mem_singleton.mpr rfl, by decide⟩, .inl rfl⟩
  have hunasked : Unasked (field nullChoice "tool_choice") := .inr (.inl rfl)
  refine ⟨_, rfl, hrepair, rfl, hunasked, rfl, fun hrepaired ↦ ?_⟩
  cases hrepaired.uncalled hrepair rfl hunasked

end Xxgate.Codex.SearchHistory
