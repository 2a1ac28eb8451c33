import Xxgate.Core.Protocol

/-!
# Encrypted-content recovery

`crates/xxgate-codex/src/provider/recovery.rs:1–155` and the part of `events.rs:56–110`
that recognises a rejection in a stream. A body is the JSON value its bytes spell, or none
when they spell none.
-/

namespace Xxgate.Codex

open Xxgate.Core

/-! ### Recognising a rejection -/

/-- `recovery.rs:27`. -/
def rejection (value : Json) : Option EncryptedContentError :=
  if ((value.pointer "error" "code").or (value.get "code")).bind Json.asStr ≠
      some "invalid_encrypted_content" then none
  else
    let message := (((value.pointer "error" "message").or (value.get "message")).bind
      Json.asStr).getD ""
    some (if message = "Encrypted function output content could not be decrypted or decoded."
      then .toolOutput else .reasoning)

mutual

/-- `events.rs:238`. -/
def noUsage : Json → Bool
  | .null => true
  | .int n => n == 0
  | .obj fields => noUsageFields fields
  | _ => false

/-- All values of an object. -/
def noUsageFields : List (String × Json) → Bool
  | [] => true
  | (_, v) :: rest => noUsage v && noUsageFields rest

end

/-- `events.rs:237`. -/
def noReportedWork (value : Json) : Bool :=
  value.isObject &&
    (value.get "output").all (fun output ↦ output.isNull || output.asArray.any List.isEmpty) &&
    (value.get "usage").all noUsage

/-- `events.rs:91`: the rejection a `response.failed` or `error` event reports, when nothing
was reported before it. -/
def encryptedRejection (event : Json) : Option EncryptedContentError :=
  if event.hasType "response.failed" || event.hasType "error" then
    let body := (event.get "response").getD event
    if noReportedWork body && (event.get "item").isNone && (event.get "delta").isNone then
      rejection body
    else none
  else none

/-- `events.rs:81`: a control event that can be held back. -/
def recoveryPreamble (event : Json) : Bool :=
  (event.hasType "response.created" || event.hasType "response.queued" ||
      event.hasType "response.in_progress") &&
    (event.get "response").any noReportedWork && (event.get "item").isNone &&
    (event.get "delta").isNone

/-- `events.rs:173`: the events that end a stream. -/
def isTerminal (event : Json) : Bool :=
  event.hasType "response.completed" || event.hasType "response.failed" ||
    event.hasType "response.incomplete" || event.hasType "error"

/-! ### Cleaning the request -/

/-- `recovery.rs:49`. -/
def toolOutput (item : Json) : Bool :=
  item.hasType "function_call_output" || item.hasType "custom_tool_call_output"

/-- The `has` of `recovery.rs:60`. -/
def recoverable (item : Json) : Bool :=
  (item.hasType "reasoning" && (item.get "encrypted_content").isSome) ||
    (toolOutput item &&
      ((item.get "output").bind Json.asArray).any (·.any (·.hasType "encrypted_content")))

/-- `recovery.rs:56`. -/
def hasRecoverableInput (request : PreparedRequest) : Bool :=
  match request.body.bind (·.get "input") with
  | some (.arr items) => items.any recoverable
  | some (.obj fields) => recoverable (.obj fields)
  | _ => false

/-- `recovery.rs:117`: what takes the place of a rejected part. -/
def unavailablePart : Json := .obj [("type", .str "input_text"), ("text", .str
  "[XXGate: An encrypted part of this historical tool result was rejected by the upstream and is unavailable. The tool may already have executed. Do not infer success or failure, or repeat side-effecting actions solely because this result is unavailable.]")]

/-- `recovery.rs:112`: replace the encrypted parts of a tool result. -/
def cleanParts : List Json → EncryptedContentRecovery → List Json × EncryptedContentRecovery
  | [], changes => ([], changes)
  | part :: rest, changes =>
    if part.hasType "encrypted_content" then
      let (rest, changes) := cleanParts rest
        { changes with encryptedToolPartsReplaced := changes.encryptedToolPartsReplaced + 1 }
      (unavailablePart :: rest, changes)
    else
      let (rest, changes) := cleanParts rest changes
      (part :: rest, changes)

/-- `recovery.rs:106–128`: the branch for a rejected tool output. -/
def cleanToolOutput (item : Json) (changes : EncryptedContentRecovery) :
    Json × EncryptedContentRecovery :=
  match item, (item.get "output").bind Json.asArray with
  | .obj fields, some parts =>
    if toolOutput item then
      let (cleaned, after) := cleanParts parts changes
      (.obj (Json.replace fields "output" (.arr cleaned)),
        if after.encryptedToolPartsReplaced > changes.encryptedToolPartsReplaced then
          { after with toolOutputsChanged := after.toolOutputsChanged + 1 }
        else after)
    else (item, changes)
  | _, _ => (item, changes)

/-- `recovery.rs:129–151`: the branch for rejected reasoning; none when nothing of the item
is left. -/
def cleanReasoning (item : Json) (changes : EncryptedContentRecovery) :
    Option Json × EncryptedContentRecovery :=
  match item with
  | .obj fields =>
    if ((Json.field fields "type").bind Json.asStr).map trim ≠ some "reasoning" then
      (some item, changes)
    else if (Json.field fields "encrypted_content").isNone then (some item, changes)
    else
      let fields := Json.remove fields "encrypted_content"
      let changes := { changes with encryptedFieldsRemoved := changes.encryptedFieldsRemoved + 1 }
      let nulled := (Json.field fields "content").any Json.isNull
      let fields := if nulled then Json.remove fields "content" else fields
      let changes := if nulled then
          { changes with nullContentFieldsRemoved := changes.nullContentFieldsRemoved + 1 }
        else changes
      if fields.length = 1 then
        (none, { changes with
          emptyReasoningItemsRemoved := changes.emptyReasoningItemsRemoved + 1 })
      else (some (.obj fields), changes)
  | _ => (some item, changes)

/-- `recovery.rs:105`; none when the item is dropped. -/
def cleanItem (item : Json) (changes : EncryptedContentRecovery) :
    Option Json × EncryptedContentRecovery :=
  match changes.errorKind with
  | .toolOutput =>
    let (item, changes) := cleanToolOutput item changes
    (some item, changes)
  | .reasoning => cleanReasoning item changes

/-- `Vec::retain_mut` with `clean_item`. -/
def cleanItems : List Json → EncryptedContentRecovery → List Json × EncryptedContentRecovery
  | [], changes => ([], changes)
  | item :: rest, changes =>
    let (kept, changes) := cleanItem item changes
    let (rest, changes) := cleanItems rest changes
    (kept.toList ++ rest, changes)

/-- `recovery.rs:88`: the input with its items cleaned. -/
def cleanInput (input : Json) (changes : EncryptedContentRecovery) :
    Json × EncryptedContentRecovery :=
  match input with
  | .arr items =>
    let (items, changes) := cleanItems items changes
    (.arr items, changes)
  | .obj fields =>
    let (kept, changes) := cleanItem (.obj fields) changes
    (kept.getD (.arr []), changes)
  | _ => (input, changes)

/-- `recovery.rs:76`: the request to send again and what was changed in it, or none when
there is nothing of the rejected kind to clean. -/
def clean (request : PreparedRequest) (error : EncryptedContentError) :
    Result (Option (PreparedRequest × EncryptedContentRecovery)) :=
  match request.body with
  | none => .error (.invalid "Unable to prepare encrypted reasoning recovery")
  | some body =>
    let none_yet : EncryptedContentRecovery := ⟨error, 0, 0, 0, 0, 0⟩
    match body, body.get "input" with
    | .obj fields, some input =>
      let (cleaned, changes) := cleanInput input none_yet
      if changes.encryptedFieldsRemoved = 0 ∧ changes.encryptedToolPartsReplaced = 0 then
        .ok none
      else
        .ok (some ({ request with body := some (.obj (Json.replace fields "input" cleaned)) },
          changes))
    | _, _ => .ok none

/-- `recovery.rs:10`; an error body that is no JSON recovers nothing. -/
def prepare (kind : RequestKind) (request : PreparedRequest) (status : Nat)
    (errorBody : Option Json) : Result (Option (PreparedRequest × EncryptedContentRecovery)) :=
  if kind ≠ .responses ∨ status ≠ 400 then .ok none
  else
    match errorBody.bind rejection with
    | none => .ok none
    | some error => clean request error

/-! ### What cleaning changes -/

/-- The item has content of the rejected kind. -/
def hasRejected (error : EncryptedContentError) (item : Json) : Bool :=
  match error with
  | .reasoning =>
    ((item.get "type").bind Json.asStr).map trim == some "reasoning" &&
      (item.get "encrypted_content").isSome
  | .toolOutput =>
    (item.hasType "function_call_output" || item.hasType "custom_tool_call_output") &&
      ((item.get "output").bind Json.asArray).any (·.any (·.hasType "encrypted_content"))

/-- The items that hold such content are among those that the source takes for tool outputs. -/
theorem hasRejected_toolOutput (item : Json) : hasRejected .toolOutput item =
    (toolOutput item &&
      ((item.get "output").bind Json.asArray).any (·.any (·.hasType "encrypted_content"))) := rfl

/-- What was removed and replaced so far. -/
def removed (changes : EncryptedContentRecovery) : Nat :=
  changes.encryptedFieldsRemoved + changes.encryptedToolPartsReplaced

/-- Cleaning goes on from `changes` to what it made of something: nothing of the rejected
kind is left in it, and nothing was removed when there was nothing of it before. -/
structure Cleans (changes after : EncryptedContentRecovery) (before left : Bool) : Prop where
  kind : after.errorKind = changes.errorKind
  free : left = false
  removed : before = false → Codex.removed after = Codex.removed changes

/-- Cleaned parts are free of encrypted ones. -/
theorem cleanParts_cleans (parts : List Json) (changes : EncryptedContentRecovery) :
    Cleans changes (cleanParts parts changes).2 (parts.any (·.hasType "encrypted_content"))
      ((cleanParts parts changes).1.any (·.hasType "encrypted_content")) := by
  induction parts generalizing changes with
  | nil => exact ⟨rfl, rfl, fun _ ↦ rfl⟩
  | cons part rest ih =>
    unfold cleanParts
    by_cases h : part.hasType "encrypted_content" = true
    · have hr := ih { changes with
        encryptedToolPartsReplaced := changes.encryptedToolPartsReplaced + 1 }
      rw [if_pos h]
      refine ⟨hr.kind, ?_, ?_⟩
      · rw [List.any_cons, hr.free]
        decide
      · intro hb
        rw [List.any_cons, h] at hb
        cases hb
    · have hr := ih changes
      rw [if_neg h]
      refine ⟨hr.kind, ?_, ?_⟩
      · rw [List.any_cons, hr.free, Bool.eq_false_iff.mpr h]
        rfl
      · intro hb
        rw [List.any_cons, Bool.or_eq_false_iff] at hb
        exact hr.removed hb.2

/-- A cleaned tool result has no encrypted parts. -/
theorem cleanToolOutput_cleans (item : Json) (changes : EncryptedContentRecovery) :
    Cleans changes (cleanToolOutput item changes).2 (hasRejected .toolOutput item)
      (hasRejected .toolOutput (cleanToolOutput item changes).1) := by
  cases item with
  | obj fields =>
    cases hparts : ((Json.obj fields).get "output").bind Json.asArray with
    | none =>
      unfold cleanToolOutput
      rw [hparts]
      refine ⟨rfl, ?_, fun _ ↦ rfl⟩
      rw [hasRejected_toolOutput, hparts, Option.any_none, Bool.and_false]
    | some parts =>
      have hc := cleanParts_cleans parts changes
      obtain ⟨old, hold, -⟩ := Option.bind_eq_some_iff.mp hparts
      have hget : ((Json.obj (Json.replace fields "output"
          (.arr (cleanParts parts changes).1))).get "output").bind Json.asArray =
          some (cleanParts parts changes).1 := by
        rw [Json.get, Json.field_replace hold]
        rfl
      unfold cleanToolOutput
      rw [hparts]
      dsimp only
      split
      · next ht =>
        refine ⟨?_, ?_, ?_⟩
        · dsimp only
          split
          · exact hc.kind
          · exact hc.kind
        · rw [hasRejected_toolOutput, hget, Option.any_some, hc.free, Bool.and_false]
        · intro hb
          rw [hasRejected_toolOutput, ht, Bool.true_and, hparts, Option.any_some] at hb
          have hr := hc.removed hb
          dsimp only
          split
          · exact hr
          · exact hr
      · next ht =>
        refine ⟨rfl, ?_, fun _ ↦ rfl⟩
        rw [hasRejected_toolOutput, Bool.eq_false_iff.mpr ht, Bool.false_and]
  | null | bool | int | float | str | arr => exact ⟨rfl, rfl, fun _ ↦ rfl⟩

/-- What is left of a cleaned item is no encrypted reasoning. -/
theorem cleanReasoning_cleans (item : Json) (changes : EncryptedContentRecovery) :
    Cleans changes (cleanReasoning item changes).2 (hasRejected .reasoning item)
      ((cleanReasoning item changes).1.any (hasRejected .reasoning)) := by
  -- An item without the field has nothing to reject, whatever else is taken out of it.
  have hfree : ∀ fields : List (String × Json), Json.field fields "encrypted_content" = none →
      hasRejected .reasoning (.obj fields) = false := by
    intro fields h
    rw [hasRejected, Json.get, Json.get, h, Option.isSome_none, Bool.and_false]
  cases item with
  | obj fields =>
    unfold cleanReasoning
    dsimp only
    split
    · next ht =>
      refine ⟨rfl, ?_, fun _ ↦ rfl⟩
      rw [Option.any_some, hasRejected, Json.get, beq_eq_false_iff_ne.mpr ht, Bool.false_and]
    · next ht =>
      split
      · next hn =>
        refine ⟨rfl, ?_, fun _ ↦ rfl⟩
        rw [Option.any_some]
        exact hfree fields (Option.isNone_iff_eq_none.mp hn)
      · next hs =>
        have hbefore : hasRejected .reasoning (.obj fields) = true := by
          rw [hasRejected, Json.get, Json.get, Decidable.of_not_not ht, beq_self_eq_true,
            Bool.true_and]
          cases hf : Json.field fields "encrypted_content" with
          | none => exact absurd (by rw [hf]; rfl) hs
          | some v => rfl
        have hgone : ∀ key, Json.field (Json.remove
            (Json.remove fields "encrypted_content") key) "encrypted_content" = none := by
          intro key
          by_cases hk : key = "encrypted_content"
          · rw [hk, Json.field_remove]
          · rw [Json.field_remove_ne _ (Ne.symm hk), Json.field_remove]
        refine ⟨?_, ?_, fun hb ↦ by rw [hbefore] at hb; cases hb⟩
        · split
          · split
            · rfl
            · rfl
          · split
            · rfl
            · rfl
        · split
          · split
            · rfl
            · exact hfree _ (hgone "content")
          · split
            · rfl
            · exact hfree _ (Json.field_remove ..)
  | null | bool | int | float | str | arr => exact ⟨rfl, rfl, fun _ ↦ rfl⟩

/-- A cleaned item has nothing left of the rejected kind. -/
theorem cleanItem_cleans (item : Json) (changes : EncryptedContentRecovery) :
    Cleans changes (cleanItem item changes).2 (hasRejected changes.errorKind item)
      ((cleanItem item changes).1.any (hasRejected changes.errorKind)) := by
  unfold cleanItem
  cases changes.errorKind with
  | toolOutput => exact cleanToolOutput_cleans item changes
  | reasoning => exact cleanReasoning_cleans item changes

/-- Cleaned items have nothing left of the rejected kind. -/
theorem cleanItems_cleans (items : List Json) (changes : EncryptedContentRecovery) :
    Cleans changes (cleanItems items changes).2 (items.any (hasRejected changes.errorKind))
      ((cleanItems items changes).1.any (hasRejected changes.errorKind)) := by
  induction items generalizing changes with
  | nil => exact ⟨rfl, rfl, fun _ ↦ rfl⟩
  | cons item rest ih =>
    have hi := cleanItem_cleans item changes
    have hr := ih (cleanItem item changes).2
    rw [hi.kind] at hr
    unfold cleanItems
    refine ⟨hr.kind.trans hi.kind, ?_, ?_⟩
    · have hkept : (cleanItem item changes).1.toList.any (hasRejected changes.errorKind) =
          false := by
        rw [← hi.free]
        cases (cleanItem item changes).1 with
        | none => rfl
        | some kept => exact Bool.or_false _
      dsimp only
      rw [List.any_append, hkept, hr.free]
      rfl
    · intro hb
      rw [List.any_cons, Bool.or_eq_false_iff] at hb
      exact (hr.removed hb.2).trans (hi.removed hb.1)

/-- An input something was removed from is another one. -/
theorem cleanInput_ne {input : Json} {changes : EncryptedContentRecovery}
    (h : removed (cleanInput input changes).2 ≠ removed changes) :
    (cleanInput input changes).1 ≠ input := by
  cases input with
  | arr items =>
    have hi := cleanItems_cleans items changes
    rintro he
    have he' : (cleanItems items changes).1 = items := Json.arr.inj he
    rw [he'] at hi
    exact h (hi.removed hi.free)
  | obj fields =>
    have hi := cleanItem_cleans (.obj fields) changes
    intro he
    change (cleanItem (.obj fields) changes).1.getD (.arr []) = .obj fields at he
    apply h
    apply hi.removed
    rw [← hi.free]
    cases hk : (cleanItem (.obj fields) changes).1 with
    | none =>
      rw [hk] at he
      cases he
    | some kept =>
      rw [hk] at he
      rw [Option.any_some, ← he]
      rfl
  | null | bool | int | float | str => exact absurd rfl h

/-- A request that was cleaned has another body. -/
theorem clean_changes {request repaired : PreparedRequest} {error : EncryptedContentError}
    {changes : EncryptedContentRecovery}
    (h : clean request error = .ok (some (repaired, changes))) : repaired.body ≠ request.body := by
  unfold clean at h
  split at h
  · cases h
  · next body hb =>
    split at h
    · next fields input hin =>
      dsimp only at h
      split at h
      · cases h
      · next hc =>
        cases h
        rw [hb]
        intro he
        have hne : removed (cleanInput input ⟨error, 0, 0, 0, 0, 0⟩).2 ≠ 0 := by
          unfold removed
          omega
        apply cleanInput_ne hne
        have hfields : Json.replace fields "input"
            (cleanInput input ⟨error, 0, 0, 0, 0, 0⟩).1 = fields := by
          injection he with he
          injection he
        have hf : Json.field fields "input" = some input := hin
        have hr : Json.field (Json.replace fields "input"
            (cleanInput input ⟨error, 0, 0, 0, 0, 0⟩).1) "input" = _ := Json.field_replace hf
        rw [hfields, hf] at hr
        exact (Option.some.inj hr).symm
    · cases h

/-- A request is prepared for recovery only after a rejection of its encrypted content with
status 400, and with another body. -/
theorem prepare_some {kind : RequestKind} {request repaired : PreparedRequest} {status : Nat}
    {body : Option Json} {changes : EncryptedContentRecovery}
    (h : prepare kind request status body = .ok (some (repaired, changes))) :
    kind = .responses ∧ status = 400 ∧ (body.bind rejection).isSome = true ∧
      repaired.body ≠ request.body := by
  unfold prepare at h
  split at h
  · cases h
  · next hk =>
    rw [not_or, Decidable.not_not, Decidable.not_not] at hk
    split at h
    · cases h
    · next error he => exact ⟨hk.1, hk.2, by rw [he]; rfl, clean_changes h⟩

end Xxgate.Codex
