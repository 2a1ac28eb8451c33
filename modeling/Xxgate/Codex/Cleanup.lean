import Mathlib.Algebra.GroupWithZero.Nat
import Xxgate.Codex.Recovery

/-!
# What cleaning a request changes

`crates/xxgate-codex/src/provider/recovery.rs:49–155`. Cleaning a request of one kind of
encrypted content changes the items of its input that hold such content and nothing else,
and counts what it changed. The check that decides whether a stream is held back looks for
the same items, except that it does not trim their type.
-/

namespace Xxgate.Codex

open Xxgate.Core Json

/-! ### The items of an input -/

/-- The items of a request's input: those of a list, or a single object. -/
def inputItems (body : Json) : List Json :=
  match body.get "input" with
  | some (.arr items) => items
  | some (.obj fields) => [.obj fields]
  | _ => []

/-- There is content of the kind in the input. -/
def Rejected (error : EncryptedContentError) (body : Json) : Prop :=
  ∃ item ∈ inputItems body, hasRejected error item = true

/-- A part of a tool result, with the marker in the place of an encrypted one. -/
def markPart (part : Json) : Json :=
  if part.hasType "encrypted_content" then unavailablePart else part

/-- The encrypted parts of a tool result. -/
def encryptedParts (item : Json) : Nat :=
  (((item.get "output").bind asArray).getD []).countP (·.hasType "encrypted_content")

/-- The item's content is null. -/
def nullContent (item : Json) : Bool := (item.get "content").any isNull

/-- What is left of an item, none where it is taken out of the input. An item without content of
the kind stays as it is. -/
inductive ItemCleaned : EncryptedContentError → Json → Option Json → Prop
  | untouched {error : EncryptedContentError} {item : Json} (h : hasRejected error item = false) :
    ItemCleaned error item (some item)
  /-- A tool result keeps its fields; encrypted parts of its output are marked. -/
  | toolOutput {fields fields' : List (String × Json)} {parts : List Json}
    (h : hasRejected .toolOutput (.obj fields) = true)
    (hparts : field fields "output" = some (.arr parts))
    (houtput : field fields' "output" = some (.arr (parts.map markPart)))
    (hothers : ∀ key, key ≠ "output" → field fields' key = field fields key)
    (hkeys : fields'.map (·.1) = fields.map (·.1)) :
    ItemCleaned .toolOutput (.obj fields) (some (.obj fields'))
  /-- Reasoning loses its encrypted content, and with it a null content. -/
  | reasoning {fields rest : List (String × Json)}
    (h : hasRejected .reasoning (.obj fields) = true)
    (hsublist : rest.Sublist fields)
    (hrest : ∀ key, field rest key =
      if key = "encrypted_content" ∨ key = "content" ∧ nullContent (.obj fields) = true then none
      else field fields key)
    (hleft : ∀ value, rest ≠ [("type", value)]) :
    ItemCleaned .reasoning (.obj fields) (some (.obj rest))
  /-- Reasoning with nothing left but its type is taken out. -/
  | emptied {fields : List (String × Json)} {value : Json}
    (h : hasRejected .reasoning (.obj fields) = true)
    (hrest : ∀ key, field [("type", value)] key =
      if key = "encrypted_content" ∨ key = "content" ∧ nullContent (.obj fields) = true then none
      else field fields key) :
    ItemCleaned .reasoning (.obj fields) none

/-- What was counted of the items and what is left of them. -/
def counted (error : EncryptedContentError) (items : List Json) (left : List (Option Json))
    (changes : EncryptedContentRecovery) : EncryptedContentRecovery :=
  match error with
  | .reasoning => { changes with
      encryptedFieldsRemoved :=
        changes.encryptedFieldsRemoved + items.countP (hasRejected .reasoning)
      nullContentFieldsRemoved := changes.nullContentFieldsRemoved +
        items.countP fun item ↦ hasRejected .reasoning item && nullContent item
      emptyReasoningItemsRemoved :=
        changes.emptyReasoningItemsRemoved + left.countP Option.isNone }
  | .toolOutput => { changes with
      encryptedToolPartsReplaced := changes.encryptedToolPartsReplaced +
        ((items.filter (hasRejected .toolOutput)).map encryptedParts).sum
      toolOutputsChanged := changes.toolOutputsChanged + items.countP (hasRejected .toolOutput) }

/-! ### Cleaning items -/

private theorem cleanParts_eq (parts : List Json) (changes : EncryptedContentRecovery) :
    cleanParts parts changes = (parts.map markPart, { changes with
      encryptedToolPartsReplaced := changes.encryptedToolPartsReplaced +
        parts.countP (·.hasType "encrypted_content") }) := by
  induction parts generalizing changes with
  | nil => rfl
  | cons part rest ih =>
    unfold cleanParts
    by_cases h : part.hasType "encrypted_content" = true
    · have hcount : (part :: rest).countP (·.hasType "encrypted_content") =
          rest.countP (·.hasType "encrypted_content") + 1 := List.countP_cons_of_pos h
      rw [if_pos h, ih, List.map_cons, markPart, if_pos h, hcount]
      dsimp only
      rw [Nat.add_assoc, Nat.add_comm 1]
    · have hcount : (part :: rest).countP (·.hasType "encrypted_content") =
          rest.countP (·.hasType "encrypted_content") := List.countP_cons_of_neg h
      rw [if_neg h, ih, List.map_cons, markPart, if_neg h, hcount]

/-- The parts of a tool result without encrypted ones stay. -/
theorem map_markPart {parts : List Json} (h : parts.any (·.hasType "encrypted_content") = false) :
    parts.map markPart = parts := by
  induction parts with
  | nil => rfl
  | cons part rest ih =>
    rw [List.any_cons, Bool.or_eq_false_iff] at h
    rw [List.map_cons, ih h.2, markPart, if_neg (by rw [h.1]; exact Bool.false_ne_true)]

/-- Cleaning an item that holds nothing of the kind leaves it, and the counts. -/
theorem cleanItem_untouched {error : EncryptedContentError} {item : Json}
    {changes : EncryptedContentRecovery} (hkind : changes.errorKind = error)
    (h : hasRejected error item = false) : cleanItem item changes = (some item, changes) := by
  unfold cleanItem
  rw [hkind]
  cases error with
  | toolOutput =>
    have hsame : cleanToolOutput item changes = (item, changes) := by
      cases item with
      | obj fields =>
        unfold cleanToolOutput
        cases hparts : ((Json.obj fields).get "output").bind asArray with
        | none => rfl
        | some parts =>
          dsimp only
          split
          · next ht =>
            rw [hasRejected_toolOutput, ht, Bool.true_and, hparts, Option.any_some] at h
            have hcount : parts.countP (·.hasType "encrypted_content") = 0 := by
              rw [List.countP_eq_zero]
              exact List.any_eq_false.mp h
            obtain ⟨old, hold, harr⟩ := Option.bind_eq_some_iff.mp hparts
            have hold' : old = .arr parts := by
              cases old with
              | arr items => rw [Option.some.inj harr]
              | _ => cases harr
            subst hold'
            rw [cleanParts_eq, map_markPart h, hcount, replace_self hold]
            simp
          · rfl
      | _ => rfl
    dsimp only
    rw [hsame]
  | reasoning =>
    cases item with
    | obj fields =>
      unfold cleanReasoning
      dsimp only
      split
      · rfl
      · next ht =>
        have hnone : (field fields "encrypted_content").isNone = true := by
          rw [hasRejected, Json.get, Json.get, Decidable.of_not_not ht, beq_self_eq_true,
            Bool.true_and] at h
          rw [← Option.not_isSome, h]
          rfl
        rw [if_pos hnone]
    | _ => rfl

/-- A list that holds a key and has one field is that field. -/
theorem eq_singleton {fields : List (String × Json)} {key : String} {value : Json}
    (hfield : field fields key = some value) (hlength : fields.length = 1) :
    fields = [(key, value)] := by
  obtain ⟨f, rfl⟩ := List.length_eq_one_iff.mp hlength
  unfold field at hfield
  split at hfield
  · next hkey =>
    cases hfield
    rw [← hkey]
  · cases hfield

private theorem cleanItem_toolOutput {item : Json} {changes : EncryptedContentRecovery}
    (hkind : changes.errorKind = .toolOutput) (h : hasRejected .toolOutput item = true) :
    ∃ left, cleanItem item changes = (some left, { changes with
        encryptedToolPartsReplaced := changes.encryptedToolPartsReplaced + encryptedParts item
        toolOutputsChanged := changes.toolOutputsChanged + 1 }) ∧
      ItemCleaned .toolOutput item (some left) := by
  have hrejected := h
  rw [hasRejected_toolOutput, Bool.and_eq_true, Option.any_eq_true] at h
  obtain ⟨ht, parts, hparts, hany⟩ := h
  obtain ⟨old, hold, harr⟩ := Option.bind_eq_some_iff.mp hparts
  have hold' : old = .arr parts := by
    cases old with
    | arr items => rw [Option.some.inj harr]
    | _ => cases harr
  subst hold'
  cases item with
  | obj fields =>
    have hcount : 0 < parts.countP (·.hasType "encrypted_content") := by
      rw [List.countP_pos_iff]
      exact List.any_eq_true.mp hany
    refine ⟨.obj (replace fields "output" (.arr (parts.map markPart))), ?_, ?_⟩
    · unfold cleanItem cleanToolOutput
      rw [hkind, hparts]
      dsimp only
      rw [if_pos ht, cleanParts_eq]
      dsimp only
      rw [if_pos (Nat.lt_add_of_pos_right hcount), encryptedParts, hparts, Option.getD_some, hkind]
    · exact .toolOutput hrejected hold (field_replace hold)
        (fun key hkey ↦ field_replace_ne fields hkey _) (keys_replace ..)
  | _ => cases hold

private theorem cleanItem_reasoning {item : Json} {changes : EncryptedContentRecovery}
    (hkind : changes.errorKind = .reasoning) (h : hasRejected .reasoning item = true) :
    ∃ left, cleanItem item changes = (left, { changes with
        encryptedFieldsRemoved := changes.encryptedFieldsRemoved + 1
        nullContentFieldsRemoved :=
          changes.nullContentFieldsRemoved + if nullContent item then 1 else 0
        emptyReasoningItemsRemoved :=
          changes.emptyReasoningItemsRemoved + if left.isNone then 1 else 0 }) ∧
      ItemCleaned .reasoning item left := by
  have hrejected := h
  rw [hasRejected, Bool.and_eq_true, beq_iff_eq] at h
  obtain ⟨ht, hencrypted⟩ := h
  cases item with
  | obj fields =>
    obtain ⟨text, htext, -⟩ := Option.map_eq_some_iff.mp ht
    obtain ⟨kind, hfieldKind, -⟩ := Option.bind_eq_some_iff.mp htext
    have hnull : ((field (remove fields "encrypted_content") "content").any isNull) =
        nullContent (.obj fields) := by
      rw [field_remove_ne _ (by decide)]
      rfl
    -- what is left, whether the content was null or not
    obtain ⟨rest, hrestEq, hsublist, hrest⟩ : ∃ rest,
        (if nullContent (.obj fields) = true then
          remove (remove fields "encrypted_content") "content"
        else remove fields "encrypted_content") = rest ∧ rest.Sublist fields ∧
        ∀ key, field rest key =
          if key = "encrypted_content" ∨ key = "content" ∧ nullContent (.obj fields) = true then
            none
          else field fields key := by
      refine ⟨_, rfl, ?_, fun key ↦ ?_⟩
      · split
        · exact List.filter_sublist.trans List.filter_sublist
        · exact List.filter_sublist
      · cases nullContent (.obj fields) with
        | false =>
          by_cases hkey : key = "encrypted_content"
          · rw [hkey]
            exact field_remove fields _
          · simpa [hkey] using field_remove_ne fields hkey
        | true =>
          by_cases hcontent : key = "content"
          · rw [hcontent]
            exact field_remove _ _
          · by_cases hkey : key = "encrypted_content"
            · rw [hkey]
              exact (field_remove_ne _ (by decide)).trans (field_remove fields _)
            · simpa [hkey, hcontent] using
                (field_remove_ne _ hcontent).trans (field_remove_ne fields hkey)
    have hkept : field rest "type" = some kind := by
      rw [hrest]
      exact hfieldKind
    have hclean : cleanItem (.obj fields) changes =
        (if rest.length = 1 then none else some (.obj rest), { changes with
          encryptedFieldsRemoved := changes.encryptedFieldsRemoved + 1
          nullContentFieldsRemoved :=
            changes.nullContentFieldsRemoved + if nullContent (.obj fields) then 1 else 0
          emptyReasoningItemsRemoved :=
            changes.emptyReasoningItemsRemoved + if rest.length = 1 then 1 else 0 }) := by
      have hpresent : ¬ (field fields "encrypted_content").isNone = true := by
        rw [← Option.not_isSome]
        change (field fields "encrypted_content").isSome = true at hencrypted
        rw [hencrypted]
        exact Bool.false_ne_true
      unfold cleanItem cleanReasoning
      rw [hkind]
      dsimp only
      change ((field fields "type").bind asStr).map trim = _ at ht
      rw [if_neg (not_not.mpr ht), if_neg hpresent, hnull, hrestEq]
      by_cases hlength : rest.length = 1
      · rw [if_pos hlength, if_pos hlength, if_pos hlength]
        cases nullContent (.obj fields) <;> rfl
      · rw [if_neg hlength, if_neg hlength, if_neg hlength]
        cases nullContent (.obj fields) <;> rfl
    by_cases hlength : rest.length = 1
    · refine ⟨none, ?_, ?_⟩
      · rw [hclean, if_pos hlength, if_pos hlength]
        rfl
      · rw [eq_singleton hkept hlength] at hrest
        exact .emptied hrejected hrest
    · refine ⟨some (.obj rest), ?_, .reasoning hrejected hsublist hrest fun value heq ↦ ?_⟩
      · rw [hclean, if_neg hlength, if_neg hlength]
        rfl
      · exact hlength (by rw [heq]; rfl)
  | _ => cases hencrypted

/-- What is left of an item, and what was counted of it. -/
theorem cleanItem_cleaned {error : EncryptedContentError} (item : Json)
    {changes : EncryptedContentRecovery} (hkind : changes.errorKind = error) :
    ∃ left, cleanItem item changes = (left, counted error [item] [left] changes) ∧
      ItemCleaned error item left := by
  cases h : hasRejected error item with
  | false =>
    refine ⟨some item, ?_, .untouched h⟩
    rw [cleanItem_untouched hkind h]
    cases error <;> simp [counted, h]
  | true =>
    cases error with
    | toolOutput =>
      obtain ⟨left, hclean, hleft⟩ := cleanItem_toolOutput hkind h
      exact ⟨some left, by rw [hclean]; simp [counted, h], hleft⟩
    | reasoning =>
      obtain ⟨left, hclean, hleft⟩ := cleanItem_reasoning hkind h
      refine ⟨left, ?_, hleft⟩
      rw [hclean]
      cases left <;> simp [counted, h, List.countP_cons]

private theorem errorKind_counted (error : EncryptedContentError) (items : List Json)
    (left : List (Option Json)) (changes : EncryptedContentRecovery) :
    (counted error items left changes).errorKind = changes.errorKind := by
  cases error <;> rfl

/-- Counting goes on from item to item. -/
theorem counted_cons (error : EncryptedContentError) (item : Json) (items : List Json)
    (first : Option Json) (left : List (Option Json)) (changes : EncryptedContentRecovery) :
    counted error items left (counted error [item] [first] changes) =
      counted error (item :: items) (first :: left) changes := by
  have hsplit : ∀ p : Json → Bool,
      (item :: items).countP p = [item].countP p + items.countP p := by
    intro p
    rw [← List.countP_append, List.singleton_append]
  have hleft : ([first] ++ left).countP Option.isNone =
      [first].countP Option.isNone + left.countP Option.isNone := List.countP_append
  rw [List.singleton_append] at hleft
  have hparts : (((item :: items).filter (hasRejected .toolOutput)).map encryptedParts).sum =
      (([item].filter (hasRejected .toolOutput)).map encryptedParts).sum +
        ((items.filter (hasRejected .toolOutput)).map encryptedParts).sum := by
    rw [← List.sum_append, ← List.map_append, ← List.filter_append, List.singleton_append]
  unfold counted
  cases error with
  | reasoning =>
    dsimp only
    rw [hsplit, hsplit, hleft, Nat.add_assoc, Nat.add_assoc, Nat.add_assoc]
  | toolOutput =>
    dsimp only
    rw [hparts, hsplit, Nat.add_assoc, Nat.add_assoc]

/-- What is left of a list of items, and what was counted of them. -/
theorem cleanItems_cleaned {error : EncryptedContentError} (items : List Json)
    {changes : EncryptedContentRecovery} (hkind : changes.errorKind = error) :
    ∃ left, cleanItems items changes =
        (left.filterMap id, counted error items left changes) ∧
      List.Forall₂ (ItemCleaned error) items left := by
  induction items generalizing changes with
  | nil =>
    refine ⟨[], ?_, .nil⟩
    cases error <;> rfl
  | cons item items ih =>
    obtain ⟨first, hfirst, hcleaned⟩ := cleanItem_cleaned item hkind
    obtain ⟨left, hrest, hleft⟩ :=
      @ih (counted error [item] [first] changes) (by rw [errorKind_counted, hkind])
    refine ⟨first :: left, ?_, .cons hcleaned hleft⟩
    unfold cleanItems
    rw [hfirst]
    dsimp only
    rw [hrest, counted_cons]
    cases first <;> rfl

/-! ### Cleaning a request -/

/-- What becomes of an input: its items in their order, those with nothing left taken out. -/
inductive InputCleaned (error : EncryptedContentError) : Json → List (Option Json) → Json → Prop
  | list {items : List Json} {left : List (Option Json)}
    (h : List.Forall₂ (ItemCleaned error) items left) :
    InputCleaned error (.arr items) left (.arr (left.filterMap id))
  | single {fields : List (String × Json)} {left : Option Json}
    (h : ItemCleaned error (.obj fields) left) :
    InputCleaned error (.obj fields) [left] (left.getD (.arr []))

/-- A body that was cleaned differs in its input. -/
structure BodyCleaned (error : EncryptedContentError) (body body' : Json)
    (changes : EncryptedContentRecovery) : Prop where
  keys : ∃ fields fields', body = .obj fields ∧ body' = .obj fields' ∧
    fields'.map (·.1) = fields.map (·.1)
  others : ∀ key, key ≠ "input" → body'.get key = body.get key
  input : ∃ input left input', body.get "input" = some input ∧
    body'.get "input" = some input' ∧ InputCleaned error input left input' ∧
    changes = counted error (inputItems body) left ⟨error, 0, 0, 0, 0, 0⟩

/-- Nothing is counted exactly where there is nothing of the kind. -/
theorem counted_eq_zero {error : EncryptedContentError} {items : List Json}
    {left : List (Option Json)} :
    ((counted error items left ⟨error, 0, 0, 0, 0, 0⟩).encryptedFieldsRemoved = 0 ∧
      (counted error items left ⟨error, 0, 0, 0, 0, 0⟩).encryptedToolPartsReplaced = 0) ↔
      ∀ item ∈ items, hasRejected error item = false := by
  cases error with
  | reasoning =>
    unfold counted
    dsimp only
    rw [Nat.zero_add, List.countP_eq_zero, and_iff_left rfl]
    exact forall₂_congr fun item _ ↦ Bool.not_eq_true _ |>.to_iff
  | toolOutput =>
    unfold counted
    dsimp only
    rw [Nat.zero_add, and_iff_right rfl, List.sum_eq_zero_iff_forall_eq_nat]
    constructor
    · intro h item hitem
      by_contra hne
      have hrejected := (Bool.not_eq_false _).mp hne
      have hzero := h _ (List.mem_map_of_mem (f := encryptedParts)
        (List.mem_filter.mpr ⟨hitem, hrejected⟩))
      rw [hasRejected, Bool.and_eq_true, Option.any_eq_true] at hrejected
      obtain ⟨-, parts, hparts, hany⟩ := hrejected
      rw [encryptedParts, hparts, Option.getD_some, List.countP_eq_zero] at hzero
      obtain ⟨part, hpart, htype⟩ := List.any_eq_true.mp hany
      exact hzero part hpart htype
    · intro h n hn
      obtain ⟨item, hitem, rfl⟩ := List.mem_map.mp hn
      obtain ⟨hmem, hrejected⟩ := List.mem_filter.mp hitem
      rw [h item hmem] at hrejected
      cases hrejected

/-- What becomes of the input, and what was counted of it. -/
theorem cleanInput_cleaned {error : EncryptedContentError} {fields : List (String × Json)}
    {input : Json} (hinput : field fields "input" = some input) :
    ∃ left, (cleanInput input ⟨error, 0, 0, 0, 0, 0⟩).2 =
        counted error (inputItems (.obj fields)) left ⟨error, 0, 0, 0, 0, 0⟩ ∧
      ((∃ item ∈ inputItems (.obj fields), hasRejected error item = true) →
        InputCleaned error input left (cleanInput input ⟨error, 0, 0, 0, 0, 0⟩).1) := by
  have hitems : inputItems (.obj fields) = match (some input : Option Json) with
      | some (.arr items) => items
      | some (.obj fields) => [.obj fields]
      | _ => [] := by
    unfold inputItems
    change (match field fields "input" with
      | some (.arr items) => items
      | some (.obj fields) => [.obj fields]
      | _ => []) = _
    rw [hinput]
  rw [hitems]
  cases input with
  | arr items =>
    obtain ⟨left, hclean, hleft⟩ :=
      @cleanItems_cleaned error items ⟨error, 0, 0, 0, 0, 0⟩ rfl
    unfold cleanInput
    dsimp only
    rw [hclean]
    exact ⟨left, rfl, fun _ ↦ .list hleft⟩
  | obj item =>
    obtain ⟨left, hclean, hleft⟩ :=
      @cleanItem_cleaned error (.obj item) ⟨error, 0, 0, 0, 0, 0⟩ rfl
    unfold cleanInput
    dsimp only
    rw [hclean]
    exact ⟨[left], rfl, fun _ ↦ .single hleft⟩
  | _ =>
    refine ⟨[], ?_, fun h ↦ ?_⟩
    · cases error <;> rfl
    · obtain ⟨item, hitem, -⟩ := h
      cases hitem

/-- What is left of an object is one. -/
theorem ItemCleaned.isObject {error : EncryptedContentError} {fields : List (String × Json)}
    {kept : Json} (h : ItemCleaned error (.obj fields) (some kept)) : ∃ rest, kept = .obj rest := by
  cases h with
  | untouched => exact ⟨fields, rfl⟩
  | toolOutput => exact ⟨_, rfl⟩
  | reasoning => exact ⟨_, rfl⟩

/-- The items of an input that has been cleaned hold nothing of the kind. -/
theorem InputCleaned.free {error : EncryptedContentError} {input input' : Json}
    {left : List (Option Json)} (h : InputCleaned error input left input')
    (hinput : (cleanInput input ⟨error, 0, 0, 0, 0, 0⟩).1 = input') {body' : Json}
    (hget : body'.get "input" = some input') : ¬ Rejected error body' := by
  rintro ⟨item, hitem, hrejected⟩
  unfold inputItems at hitem
  rw [hget] at hitem
  cases h with
  | @list items left _ =>
    have hfree := (cleanItems_cleans items ⟨error, 0, 0, 0, 0, 0⟩).free
    have hlist : (cleanItems items ⟨error, 0, 0, 0, 0, 0⟩).1 = left.filterMap id :=
      Json.arr.inj hinput
    rw [hlist] at hfree
    exact List.any_eq_false.mp hfree item hitem hrejected
  | @single fields left hitemCleaned =>
    have hfree := (cleanItem_cleans (.obj fields) ⟨error, 0, 0, 0, 0, 0⟩).free
    change (cleanItem (.obj fields) ⟨error, 0, 0, 0, 0, 0⟩).1.getD (.arr []) = _ at hinput
    cases left with
    | none => cases hitem
    | some kept =>
      obtain ⟨rest, rfl⟩ := hitemCleaned.isObject
      rw [List.mem_singleton.mp hitem] at hrejected
      cases hclean : (cleanItem (.obj fields) ⟨error, 0, 0, 0, 0, 0⟩).1 with
      | none =>
        rw [hclean] at hinput
        cases hinput
      | some kept =>
        rw [hclean] at hinput hfree
        rw [Option.getD_some, Option.getD_some] at hinput
        rw [hinput, Option.any_some] at hfree
        exact Bool.false_ne_true (hfree.symm.trans hrejected)

private theorem clean_of_not_rejected {url : String} {body : Json} {error : EncryptedContentError}
    (h : ¬ Rejected error body) : clean ⟨url, some body⟩ error = .ok none := by
  unfold clean
  dsimp only
  split
  · next fields input hinput =>
    obtain ⟨left, hcounted, -⟩ := @cleanInput_cleaned error fields input hinput
    rw [hcounted, if_pos (counted_eq_zero.mpr fun item hitem ↦ ?_)]
    exact (Bool.not_eq_true _).mp fun hrejected ↦ h ⟨item, hitem, hrejected⟩
  · rfl

private theorem clean_of_rejected {url : String} {body : Json} {error : EncryptedContentError}
    (h : Rejected error body) : ∃ body' changes,
      clean ⟨url, some body⟩ error = .ok (some (⟨url, some body'⟩, changes)) ∧
        BodyCleaned error body body' changes ∧ ¬ Rejected error body' := by
  obtain ⟨item, hitem, hrejected⟩ := h
  cases body with
  | obj fields =>
    cases hinput : field fields "input" with
    | none =>
      have hget : (Json.obj fields).get "input" = none := hinput
      unfold inputItems at hitem
      rw [hget] at hitem
      cases hitem
    | some input =>
      have hget : (Json.obj fields).get "input" = some input := hinput
      obtain ⟨left, hcounted, hcleaned⟩ := @cleanInput_cleaned error fields input hinput
      have hinputCleaned := hcleaned ⟨item, hitem, hrejected⟩
      have hget' : (Json.obj (replace fields "input"
          (cleanInput input ⟨error, 0, 0, 0, 0, 0⟩).1)).get "input" =
          some (cleanInput input ⟨error, 0, 0, 0, 0, 0⟩).1 := field_replace hinput
      refine ⟨.obj (replace fields "input" (cleanInput input ⟨error, 0, 0, 0, 0, 0⟩).1),
        counted error (inputItems (.obj fields)) left ⟨error, 0, 0, 0, 0, 0⟩, ?_, ?_, ?_⟩
      · unfold clean
        dsimp only
        rw [hget]
        dsimp only
        rw [hcounted, if_neg fun hzero ↦ ?_]
        have hnone := counted_eq_zero.mp hzero item hitem
        exact Bool.false_ne_true (hnone.symm.trans hrejected)
      · exact ⟨⟨fields, _, rfl, rfl, keys_replace ..⟩,
          fun key hkey ↦ field_replace_ne fields hkey _,
          input, left, _, hget, hget', hinputCleaned, rfl⟩
      · exact hinputCleaned.free rfl hget'
  | _ => cases hitem

/-- Where there is nothing of the kind there is nothing to clean, and the body stays as it is.
Otherwise the input changes and nothing else, what was changed is counted, and there is nothing
left to clean. -/
theorem clean_frame (url : String) (body : Json) (error : EncryptedContentError) :
    (¬ Rejected error body ∧ clean ⟨url, some body⟩ error = .ok none) ∨
      (Rejected error body ∧ ∃ body' changes,
        clean ⟨url, some body⟩ error = .ok (some (⟨url, some body'⟩, changes)) ∧
        BodyCleaned error body body' changes ∧ clean ⟨url, some body'⟩ error = .ok none) := by
  by_cases h : Rejected error body
  · obtain ⟨body', changes, hclean, hcleaned, hfree⟩ := clean_of_rejected h
    exact .inr ⟨h, body', changes, hclean, hcleaned, clean_of_not_rejected hfree⟩
  · exact .inl ⟨h, clean_of_not_rejected h⟩

/-- The encrypted part of a tool output is replaced, beside a text and before a message that has
such a part as well. -/
example :
    clean ⟨"/responses", some (.obj [("input", .arr [
      .obj [("call_id", .str "c"), ("output", .arr [
        .obj [("text", .str "t"), ("type", .str "input_text")],
        .obj [("encrypted_content", .str "e"), ("type", .str "encrypted_content")]]),
        ("type", .str "custom_tool_call_output")],
      .obj [("output", .arr [.obj [("type", .str "encrypted_content")]]),
        ("type", .str "message")]])])⟩ .toolOutput =
    .ok (some (⟨"/responses", some (.obj [("input", .arr [
      .obj [("call_id", .str "c"), ("output", .arr [
        .obj [("text", .str "t"), ("type", .str "input_text")], unavailablePart]),
        ("type", .str "custom_tool_call_output")],
      .obj [("output", .arr [.obj [("type", .str "encrypted_content")]]),
        ("type", .str "message")]])])⟩, ⟨.toolOutput, 0, 0, 0, 1, 1⟩)) := by
  with_unfolding_all rfl

/-! ### Holding a stream back -/

private theorem clean_iff {url : String} {body : Json} {error : EncryptedContentError} :
    (∃ repaired, clean ⟨url, some body⟩ error = .ok (some repaired)) ↔ Rejected error body := by
  constructor
  · rintro ⟨repaired, hclean⟩
    by_contra h
    rw [clean_of_not_rejected h] at hclean
    cases hclean
  · intro h
    obtain ⟨body', changes, hclean, -⟩ := @clean_of_rejected url body error h
    exact ⟨_, hclean⟩

private theorem hasRejected_of_hasType {item : Json} (htype : item.hasType "reasoning" = true)
    (h : (item.get "encrypted_content").isSome = true) : hasRejected .reasoning item = true := by
  rw [hasType, beq_iff_eq] at htype
  rw [hasRejected, htype, h]
  decide

/-- What the check looks for. -/
theorem hasRecoverableInput_iff {url : String} {body : Json} :
    hasRecoverableInput ⟨url, some body⟩ = true ↔
      (∃ item ∈ inputItems body, item.hasType "reasoning" = true ∧
        (item.get "encrypted_content").isSome = true) ∨ Rejected .toolOutput body := by
  have hitem : ∀ item, recoverable item = true ↔ (item.hasType "reasoning" = true ∧
      (item.get "encrypted_content").isSome = true) ∨ hasRejected .toolOutput item = true := by
    intro item
    rw [recoverable, Bool.or_eq_true, Bool.and_eq_true, hasRejected_toolOutput]
  have hinput : hasRecoverableInput ⟨url, some body⟩ = true ↔
      ∃ item ∈ inputItems body, recoverable item = true := by
    unfold hasRecoverableInput inputItems
    dsimp only [Option.bind_some]
    cases body.get "input" with
    | none => simp
    | some input =>
      cases input with
      | arr items => exact List.any_eq_true
      | _ => simp
  rw [hinput, Rejected, ← exists_or]
  refine exists_congr fun item ↦ ?_
  rw [hitem, and_or_left]

/-- The check of a request agrees with its cleanup, unless the only encrypted content is that of
reasoning items whose type is padded with whitespace: the cleanup trims it, the check does
not. -/
theorem hasRecoverableInput_agrees_iff (request : PreparedRequest) :
    (hasRecoverableInput request = true ↔
        (∃ repaired, clean request .reasoning = .ok (some repaired)) ∨
          ∃ repaired, clean request .toolOutput = .ok (some repaired)) ↔
      ∀ body, request.body = some body →
        (∀ item ∈ inputItems body, hasRejected .reasoning item = true →
          item.hasType "reasoning" = true) ∨
        (∃ item ∈ inputItems body, item.hasType "reasoning" = true ∧
          (item.get "encrypted_content").isSome = true) ∨
        ∃ item ∈ inputItems body, hasRejected .toolOutput item = true := by
  obtain ⟨url, body⟩ := request
  cases body with
  | none =>
    refine iff_of_true (iff_of_false Bool.false_ne_true ?_) fun body hbody ↦ by cases hbody
    rintro (⟨repaired, hclean⟩ | ⟨repaired, hclean⟩) <;> cases hclean
  | some body =>
    rw [hasRecoverableInput_iff, clean_iff, clean_iff]
    have hexact : (∃ item ∈ inputItems body, item.hasType "reasoning" = true ∧
        (item.get "encrypted_content").isSome = true) → Rejected .reasoning body := by
      rintro ⟨item, hitem, htype, hencrypted⟩
      exact ⟨item, hitem, hasRejected_of_hasType htype hencrypted⟩
    constructor
    · intro hagree body' hbody'
      cases hbody'
      by_cases hrejected : Rejected .reasoning body
      · exact .inr (hagree.mpr (.inl hrejected))
      · exact .inl fun item hitem h ↦ absurd ⟨item, hitem, h⟩ hrejected
    · intro hcondition
      obtain hplain | hsome := hcondition body rfl
      · refine or_congr ⟨hexact, ?_⟩ Iff.rfl
        rintro ⟨item, hitem, h⟩
        rw [hasRejected, Bool.and_eq_true] at h
        exact ⟨item, hitem, hplain item hitem (by rw [hasRejected, h.1, h.2]; rfl), h.2⟩
      · exact iff_of_true hsome (hsome.imp hexact id)

/-- A type padded with whitespace is cleaned but not looked for. -/
theorem hasRecoverableInput_misses_padded :
    ¬ ∀ request : PreparedRequest, hasRecoverableInput request = true ↔
        (∃ repaired, clean request .reasoning = .ok (some repaired)) ∨
          ∃ repaired, clean request .toolOutput = .ok (some repaired) := by
  intro h
  let item := Json.obj [("encrypted_content", .str "gAAAA"), ("type", .str " reasoning ")]
  have hmiss : hasRecoverableInput ⟨"", some (.obj [("input", .arr [item])])⟩ = false := by
    decide +kernel
  have hrejected : Rejected .reasoning (.obj [("input", .arr [item])]) :=
    ⟨item, List.mem_singleton_self item, by decide +kernel⟩
  have hfound := (h ⟨"", some (.obj [("input", .arr [item])])⟩).mpr
    (.inl (clean_iff.mpr hrejected))
  exact Bool.false_ne_true (hmiss.symm.trans hfound)

end Xxgate.Codex
