import Mathlib.Algebra.GroupWithZero.Nat
import Mathlib.Data.List.Dedup
import Xxgate.Codex.Events

/-!
# The usage of generated images

`crates/xxgate-codex/src/provider/events.rs:273–309`: what the decoder counts of the images that
the events of a stream report. An image is reported any number of times, and the decoder looks at
its usage the first time.
-/

namespace Xxgate.Codex

open Xxgate.Core Json

namespace ImageUsage

/-! ### What is reported -/

/-- One report of an image that has a result. -/
structure Image where
  id : String
  usage : Option Json

/-- `events.rs:274–288`. -/
def reportedImage (item : Json) : Option Image :=
  if !item.hasType "image_generation_call" then none
  else if (((item.get "result").bind asStr).getD "") = "" then none
  else ((item.get "id").bind asStr).map fun id ↦ ⟨id, item.get "usage"⟩

/-- The items of an event, in the order in which they are observed. -/
def itemsOf (value : Json) : List Json :=
  (value.get "item").toList ++ (((value.get "response").bind (·.get "output")).bind asArray).getD []

/-- The images of an event. -/
def imagesOf (value : Json) : List Image := (itemsOf value).filterMap reportedImage

/-- The events that are decoded of some data: up to a terminal one. -/
def eventsOf (r : Readings) : List String → List Json
  | [] => []
  | data :: rest =>
    match r.parse data with
    | none => []
    | some value => if isTerminal value then [value] else value :: eventsOf r rest

/-- The tokens of a report. -/
def Image.tokens (field : String) (image : Image) : Option Nat :=
  image.usage.bind fun usage ↦ (usage.get field).bind asU64

/-- Whether a report carries a usage object. -/
def Image.carries (image : Image) : Bool := image.usage.any isObject

/-- The images, each once. -/
def ids (images : List Image) : List String := (images.map (·.id)).dedup

/-- The usage object of an image, wherever it is reported. -/
def usageOf (images : List Image) (id : String) : Option Json :=
  images.findSome? fun image ↦ if image.id = id then image.usage.filter isObject else none

/-- The tokens of an image, wherever they are reported. -/
def tokensOf (images : List Image) (field id : String) : Option Nat :=
  (usageOf images id).bind fun usage ↦ (usage.get field).bind asU64

/-- A saturating sum, of something. -/
def total : List Nat → Option Nat
  | [] => none
  | n :: counts => some (min (n + counts.sum) (2 ^ 64 - 1))

/-- Every image is counted once, with its usage. -/
structure Counted (images : List Image) (usage : Usage) : Prop where
  count : usage.imageCount = (ids images).length
  reported : usage.imageToolUsageReported = true ↔ ∃ image ∈ images, image.carries = true
  input : usage.imageInputTokens = total ((ids images).filterMap (tokensOf images "input_tokens"))
  output :
    usage.imageOutputTokens = total ((ids images).filterMap (tokensOf images "output_tokens"))

/-- The reports of an image carry one usage object, if any. -/
def Consistent (images : List Image) : Prop :=
  ∀ a ∈ images, ∀ b ∈ images, a.id = b.id → a.carries = true → b.carries = true →
    a.usage = b.usage

/-! ### First reports -/

/-- One more report, which counts if its image is new. -/
def addFirst (firsts : List Image) (image : Image) : List Image :=
  if (firsts.map (·.id)).contains image.id then firsts else firsts ++ [image]

/-- The first report of each image. -/
def firstsOf (images : List Image) : List Image := images.foldl addFirst []

/-- The images whose first report carries no usage object. -/
def late (images : List Image) : List String :=
  ((firstsOf images).filter fun image ↦ !image.carries).map (·.id)

/-- The tokens missed for their late report add nothing. -/
def Enough (images : List Image) (field : String) : Prop :=
  let timely := (firstsOf images).filterMap (Image.tokens field)
  let missed := (late images).filterMap (tokensOf images field)
  missed = [] ∨ timely ≠ [] ∧ (missed.sum = 0 ∨ 2 ^ 64 - 1 ≤ timely.sum)

/-- Nothing is lost with the reports that are not the first of their image. -/
structure Timely (images : List Image) : Prop where
  count : (ids images).length < 2 ^ 32
  reported : (∃ image ∈ images, image.carries = true) ↔
    ∃ image ∈ firstsOf images, image.usage.isSome = true
  input : Enough images "input_tokens"
  output : Enough images "output_tokens"

private theorem firstsOf_append (images : List Image) (image : Image) :
    firstsOf (images ++ [image]) = addFirst (firstsOf images) image := by
  unfold firstsOf
  rw [List.foldl_append]
  rfl

/-- The first reports are of different images, of all of them. -/
theorem firstsOf_spec (images : List Image) :
    ((firstsOf images).map (·.id)).Nodup ∧ (∀ image ∈ firstsOf images, image ∈ images) ∧
      ∀ image ∈ images, image.id ∈ (firstsOf images).map (·.id) := by
  induction images using List.reverseRecOn with
  | nil => exact ⟨List.nodup_nil, fun _ h ↦ h, fun _ h ↦ absurd h List.not_mem_nil⟩
  | append_singleton images image ih =>
    obtain ⟨hnodup, hmem, hall⟩ := ih
    rw [firstsOf_append]
    unfold addFirst
    split
    · next hseen =>
      refine ⟨hnodup, fun i hi ↦ List.mem_append_left _ (hmem i hi), fun i hi ↦ ?_⟩
      rcases List.mem_append.mp hi with hi | hi
      · exact hall i hi
      · rw [List.mem_singleton.mp hi]
        exact List.contains_iff_mem.mp hseen
    · next hnew =>
      rw [List.contains_iff_mem] at hnew
      refine ⟨?_, fun i hi ↦ ?_, fun i hi ↦ ?_⟩
      · rw [List.map_append, List.map_singleton, List.nodup_append]
        refine ⟨hnodup, List.nodup_singleton _, fun a ha b hb ↦ ?_⟩
        rw [List.mem_singleton.mp hb]
        rintro rfl
        exact hnew ha
      · rcases List.mem_append.mp hi with hi | hi
        · exact List.mem_append_left _ (hmem i hi)
        · exact List.mem_append_right _ hi
      · rw [List.map_append]
        rcases List.mem_append.mp hi with hi | hi
        · exact List.mem_append_left _ (hall i hi)
        · rw [List.mem_singleton.mp hi]
          exact List.mem_append_right _ List.mem_cons_self

/-- The first reports name every image once. -/
theorem ids_perm (images : List Image) : (ids images).Perm ((firstsOf images).map (·.id)) := by
  obtain ⟨hnodup, hmem, hall⟩ := firstsOf_spec images
  refine (List.perm_ext_iff_of_nodup (List.nodup_dedup _) hnodup).mpr fun id ↦ ?_
  rw [List.mem_dedup]
  constructor
  · intro h
    obtain ⟨image, himage, rfl⟩ := List.mem_map.mp h
    exact hall image himage
  · intro h
    obtain ⟨image, himage, rfl⟩ := List.mem_map.mp h
    exact List.mem_map_of_mem (hmem image himage)

private theorem total_append (counts : List Nat) (n : Nat) :
    total (counts ++ [n]) = some (saturatingAdd ((total counts).getD 0) n) := by
  cases counts with
  | nil => simp [total, saturatingAdd]
  | cons m counts =>
    simp only [List.cons_append, total, List.sum_append, List.sum_singleton, saturatingAdd,
      Option.getD_some, Option.some.injEq]
    omega

/-- A sum that is larger is the same where nothing was added, or nothing to be seen. -/
theorem total_eq_iff {all timely missed : List Nat} (hsum : all.sum = timely.sum + missed.sum)
    (hnil : all = [] ↔ timely = [] ∧ missed = []) :
    total timely = total all ↔
      missed = [] ∨ timely ≠ [] ∧ (missed.sum = 0 ∨ 2 ^ 64 - 1 ≤ timely.sum) := by
  have hcons : ∀ l : List Nat, l ≠ [] → total l = some (min l.sum (2 ^ 64 - 1)) := by
    intro l hl
    cases l with
    | nil => exact absurd rfl hl
    | cons n l => rw [total, List.sum_cons]
  by_cases hmissed : missed = []
  · subst hmissed
    refine iff_of_true ?_ (.inl rfl)
    by_cases htimely : timely = []
    · rw [htimely, hnil.mpr ⟨htimely, rfl⟩]
    · rw [hcons _ htimely, hcons _ fun h ↦ htimely (hnil.mp h).1, hsum, List.sum_nil, Nat.add_zero]
  · have hall : all ≠ [] := fun h ↦ hmissed (hnil.mp h).2
    rw [or_iff_right hmissed, hcons _ hall]
    by_cases htimely : timely = []
    · rw [htimely]
      exact iff_of_false (fun h ↦ by cases h) fun h ↦ h.1 rfl
    · rw [hcons _ htimely, Option.some.injEq, and_iff_right htimely]
      omega

/-! ### The tokens of images -/

private theorem Image.carries_iff (image : Image) : image.carries = true ↔
    ∃ usage, image.usage = some usage ∧ usage.isObject = true := by
  unfold Image.carries
  cases image.usage <;> simp

section

variable {images : List Image}

/-- The usage object of an image is that of any report that carries one. -/
theorem usageOf_of_carries (hconsistent : Consistent images) {image : Image}
    (himage : image ∈ images) (hcarries : image.carries = true) :
    usageOf images image.id = image.usage := by
  cases husage : usageOf images image.id with
  | none =>
    have hnone := List.findSome?_eq_none_iff.mp husage image himage
    rw [if_pos rfl, Option.filter_eq_none_iff] at hnone
    obtain ⟨usage, husage, hobject⟩ := image.carries_iff.mp hcarries
    exact absurd hobject (hnone usage husage)
  | some usage =>
    obtain ⟨other, hother, hsome⟩ := List.exists_of_findSome?_eq_some husage
    split at hsome
    · next hid =>
      obtain ⟨hsome, hobject⟩ := Option.filter_eq_some_iff.mp hsome
      have hcarries' : other.carries = true := other.carries_iff.mpr ⟨usage, hsome, hobject⟩
      rw [← hconsistent other hother image himage hid hcarries' hcarries, hsome]
    · cases hsome

/-- A report without a usage object has no tokens. -/
theorem tokens_of_not_carries (field : String) {image : Image} (h : image.carries = false) :
    image.tokens field = none := by
  unfold Image.tokens
  cases husage : image.usage with
  | none => rfl
  | some usage =>
    unfold Image.carries at h
    rw [husage] at h
    cases usage with
    | obj fields => cases h
    | _ => rfl

/-- The tokens of some images are those of their first reports and those missed there. -/
theorem tokens_split (hconsistent : Consistent images) (field : String) (firsts : List Image)
    (hfirsts : ∀ image ∈ firsts, image ∈ images) :
    let all := (firsts.map (·.id)).filterMap (tokensOf images field)
    let timely := firsts.filterMap (Image.tokens field)
    let missed := ((firsts.filter fun image ↦ !image.carries).map (·.id)).filterMap
      (tokensOf images field)
    all.sum = timely.sum + missed.sum ∧ (all = [] ↔ timely = [] ∧ missed = []) := by
  induction firsts with
  | nil => exact ⟨rfl, iff_of_true rfl ⟨rfl, rfl⟩⟩
  | cons image firsts ih =>
    obtain ⟨hsum, hnil⟩ := ih fun i hi ↦ hfirsts i (List.mem_cons_of_mem _ hi)
    dsimp only at hsum hnil ⊢
    rw [List.map_cons, List.filterMap_cons, List.filterMap_cons]
    cases hcarries : image.carries with
    | true =>
      have htokens : tokensOf images field image.id = image.tokens field := by
        unfold tokensOf
        rw [usageOf_of_carries hconsistent (hfirsts image List.mem_cons_self) hcarries]
        rfl
      rw [List.filter_cons_of_neg (by simp [hcarries]), htokens]
      cases image.tokens field with
      | none => exact ⟨hsum, hnil⟩
      | some n =>
        simp only [List.sum_cons, reduceCtorEq, false_and, iff_self, and_true]
        omega
    | false =>
      rw [List.filter_cons_of_pos (by simp [hcarries]), List.map_cons, List.filterMap_cons,
        tokens_of_not_carries field hcarries]
      cases tokensOf images field image.id with
      | none => exact ⟨hsum, hnil⟩
      | some n =>
        simp only [List.sum_cons, reduceCtorEq, and_false, iff_self, and_true]
        omega

/-- What the first reports add up to is what the images do, where enough is not missed. -/
theorem total_firsts_iff (hconsistent : Consistent images) (field : String) :
    total ((firstsOf images).filterMap (Image.tokens field)) =
        total ((ids images).filterMap (tokensOf images field)) ↔ Enough images field := by
  have hperm := (ids_perm images).filterMap (tokensOf images field)
  obtain ⟨hsum, hnil⟩ := tokens_split hconsistent field (firstsOf images) (firstsOf_spec images).2.1
  rw [← hperm.sum_eq] at hsum
  refine total_eq_iff hsum (Iff.trans ?_ hnil)
  constructor
  · intro h
    rw [h] at hperm
    exact hperm.nil_eq.symm
  · intro h
    rw [h] at hperm
    exact hperm.eq_nil

end

/-! ### What the decoder observes -/

/-- What the decoder has of the images so far. -/
structure Observed (images : List Image) (d : Decoding) : Prop where
  ids : d.imageIds.reverse = (firstsOf images).map (·.id)
  reported : d.usage.imageToolUsageReported = (firstsOf images).any (·.usage.isSome)
  input : d.usage.imageInputTokens =
    total ((firstsOf images).filterMap (Image.tokens "input_tokens"))
  output : d.usage.imageOutputTokens =
    total ((firstsOf images).filterMap (Image.tokens "output_tokens"))

/-- The tokens of one more first report. -/
theorem addTokens_eq {firsts : List Image} {image : Image} {usage : Json}
    (husage : image.usage = some usage) {field : String} {before : Option Nat}
    (hbefore : before = total (firsts.filterMap (Image.tokens field))) :
    Decoding.addTokens before usage field =
      total ((firsts ++ [image]).filterMap (Image.tokens field)) := by
  rw [List.filterMap_append]
  have htokens : image.tokens field = (usage.get field).bind asU64 := by
    unfold Image.tokens
    rw [husage]
    rfl
  unfold Decoding.addTokens
  cases hn : (usage.get field).bind asU64 with
  | none =>
    rw [List.filterMap_cons_none (by rw [htokens, hn]), List.filterMap_nil, List.append_nil]
    exact hbefore
  | some n =>
    rw [List.filterMap_cons_some (by rw [htokens, hn]), List.filterMap_nil, total_append, hbefore]

/-- One item is observed as its image is counted. -/
theorem observed_item {images : List Image} {d : Decoding} (h : Observed images d) (item : Json) :
    Observed (images ++ (reportedImage item).toList) (d.observeItem item) := by
  unfold Decoding.observeItem reportedImage
  split
  · rw [Option.toList_none, List.append_nil]
    exact h
  · split
    · rw [Option.toList_none, List.append_nil]
      exact h
    · cases hid : (item.get "id").bind asStr with
      | none =>
        rw [Option.map_none, Option.toList_none, List.append_nil]
        exact h
      | some id =>
        have hseen : (firstsOf images).map (·.id) = d.imageIds.reverse := h.ids.symm
        rw [Option.map_some, Option.toList_some]
        by_cases hmem : id ∈ d.imageIds
        · have hfirsts : firstsOf (images ++ [⟨id, item.get "usage"⟩]) = firstsOf images := by
            rw [firstsOf_append, addFirst, hseen]
            exact if_pos (List.contains_iff_mem.mpr (List.mem_reverse.mpr hmem))
          dsimp only
          rw [if_pos (List.contains_iff_mem.mpr hmem)]
          refine ⟨?_, ?_, ?_, ?_⟩ <;> rw [hfirsts]
          · exact h.ids
          · exact h.reported
          · exact h.input
          · exact h.output
        · have hfirsts : firstsOf (images ++ [⟨id, item.get "usage"⟩]) =
              firstsOf images ++ [⟨id, item.get "usage"⟩] := by
            rw [firstsOf_append, addFirst, hseen]
            refine if_neg ?_
            rwa [List.contains_iff_mem, List.mem_reverse]
          dsimp only
          rw [if_neg (by rwa [List.contains_iff_mem])]
          have hids : (id :: d.imageIds).reverse =
              (firstsOf (images ++ [⟨id, item.get "usage"⟩])).map (·.id) := by
            rw [hfirsts, List.reverse_cons, h.ids, List.map_append]
            rfl
          cases husage : item.get "usage" with
          | none =>
            rw [husage] at hfirsts hids
            refine ⟨hids, ?_, ?_, ?_⟩
            · rw [hfirsts, List.any_append]
              exact h.reported.trans (Bool.or_false _).symm
            · rw [hfirsts, List.filterMap_append]
              exact h.input.trans (congrArg total (List.append_nil _).symm)
            · rw [hfirsts, List.filterMap_append]
              exact h.output.trans (congrArg total (List.append_nil _).symm)
          | some usage =>
            rw [husage] at hfirsts hids
            refine ⟨hids, ?_, ?_, ?_⟩
            · rw [hfirsts, List.any_append]
              exact (Bool.or_true _).symm
            · rw [hfirsts]
              exact addTokens_eq rfl h.input
            · rw [hfirsts]
              exact addTokens_eq rfl h.output

private theorem observed_items {images : List Image} {d : Decoding} (h : Observed images d)
    (items : List Json) :
    Observed (images ++ items.filterMap reportedImage) (items.foldl Decoding.observeItem d) := by
  induction items generalizing images d with
  | nil =>
    rw [List.filterMap_nil, List.append_nil]
    exact h
  | cons item items ih =>
    have hitem := ih (observed_item h item)
    rw [List.append_assoc] at hitem
    rw [List.foldl_cons, List.filterMap_cons]
    cases hreported : reportedImage item with
    | none =>
      rw [hreported] at hitem
      exact hitem
    | some image =>
      rw [hreported] at hitem
      exact hitem

/-- What is counted is untouched where these fields are. -/
theorem Observed.of_same {images : List Image} {d d' : Decoding} (h : Observed images d)
    (hids : d'.imageIds = d.imageIds)
    (hreported : d'.usage.imageToolUsageReported = d.usage.imageToolUsageReported)
    (hinput : d'.usage.imageInputTokens = d.usage.imageInputTokens)
    (houtput : d'.usage.imageOutputTokens = d.usage.imageOutputTokens) : Observed images d' :=
  ⟨hids ▸ h.ids, hreported ▸ h.reported, hinput ▸ h.input, houtput ▸ h.output⟩

/-- Only the items of a response touch what is counted. -/
theorem observed_response {images : List Image} {d : Decoding} (h : Observed images d)
    (response : Json) :
    Observed (images ++ (((response.get "output").bind asArray).getD []).filterMap reportedImage)
      (d.observeResponse response) := by
  unfold Decoding.observeResponse
  dsimp only
  generalize ((response.get "output").bind asArray).getD [] = items
  have hflag : Observed images { d with
      compactionOutput := d.compactionOutput || Decoding.hasOutput items } :=
    h.of_same rfl rfl rfl rfl
  have hitems := observed_items hflag items
  generalize items.foldl Decoding.observeItem _ = d' at hitems ⊢
  cases (response.get "service_tier").bind asStr with
  | none =>
    cases (response.get "usage").filter isObject with
    | none => exact hitems
    | some usage => exact hitems.of_same rfl rfl rfl rfl
  | some tier =>
    dsimp only
    by_cases hknown : ["default", "priority", "fast"].contains tier = true
    · rw [if_pos hknown]
      cases (response.get "usage").filter isObject with
      | none => exact hitems.of_same rfl rfl rfl rfl
      | some usage => exact hitems.of_same rfl rfl rfl rfl
    · rw [if_neg hknown]
      cases (response.get "usage").filter isObject with
      | none => exact hitems
      | some usage => exact hitems.of_same rfl rfl rfl rfl

/-- Only the items of an event touch what is counted. -/
theorem observed_event {images : List Image} {d : Decoding} (h : Observed images d) (kind : String)
    (value : Json) : Observed (images ++ imagesOf value) (d.observe kind value) := by
  unfold Decoding.observe imagesOf itemsOf
  dsimp only
  rw [List.filterMap_append, ← List.append_assoc]
  have hflag : Observed images (if (decide (kind = "response.output_item.done") &&
      (value.get "item").any (·.hasType "compaction")) = true then
        { d with compactionOutput := true } else d) := by
    split
    · exact h.of_same rfl rfl rfl rfl
    · exact h
  generalize (if (decide (kind = "response.output_item.done") &&
      (value.get "item").any (·.hasType "compaction")) = true then
        { d with compactionOutput := true } else d) = d₁ at hflag ⊢
  cases value.get "item" with
  | none =>
    rw [Option.toList_none, List.filterMap_nil, List.append_nil]
    cases value.get "response" with
    | none =>
      rw [Option.bind_none, Option.bind_none, Option.getD_none, List.filterMap_nil,
        List.append_nil]
      exact hflag
    | some response => exact observed_response hflag response
  | some item =>
    have hobserved := observed_items hflag [item]
    cases value.get "response" with
    | none =>
      rw [Option.bind_none, Option.bind_none, Option.getD_none, List.filterMap_nil,
        List.append_nil]
      exact hobserved
    | some response => exact observed_response hobserved response

/-! ### A stream -/

/-- What the decoder has counted after an event, as the event reports it. -/
theorem decodeEvent_observed {r : Readings} {images : List Image} {d : Decoding}
    (h : Observed images d) (kind : String) (value : Json) (quotas : List QuotaWindow) :
    let decoded := decodeEvent r d kind value quotas
    Observed (images ++ imagesOf value) decoded.2 ∧
      decoded.1.observation.usage = decoded.2.usage ∧
      decoded.2.usage.imageCount = decoded.2.imageIds.length % 2 ^ 32 := by
  have hobserved := observed_event h kind value
  unfold decodeEvent
  dsimp only
  split
  · exact ⟨hobserved.of_same rfl rfl rfl rfl, rfl, rfl⟩
  · exact ⟨hobserved.of_same rfl rfl rfl rfl, rfl, rfl⟩

/-- The last event of a stream that has ended reports what was counted of all of them. -/
theorem decodeData_observed {r : Readings} {images : List Image} {d d' : Decoding}
    {data : List String} {decoded : List DecodedEvent} (h : Observed images d)
    (hd : d.terminal = false) (hdecode : decodeData r d data = .ok (decoded, d'))
    (hend : d'.terminal = true) :
    Observed (images ++ (eventsOf r data).flatMap imagesOf) d' ∧
      d'.usage.imageCount = d'.imageIds.length % 2 ^ 32 ∧
      ∃ event, decoded.getLast? = some event ∧ event.observation.usage = d'.usage := by
  induction data generalizing images d decoded with
  | nil =>
    cases hdecode
    rw [hd] at hend
    cases hend
  | cons datum data ih =>
    unfold decodeData decodeDatum at hdecode
    unfold eventsOf
    cases hparse : r.parse datum with
    | none =>
      rw [hparse] at hdecode
      cases hdecode
    | some value =>
      rw [hparse] at hdecode
      cases hkind : (value.get "type").bind asStr with
      | none =>
        simp only [hkind] at hdecode
        cases hdecode
      | some kind =>
        simp only [hkind] at hdecode
        cases hquotas : r.quotas kind value with
        | none =>
          simp only [hquotas] at hdecode
          cases hdecode
        | some quotas =>
          simp only [hquotas] at hdecode
          obtain ⟨hobserved, husage, hcount⟩ := @decodeEvent_observed r images d h kind value quotas
          have hterminal := @decodeEvent_terminal r d hd kind value quotas
          rw [hterminal] at hdecode
          dsimp only
          cases hfinal : isTerminal value with
          | true =>
            rw [hfinal, if_pos rfl] at hdecode
            cases hdecode
            rw [if_pos rfl, List.flatMap_singleton]
            exact ⟨hobserved, hcount, _, rfl, husage⟩
          | false =>
            rw [hfinal, if_neg Bool.false_ne_true] at hdecode
            rw [if_neg Bool.false_ne_true, List.flatMap_cons, ← List.append_assoc]
            cases hrest : decodeData r (decodeEvent r d kind value quotas).2 data with
            | error e =>
              rw [hrest] at hdecode
              cases hdecode
            | ok rest =>
              rw [hrest] at hdecode
              cases hdecode
              obtain ⟨hall, hcount', event, hlast, hsame⟩ :=
                ih hobserved (hterminal.trans hfinal) hrest
              refine ⟨hall, hcount', event, ?_, hsame⟩
              rw [List.getLast?_cons, hlast]
              rfl

/-- The images of a stream are counted once, with their usage, exactly where nothing of them is
lost with their later reports. -/
theorem images_counted_iff {r : Readings} {data : List String} {decoded : List DecodedEvent}
    {d : Decoding} (hdecode : decodeData r {} data = .ok (decoded, d))
    (hend : d.terminal = true)
    (hconsistent : Consistent ((eventsOf r data).flatMap imagesOf)) :
    ∃ event, decoded.getLast? = some event ∧
      (Counted ((eventsOf r data).flatMap imagesOf) event.observation.usage ↔
        Timely ((eventsOf r data).flatMap imagesOf)) := by
  have hstart : Observed [] {} := ⟨rfl, rfl, rfl, rfl⟩
  obtain ⟨hobserved, hcount, event, hlast, husage⟩ :=
    decodeData_observed hstart rfl hdecode hend
  rw [List.nil_append] at hobserved
  generalize (eventsOf r data).flatMap imagesOf = images at hobserved hconsistent ⊢
  refine ⟨event, hlast, ?_⟩
  rw [husage]
  have hlength : d.imageIds.length = (ids images).length := by
    rw [← List.length_reverse, hobserved.ids, (ids_perm images).length_eq]
  have hcountIff : d.usage.imageCount = (ids images).length ↔ (ids images).length < 2 ^ 32 := by
    rw [hcount, hlength]
    omega
  have hreported : d.usage.imageToolUsageReported = true ↔
      ∃ image ∈ firstsOf images, image.usage.isSome = true := by
    rw [hobserved.reported, List.any_eq_true]
  constructor
  · intro h
    refine ⟨hcountIff.mp h.count, h.reported.symm.trans hreported, ?_, ?_⟩
    · exact (total_firsts_iff hconsistent _).mp (hobserved.input.symm.trans h.input)
    · exact (total_firsts_iff hconsistent _).mp (hobserved.output.symm.trans h.output)
  · intro h
    refine ⟨hcountIff.mpr h.count, hreported.trans h.reported.symm, ?_, ?_⟩
    · exact hobserved.input.trans ((total_firsts_iff hconsistent _).mpr h.input)
    · exact hobserved.output.trans ((total_firsts_iff hconsistent _).mpr h.output)

/-- An image that is first reported without its usage. -/
def lateData : List String :=
  ["\x7b\"item\":\x7b\"id\":\"ig_1\",\"result\":\"AA\",\"type\":\"image_generation_call\"\x7d," ++
      "\"type\":\"response.output_item.done\"\x7d",
    "\x7b\"response\":\x7b\"output\":[\x7b\"id\":\"ig_1\",\"result\":\"AA\"," ++
      "\"type\":\"image_generation_call\"," ++
      "\"usage\":\x7b\"input_tokens\":5,\"output_tokens\":7\x7d\x7d]\x7d," ++
      "\"type\":\"response.completed\"\x7d"]

/-- The values of these data. -/
def lateEvents : List Json :=
  [.obj [("item", .obj [("id", .str "ig_1"), ("result", .str "AA"),
      ("type", .str "image_generation_call")]), ("type", .str "response.output_item.done")],
    .obj [("response", .obj [("output", .arr [.obj [("id", .str "ig_1"), ("result", .str "AA"),
        ("type", .str "image_generation_call"),
        ("usage", .obj [("input_tokens", .int 5), ("output_tokens", .int 7)])]])]),
      ("type", .str "response.completed")]]

def lateReadings : Readings where
  parse text := (lateData.zip lateEvents).lookup text
  asF64 _ := none
  fromTimestamp _ := none
  now := 0
  credits _ := ⟨none, none, none, 0, false⟩
  classifyError _ := (notJson, "", none)

private theorem eventsOf_late : eventsOf lateReadings lateData = lateEvents := by
  simp [eventsOf, lateReadings, lateData, lateEvents, isTerminal, List.lookup_cons, hasType,
    Json.get, field, asStr]

private theorem imagesOf_late : lateEvents.flatMap imagesOf =
    [⟨"ig_1", none⟩,
      ⟨"ig_1", some (.obj [("input_tokens", .int 5), ("output_tokens", .int 7)])⟩] := by
  simp [lateEvents, imagesOf, itemsOf, reportedImage, hasType, Json.get, field, asStr, asArray]

private theorem consistent_late :
    Consistent ((eventsOf lateReadings lateData).flatMap imagesOf) := by
  rw [eventsOf_late, imagesOf_late]
  intro a ha b hb _ hcarries hcarries'
  rcases List.mem_cons.mp ha with rfl | ha
  · cases hcarries
  · rcases List.mem_cons.mp hb with rfl | hb
    · cases hcarries'
    · rw [List.mem_singleton.mp ha, List.mem_singleton.mp hb]

/-- The images of a stream whose usage comes late are counted exactly if it was in time. -/
theorem images_counted_late : ∃ decoded d event,
    decodeData lateReadings {} lateData = .ok (decoded, d) ∧ decoded.getLast? = some event ∧
      (Counted ((eventsOf lateReadings lateData).flatMap imagesOf) event.observation.usage ↔
        Timely ((eventsOf lateReadings lateData).flatMap imagesOf)) := by
  have hend : ((decodeData lateReadings {} lateData).toOption.map (·.2.terminal)) = some true := by
    decide +kernel
  cases hdecode : decodeData lateReadings {} lateData with
  | error e =>
    rw [hdecode] at hend
    cases hend
  | ok result =>
    obtain ⟨decoded, d⟩ := result
    rw [hdecode] at hend
    obtain ⟨event, hlast, hiff⟩ :=
      images_counted_iff hdecode (Option.some.inj hend) consistent_late
    exact ⟨decoded, d, event, rfl, hlast, hiff⟩

/-- The usage is in a later report, so it is not counted. -/
theorem images_missed_late : ∃ decoded d event,
    decodeData lateReadings {} lateData = .ok (decoded, d) ∧ decoded.getLast? = some event ∧
      Consistent ((eventsOf lateReadings lateData).flatMap imagesOf) ∧
      ¬ Counted ((eventsOf lateReadings lateData).flatMap imagesOf) event.observation.usage := by
  have hinput : ((decodeData lateReadings {} lateData).toOption.bind (·.1.getLast?)).map
      (·.observation.usage.imageInputTokens) = some none := by
    decide +kernel
  cases hdecode : decodeData lateReadings {} lateData with
  | error e =>
    rw [hdecode] at hinput
    cases hinput
  | ok result =>
    obtain ⟨decoded, d⟩ := result
    rw [hdecode] at hinput
    obtain ⟨event, hlast, hnone⟩ := Option.map_eq_some_iff.mp hinput
    refine ⟨decoded, d, event, rfl, hlast, consistent_late, fun hcounted ↦ ?_⟩
    have htotal := hcounted.input
    rw [hnone, eventsOf_late, imagesOf_late] at htotal
    revert htotal
    decide +kernel

end ImageUsage
end Xxgate.Codex
