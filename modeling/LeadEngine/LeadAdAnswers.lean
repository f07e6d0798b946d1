import LeadEngine.LeadAds
import LeadEngine.Words

/-! What becomes of the answers of a Lead Ads form. An item counts with its first value, the last
item of a name overrides the others, and a field that is filled sets its substitutes aside; what
is set aside survives only where a kept text or the webhook payload repeats it. -/
namespace LeadEngine

namespace Json

mutual

/-- The value, all values in it, and the keys of its objects. -/
def parts : Json → List Json
  | .arr xs => .arr xs :: itemParts xs
  | .obj kvs => .obj kvs :: fieldParts kvs
  | j => [j]

def itemParts : List Json → List Json
  | [] => []
  | x :: xs => parts x ++ itemParts xs

def fieldParts : List (String × Json) → List Json
  | [] => []
  | (k,v) :: rest => .str k :: parts v ++ fieldParts rest

end

theorem mem_parts_self (j : Json) : j ∈ j.parts := by
  cases j <;> simp [parts]

theorem mem_itemParts {j : Json} {xs : List Json} :
    j ∈ itemParts xs ↔ ∃ x ∈ xs, j ∈ x.parts := by
  induction xs with
  | nil => simp [itemParts]
  | cons x xs ih => simp [itemParts,ih]

theorem parts_arr {j x : Json} {xs : List Json} (hx : x ∈ xs) (hj : j ∈ x.parts) :
    j ∈ (Json.arr xs).parts := by
  rw [parts]
  exact List.mem_cons_of_mem _ (mem_itemParts.mpr ⟨x,hx,hj⟩)

theorem parts_obj {j v : Json} {k : String} {kvs : List (String × Json)} (hv : (k,v) ∈ kvs)
    (hj : j ∈ v.parts) : j ∈ (Json.obj kvs).parts := by
  rw [parts]
  refine List.mem_cons_of_mem _ ?_
  induction kvs with
  | nil => cases hv
  | cons entry rest ih =>
    obtain ⟨k',v'⟩ := entry
    rw [fieldParts]
    rcases List.mem_cons.mp hv with heq | hrest
    · obtain ⟨rfl,rfl⟩ := Prod.mk.inj heq
      simp [hj]
    · simp [ih hrest]

end Json

namespace LeadAds

open Interpreter Normaliser Words Repository Deduplicator Pipeline

def Occurs (text within : String) : Prop := text.toList <:+: within.toList

instance (text within : String) : Decidable (Occurs text within) :=
  inferInstanceAs (Decidable (text.toList <:+: within.toList))

section Answers

variable [Interpreter]

def itemName (item : FieldItem) : String := lower (str (item.name.getD (.str "")))

def valueText (value : Json) : String := strip (str value)

/-- The answer that counts for a name: the first value of the last item with that name and a
first value that is not blank. -/
def answer (fieldData : List FieldItem) (name : String) : Option String :=
  (fieldData.reverse.find? fun item => itemName item = name ∧ firstValue item ≠ "").map firstValue

/-- Another answer takes the place of this one: the full name that of its parts, the phone number
that of the number at work. -/
def SetAside (fieldData : List FieldItem) (name : String) : Prop :=
  (name = "first_name" ∨ name = "last_name") ∧ answer fieldData "full_name" ≠ none ∨
    name = "work_phone_number" ∧ answer fieldData "phone_number" ≠ none

/-- The answer for a name, unless another takes its place. -/
def Kept (fieldData : List FieldItem) (name text : String) : Prop :=
  answer fieldData name = some text ∧ ¬ SetAside fieldData name

def joinedName (fieldData : List FieldItem) : String :=
  strip (String.ofList (((answer fieldData "first_name").getD "").toList ++
    ' ' :: ((answer fieldData "last_name").getD "").toList))

def joinedLocation (order : List String) (fieldData : List FieldItem) : String :=
  String.intercalate ", " (order.filterMap (answer fieldData))

/-- The text occurs in the `str()` of the JSON value, of a value in it or of a key. -/
def InJson (text : String) (j : Json) : Prop := ∃ part ∈ j.parts, Occurs text (str part)

instance (text : String) (j : Json) : Decidable (InJson text j) :=
  inferInstanceAs (Decidable (∃ part ∈ j.parts, Occurs text (str part)))

/-- The text occurs in a kept answer, for an email up to case, in the joined name where there is
no full name, in the joined location, or in the payload of the webhook. Without a payload the
job stores the answers themselves. -/
def Repeated (order : List String) (fieldData : List FieldItem)
    (payload : Option (List (String × Json))) (text : String) : Prop :=
  (∃ name kept, name ≠ "email" ∧ Kept fieldData name kept ∧ Occurs text kept) ∨
    (∃ kept, Kept fieldData "email" kept ∧ Occurs (lower text) (lower kept)) ∨
    answer fieldData "full_name" = none ∧ Occurs text (joinedName fieldData) ∨
    Occurs text (joinedLocation order fieldData) ∨
    payload.getD [] = [] ∨ InJson text (.obj (payload.getD []))

/-- Every value that is not blank and not the kept answer of its item's name is repeated. -/
def AsideRepeated (order : List String) (fieldData : List FieldItem)
    (payload : Option (List (String × Json))) : Prop :=
  ∀ item ∈ fieldData, ∀ value ∈ item.values.getD [], valueText value ≠ "" →
    ¬ Kept fieldData (itemName item) (valueText value) →
      Repeated order fieldData payload (valueText value)

/-- The text is contained in the event: in a canonical field, for the email up to case, in a value
of the extra fields or in the raw event. -/
def Contained (text : String) (e : NormalisedChannelEvent) : Prop :=
  (∃ name ∈ e.fullName, Occurs text name) ∨
    (∃ phone ∈ e.phone, Occurs text phone) ∨
    (∃ email ∈ e.email, Occurs (lower text) email) ∨
    (∃ place ∈ e.location, Occurs text place) ∨
    (∃ entry ∈ e.extraFields.entries, ∃ extra ∈ entry.2.text?, Occurs text extra) ∨
    InJson text e.rawEventJson

instance (text : String) (e : NormalisedChannelEvent) : Decidable (Contained text e) := by
  unfold Contained; infer_instance

def Retained (fieldData : List FieldItem) (e : NormalisedChannelEvent) : Prop :=
  ∀ item ∈ fieldData, ∀ value ∈ item.values.getD [], valueText value ≠ "" →
    Contained (valueText value) e

instance (fieldData : List FieldItem) (e : NormalisedChannelEvent) :
    Decidable (Retained fieldData e) := by
  unfold Retained; infer_instance

variable {fieldData : List FieldItem} {order : List String} {leadgenId : String}
  {tenantId : UUID} {connectionId : Option UUID} {payload : Option (List (String × Json))}
  {name text : String}

theorem get?_flattenItems (fieldData : List FieldItem) (name : String) :
    (flattenItems fieldData).get? name = answer fieldData name := by
  have hfold : flattenItems fieldData = (fieldData.filter fun item => firstValue item ≠ "").foldl
      (fun flat item => flat.set (itemName item) (firstValue item)) .empty := by
    rw [List.foldl_filter,flattenItems]
    congr 1
    funext flat item
    by_cases h : firstValue item = "" <;> simp [flattenItem,itemName,h]
  rw [hfold,Dict.get?_foldl_set,← List.filter_reverse,List.find?_filter]
  simp [answer,Dict.get?,and_comm]

theorem answer_some (h : answer fieldData name = some text) : text ≠ "" ∧
    ∃ value, text = valueText value := by
  obtain ⟨item,hitem,rfl⟩ := Option.map_eq_some_iff.mp h
  have hfound : itemName item = name ∧ firstValue item ≠ "" := by
    simpa using List.find?_some hitem
  refine ⟨hfound.2,?_⟩
  cases hvalues : item.values.getD [] with
  | nil => exact absurd (by simp [firstValue,hvalues]) hfound.2
  | cons value rest => exact ⟨value,by simp [firstValue,hvalues,valueText]⟩

theorem truthy_answer (fieldData : List FieldItem) (name : String) :
    truthy (answer fieldData name) = answer fieldData name := by
  cases h : answer fieldData name with
  | none => rfl
  | some text => exact truthy_eq_some.mpr ⟨rfl,(answer_some h).1⟩

theorem toList_strip (text : String) : (strip text).toList = trim isSpace text.toList := by
  simp [strip,trim,List.rdropWhile]

omit [Interpreter] in
theorem ne_empty_of_occurs {kept : String} (h : text ≠ "") (hoccurs : Occurs text kept) :
    kept ≠ "" := by
  rintro rfl
  exact h (String.toList_eq_nil_iff.mp (List.infix_nil.mp hoccurs))

theorem infix_joinedName (hname : name = "first_name" ∨ name = "last_name")
    (h : answer fieldData name = some text) :
    text.toList <:+: (joinedName fieldData).toList := by
  obtain ⟨value,rfl⟩ := (answer_some h).2
  rw [joinedName,toList_strip,valueText,toList_strip]
  apply trim_infix_trim
  rw [← toList_strip,String.toList_ofList]
  rcases hname with rfl | rfl
  · rw [h]
    exact (List.prefix_append _ _).isInfix
  · rw [h]
    exact ((List.suffix_cons _ _).trans (List.suffix_append _ _)).isInfix

theorem infix_joinedLocation (hname : name ∈ order) (h : answer fieldData name = some text) :
    text.toList <:+: (joinedLocation order fieldData).toList := by
  rw [joinedLocation,String.toList_intercalate]
  exact infix_intercalate
    (List.mem_map_of_mem (List.mem_filterMap.mpr ⟨name,hname,h⟩))

structure FormFields (order : List String) (fieldData : List FieldItem)
    (e : NormalisedChannelEvent) : Prop where
  fullName : e.fullName =
    (answer fieldData "full_name").or (truthy (some (joinedName fieldData)))
  phone : e.phone = (answer fieldData "phone_number").or (answer fieldData "work_phone_number")
  email : e.email = (answer fieldData "email").map lower
  location : e.location = truthy (some (joinedLocation order fieldData))
  extra : ∀ k v, (k,v) ∈ e.extraFields.entries ↔
    k ∉ consumedFields ∧ ∃ t, answer fieldData k = some t ∧ v = .str t

variable (fieldData order leadgenId tenantId connectionId payload) in
theorem normaliseLeadAdForm_fields : FormFields order fieldData
    (normaliseLeadAdForm order fieldData leadgenId tenantId connectionId payload) := by
  refine ⟨?_,?_,?_,?_,fun k v => ?_⟩
  · simp only [normaliseLeadAdForm,adFullName,get?_flattenItems]
    cases answer fieldData "full_name" with
    | none => rw [Option.none_or,joinedName]
    | some name => rw [Option.some_or]
  · simp only [normaliseLeadAdForm,adPhone,get?_flattenItems,truthy_answer]
    cases answer fieldData "phone_number" with
    | none => rw [Option.none_or]
    | some phone => rw [Option.some_or]
  · simp only [normaliseLeadAdForm,get?_flattenItems,truthy_answer]
  · have hget : (flattenItems fieldData).get? = answer fieldData :=
      funext (get?_flattenItems fieldData)
    simp only [normaliseLeadAdForm,adLocation,hget,joinedLocation]
  · simp only [normaliseLeadAdForm,Dict.entries_mapValues,Dict.entries_filter,List.mem_map,
      List.mem_filter,decide_eq_true_eq,Prod.mk.injEq,Prod.exists,Dict.mem_entries,
      get?_flattenItems]
    constructor
    · rintro ⟨_,t,⟨ht,hk⟩,rfl,rfl⟩
      exact ⟨hk,t,ht,rfl⟩
    · rintro ⟨hk,t,ht,rfl⟩
      exact ⟨k,t,⟨ht,hk⟩,rfl,rfl⟩

section FormFields

variable {e : NormalisedChannelEvent} {kept : String} (h : FormFields order fieldData e)

include h

/-- Every field of the event but the raw one is made of kept answers. -/
theorem FormFields.repeated (hraw : e.rawEventJson = .obj (payload.getD []))
    (hcontained : Contained text e) : Repeated order fieldData payload text := by
  obtain ⟨name,hname,hin⟩ | ⟨phone,hp,hin⟩ | ⟨email,hm,hin⟩ | ⟨place,hplace,hin⟩ |
    ⟨⟨k,v⟩,hentry,extra,hstr,hin⟩ | hin := hcontained
  · rw [h.fullName] at hname
    cases hfull : answer fieldData "full_name" with
    | some full =>
      obtain rfl : full = name := by simpa [hfull] using hname
      exact .inl ⟨"full_name",full,by decide,⟨hfull,by simp [SetAside]⟩,hin⟩
    | none =>
      rw [hfull,Option.none_or] at hname
      obtain rfl := Option.some.inj (truthy_eq_some.mp hname).1
      exact .inr (.inr (.inl ⟨hfull,hin⟩))
  · rw [h.phone] at hp
    cases hnumber : answer fieldData "phone_number" with
    | some number =>
      obtain rfl : number = phone := by simpa [hnumber] using hp
      exact .inl ⟨"phone_number",number,by decide,⟨hnumber,by simp [SetAside]⟩,hin⟩
    | none =>
      rw [hnumber,Option.none_or] at hp
      exact .inl ⟨"work_phone_number",phone,by decide,⟨hp,by simp [SetAside,hnumber]⟩,hin⟩
  · rw [h.email] at hm
    obtain ⟨kept,hkept,rfl⟩ := Option.map_eq_some_iff.mp hm
    exact .inr (.inl ⟨kept,⟨hkept,by simp [SetAside]⟩,hin⟩)
  · rw [h.location] at hplace
    obtain rfl := Option.some.inj (truthy_eq_some.mp hplace).1
    exact .inr (.inr (.inr (.inl hin)))
  · obtain ⟨hk,t,ht,rfl⟩ := (h.extra k v).mp hentry
    obtain rfl : t = extra := Option.some.inj hstr
    have hne : ∀ n ∈ consumedFields, k ≠ n := fun n hn => ne_of_mem_of_not_mem hn hk |>.symm
    refine .inl ⟨k,t,hne _ (by decide),⟨ht,?_⟩,hin⟩
    rintro (⟨rfl | rfl,_⟩ | ⟨rfl,_⟩)
    · exact hne _ (by decide) rfl
    · exact hne _ (by decide) rfl
    · exact hne _ (by decide) rfl
  · rw [hraw] at hin
    exact .inr (.inr (.inr (.inr (.inr hin))))

theorem FormFields.contained_of_joinedName (htext : text ≠ "")
    (hnone : answer fieldData "full_name" = none) (hin : Occurs text (joinedName fieldData)) :
    Contained text e := by
  refine .inl ⟨joinedName fieldData,?_,hin⟩
  rw [h.fullName,hnone,Option.none_or]
  exact truthy_eq_some.mpr ⟨rfl,ne_empty_of_occurs htext hin⟩

theorem FormFields.contained_of_joinedLocation (htext : text ≠ "")
    (hin : Occurs text (joinedLocation order fieldData)) : Contained text e :=
  .inr (.inr (.inr (.inl ⟨_,
    h.location.trans (truthy_eq_some.mpr ⟨rfl,ne_empty_of_occurs htext hin⟩),hin⟩)))

/-- A kept answer is in the field that its name belongs to, or else in the extra fields. -/
theorem FormFields.contained_of_kept (horder : order.Perm locationFields) (htext : text ≠ "")
    (hnotEmail : name ≠ "email") (hkept : Kept fieldData name kept) (hin : Occurs text kept) :
    Contained text e := by
  obtain ⟨hanswer,haside⟩ := hkept
  by_cases hconsumed : name ∈ consumedFields
  · have hcases : name = "full_name" ∨ (name = "first_name" ∨ name = "last_name") ∨
        name = "email" ∨ name = "phone_number" ∨ name = "work_phone_number" ∨
        name ∈ locationFields := by
      simpa [consumedFields,or_assoc] using hconsumed
    rcases hcases with rfl | hname | rfl | rfl | rfl | hname
    · exact .inl ⟨kept,by rw [h.fullName,hanswer]; rfl,hin⟩
    · have hfull : answer fieldData "full_name" = none := by
        by_contra hsome
        exact haside (.inl ⟨hname,hsome⟩)
      exact h.contained_of_joinedName htext hfull (hin.trans (infix_joinedName hname hanswer))
    · exact absurd rfl hnotEmail
    · exact .inr (.inl ⟨kept,by rw [h.phone,hanswer]; rfl,hin⟩)
    · have hnumber : answer fieldData "phone_number" = none := by
        by_contra hsome
        exact haside (.inr ⟨rfl,hsome⟩)
      exact .inr (.inl ⟨kept,by rw [h.phone,hnumber,Option.none_or,hanswer]; rfl,hin⟩)
    · exact h.contained_of_joinedLocation htext
        (hin.trans (infix_joinedLocation (horder.mem_iff.mpr hname) hanswer))
  · exact .inr (.inr (.inr (.inr (.inl ⟨(name,.str kept),
      (h.extra _ _).mpr ⟨hconsumed,kept,hanswer,rfl⟩,kept,rfl,hin⟩))))

end FormFields

/-- With a payload, what the event contains is what is repeated in the kept answers or the
payload. -/
theorem contained_iff (horder : order.Perm locationFields) (hpayload : payload.getD [] ≠ [])
    (htext : text ≠ "") :
    Contained text
        (normaliseLeadAdForm order fieldData leadgenId tenantId connectionId payload) ↔
      Repeated order fieldData payload text := by
  have hfields := normaliseLeadAdForm_fields fieldData order leadgenId tenantId connectionId payload
  have hraw : (normaliseLeadAdForm order fieldData leadgenId tenantId connectionId
      payload).rawEventJson = .obj (payload.getD []) := by
    obtain ⟨kv,kvs,hkvs⟩ := List.exists_cons_of_ne_nil hpayload
    obtain ⟨fields,rfl⟩ : ∃ fields, payload = some fields := by
      cases payload with
      | none => cases hkvs
      | some fields => exact ⟨fields,rfl⟩
    obtain rfl : fields = kv :: kvs := hkvs
    rfl
  constructor
  · exact hfields.repeated hraw
  · rintro (⟨name,kept,hnotEmail,hkept,hin⟩ | ⟨kept,⟨hanswer,_⟩,hin⟩ | ⟨hnone,hin⟩ | hin |
      hempty | hin)
    · exact hfields.contained_of_kept horder htext hnotEmail hkept hin
    · exact .inr (.inr (.inl ⟨lower kept,by rw [hfields.email,hanswer]; rfl,hin⟩))
    · exact hfields.contained_of_joinedName htext hnone hin
    · exact hfields.contained_of_joinedLocation htext hin
    · exact absurd hempty hpayload
    · rw [← hraw] at hin
      exact .inr (.inr (.inr (.inr (.inr hin))))

/-- Without a payload the raw event holds the answers. -/
theorem inJson_leadAdRaw (hpayload : payload.getD [] = []) {item : FieldItem}
    (hitem : item ∈ fieldData) {value : Json} (hvalue : value ∈ item.values.getD []) :
    InJson (valueText value) (leadAdRaw leadgenId fieldData payload) := by
  have hraw : leadAdRaw leadgenId fieldData payload = .obj [("leadgen_id",.str leadgenId),
      ("field_data",.arr (fieldData.map fieldItemJson))] := by
    cases payload with
    | none => rfl
    | some fields =>
      obtain rfl : fields = [] := hpayload
      rfl
  obtain ⟨values,hvalues⟩ : ∃ values, item.values = some values := by
    cases hnone : item.values with
    | none => simp [hnone] at hvalue
    | some values => exact ⟨values,rfl⟩
  rw [hvalues] at hvalue
  have hmem : value ∈ (fieldItemJson item).parts := by
    refine Json.parts_obj (k:="values") (v:=.arr values) ?_
      (Json.parts_arr hvalue (Json.mem_parts_self value))
    simp [hvalues]
  refine ⟨value,?_,?_⟩
  · rw [hraw]
    exact Json.parts_obj (k:="field_data") (by simp)
      (Json.parts_arr (List.mem_map_of_mem hitem) hmem)
  · rw [Occurs,valueText,toList_strip]
    exact trim_infix _ _

theorem retained_iff (horder : order.Perm locationFields) :
    Retained fieldData
        (normaliseLeadAdForm order fieldData leadgenId tenantId connectionId payload) ↔
      AsideRepeated order fieldData payload := by
  by_cases hpayload : payload.getD [] = []
  · refine iff_of_true ?_ ?_
    · intro item hitem value hvalue _
      exact .inr (.inr (.inr (.inr (.inr (inJson_leadAdRaw hpayload hitem hvalue)))))
    · intro item _ value _ _ _
      exact .inr (.inr (.inr (.inr (.inl hpayload))))
  · refine forall₂_congr fun item _ => forall₂_congr fun value _ => forall_congr' fun htext => ?_
    rw [contained_iff horder hpayload htext]
    constructor
    · exact fun h _ => h
    · intro h
      by_cases hkept : Kept fieldData (itemName item) (valueText value)
      · by_cases hname : itemName item = "email"
        · exact .inr (.inl ⟨_,hname ▸ hkept,List.infix_rfl⟩)
        · exact .inl ⟨_,_,hname,hkept,List.infix_rfl⟩
      · exact h hkept

theorem stored_raw {s s' : Store} {f : Fresh} (hf : f.For s) {e : NormalisedChannelEvent}
    (hslot : ¬ SlotTaken s e.platformEventId) {c : Captured}
    (h : runCapture s f e = .ok (s',c)) : ∃ r ∈ s'.logs,
      r.platformEventId = e.platformEventId ∧ r.rawEventJson = .payload e.rawEventJson := by
  cases hdup : findDuplicate s e.tenantId e with
  | error err => simp [runCapture_error hslot hdup] at h
  | ok found =>
    cases found with
    | none =>
      rw [runCapture_new hf hslot hdup] at h
      obtain ⟨rfl,_⟩ := Prod.mk.inj (Except.ok.inj h)
      exact ⟨settledLog f e f.leadId .received,by simp [withNewLead],rfl,rfl⟩
    | some l =>
      rw [runCapture_duplicate hf hslot hdup] at h
      obtain ⟨rfl,_⟩ := Prod.mk.inj (Except.ok.inj h)
      exact ⟨settledLog f e l.id .duplicate,by simp [withDuplicate],rfl,rfl⟩

/-- The event of a form, whose raw event is what the job stores, contains every answer exactly
when those set aside are repeated. -/
theorem no_answer_lost_iff (env : LeadAdEnv) (job : LeadAdPayload) (fieldData : List FieldItem)
    (horder : env.locationOrder.Perm locationFields) :
    (Retained fieldData (leadAdEvent env job fieldData) ↔
      AsideRepeated env.locationOrder fieldData job.rawPayload) ∧
    ∀ {s s' : Store} {f : Fresh} {received : Option LeadReceived}, f.For s →
      fetchFields env job = .fetched fieldData → ¬ SlotTaken s (leadAdEventId job.leadgenId) →
      runLeadAdCapture s f env job = .ok (s',received) →
        ∃ r ∈ s'.logs, r.platformEventId = leadAdEventId job.leadgenId ∧
          r.rawEventJson = .payload (leadAdEvent env job fieldData).rawEventJson := by
  refine ⟨retained_iff horder,fun {s s' f received} hf hfetch hslot h => ?_⟩
  unfold runLeadAdCapture at h
  rw [hfetch] at h
  cases hcapture : runCapture s f (leadAdEvent env job fieldData) with
  | error err => simp [hcapture] at h
  | ok result =>
    simp only [hcapture] at h
    obtain ⟨rfl,_⟩ := Prod.mk.inj (Except.ok.inj h)
    exact stored_raw (e:=leadAdEvent env job fieldData) hf hslot hcapture

end Answers

def answersEnv (order : List String) (fieldData : List FieldItem) : LeadAdEnv where
  connections := [⟨7,1,.facebook,.active,some [0],none,[("page_id","p1")]⟩]
  aes := ⟨fun _ => .ok (List.replicate 32 0),fun _ _ plain => plain,fun _ _ blob => .ok blob,
    fun _ => [],fun _ => .ok [("page_access_token",.str "token")]⟩
  encryptionKey := "key"
  fetchLeadFields := fun _ _ => .ok fieldData
  locationOrder := order

def answersJob (leadgenId : String) : LeadAdPayload :=
  ⟨1,7,leadgenId,some [("object",.str "page")]⟩

def bobAnswers : List FieldItem :=
  [⟨some (.str "full_name"),some [.str "Bob Ray"]⟩,⟨some (.str "first_name"),some [.str "Bob"]⟩]

theorem bobAnswers_repeated :
    letI := Interpreter.ascii id
    AsideRepeated locationFields bobAnswers (some [("object",.str "page")]) := by
  let := Interpreter.ascii id
  have hkept : Kept bobAnswers "full_name" "Bob Ray" :=
    ⟨by decide +kernel,by simp [SetAside]⟩
  intro item hitem value hvalue _ _
  refine .inl ⟨_,_,by decide,hkept,?_⟩
  have hall : ∀ item ∈ bobAnswers, ∀ value ∈ item.values.getD [],
      Occurs (valueText value) "Bob Ray" := by decide +kernel
  exact hall item hitem value hvalue

theorem repeated_name_not_lost :
    letI := Interpreter.ascii id
    let env := answersEnv locationFields bobAnswers
    let job := answersJob "l.1"
    Retained bobAnswers (leadAdEvent env job bobAnswers) ∧
      ∃ s' received, runLeadAdCapture .empty (.nth 1) env job = .ok (s',received) ∧
        ∃ r ∈ s'.logs, r.platformEventId = leadAdEventId "l.1" ∧
          r.rawEventJson = .payload (leadAdEvent env job bobAnswers).rawEventJson := by
  let := Interpreter.ascii id
  intro env job
  have hkept := no_answer_lost_iff env job bobAnswers (.refl _)
  obtain ⟨⟨s',received⟩,hrun⟩ :=
    Fallible.isOk_iff.mp (show (runLeadAdCapture .empty (.nth 1) env job).isOk by decide +kernel)
  exact ⟨hkept.1.mpr bobAnswers_repeated,s',received,hrun,
    hkept.2 (by constructor <;> simp [Store.empty]) rfl (by simp [SlotTaken,Store.empty]) hrun⟩

def productAnswers : List FieldItem :=
  [⟨some (.str "full_name"),some [.str "Bob Ray"]⟩,
    ⟨some (.str "interested_products_0"),some [.str "Product A",.str "Product C"]⟩]

/-- The second selection is nowhere. -/
theorem second_selection_lost :
    letI := Interpreter.ascii id
    let env := answersEnv locationFields productAnswers
    ¬ Retained productAnswers (leadAdEvent env (answersJob "l.1") productAnswers) := by
  decide +kernel

end LeadAds
end LeadEngine
