import LeadEngine.Webhook

/-! What a webhook payload holds: the accounts, the events with the account of their own
entry, and the event in first place, which is the one the router and the job read. -/
namespace LeadEngine
namespace Webhook

open Fallible Json Interpreter Channels Normaliser

def kind (payload : Json) : Option ObjectType :=
  (payload.get? "object").bind ObjectType.ofValue

def values (payload : Json) : List Json :=
  (payload.elements "entry").flatMap fun entry =>
    (entry.elements "changes").filterMap (get? "value")

def phoneNumberId (value : Json) : Option Json :=
  (value.get? "metadata").bind (get? "phone_number_id")

/-- The account ids of a payload, one for each change of WhatsApp and one for each entry
of a page or an Instagram account. -/
def accounts (payload : Json) : List Json :=
  match kind payload with
  | none => []
  | some .whatsappBusinessAccount => (values payload).filterMap phoneNumberId
  | some _ => (payload.elements "entry").filterMap (get? "id")

def activeConnections (table : List ChannelConnection) (payload : Json) :
    Json → List ChannelConnection
  | .str id =>
    if kind payload = some .whatsappBusinessAccount then
      table.filter fun c => MatchesPhoneNumberId id c
    else table.filter fun c => MatchesAccountId id c
  | _ => []

/-- The tenant that an account of the payload belongs to. -/
def owner (table : List ChannelConnection) (payload : Json) (account : Option Json) :
    Option UUID :=
  (account.bind fun a => (activeConnections table payload a).head?).map
    ChannelConnection.tenantId

/-- An event of a payload: the account of its own entry and its platform event id. -/
structure Item where
  account : Option Json
  eventId : Option String

def messageItem (value message : Json) : Item :=
  ⟨phoneNumberId value,(message.get? "id").bind text?⟩

def ObjectType.mark : ObjectType → String
  | .instagram => "ig-"
  | _ => "fb-"

def IsLeadgen (change : Json) : Prop := (change.get? "field").bind text? = some "leadgen"

instance : DecidablePred IsLeadgen := fun _ => by unfold IsLeadgen; infer_instance

section Items

variable [Interpreter]

def dmId (mark : String) (messaging : Json) : Option String :=
  match ((messaging.get? "message").getD (.obj [])).get? "mid" with
  | some mid => mid.text?
  | none =>
      ((messaging.get? "sender").bind (get? "id")).map fun sender => mark ++ Interpreter.str sender

def leadgenId (change : Json) : Option String :=
  ((change.get? "value").bind (get? "leadgen_id")).map fun id => leadAdEventId (Interpreter.str id)

def entryItems (object : ObjectType) (entry : Json) : List Item :=
  (((entry.elements "messaging").filter fun m => (m.get? "message").isSome).map fun m =>
    ⟨entry.get? "id",dmId object.mark m⟩) ++
  (((entry.elements "changes").filter fun c => IsLeadgen c).map fun c =>
    ⟨entry.get? "id",leadgenId c⟩)

def items (payload : Json) : List Item :=
  match kind payload with
  | none => []
  | some .whatsappBusinessAccount =>
    (values payload).flatMap fun value => (value.elements "messages").map (messageItem value)
  | some object => (payload.elements "entry").flatMap (entryItems object)

/-- Every field that the adapter reads of a message has the type it needs. -/
def legibleMessage (value message : Json) : Bool :=
  ((message.get? "from").bind text?).isSome &&
    (contactName ((value.get? "contacts").getD (.arr []))).isOk && (messageText message).isOk

def legibleDm (messaging : Json) : Bool :=
  let message := (messaging.get? "message").getD (.obj [])
  ((messaging.get? "sender").bind (get? "id")).isSome && (fields? message).isSome &&
    ((message.get? "text").getD .null).asTextOrNone.isOk

def firstMessageId (payload : Json) : Option String :=
  ((((payload.elements "entry").head?.bind fun entry => (entry.elements "changes").head?).bind
    (get? "value")).bind fun value =>
      ((value.elements "messages").head?.filter (legibleMessage value)).bind fun message =>
        (message.get? "id").bind text?)

def firstEntryId (object : ObjectType) (payload : Json) : Option String :=
  (payload.elements "entry").head?.bind fun entry =>
    match (entry.elements "changes").head?.filter fun c => IsLeadgen c with
    | some change => leadgenId change
    | none => ((entry.elements "messaging").head?.filter legibleDm).bind (dmId object.mark)

def firstId (payload : Json) : Option String :=
  match kind payload with
  | none => none
  | some .whatsappBusinessAccount => firstMessageId payload
  | some object => firstEntryId object payload

end Items

theorem kind_of_objectType {payload : Json} {object : ObjectType}
    (h : objectType payload = .ok (some object)) : kind payload = some object := by
  cases payload with
  | obj kvs =>
    rw [kind]
    cases hget : (Json.obj kvs).get? "object" with
    | none => simp [objectType,dictGet,Except.map,hget,ObjectType.ofValue] at h
    | some v => simpa [objectType,dictGet,Except.map,hget] using h
  | _ => simp [objectType,dictGet,Except.map] at h

theorem read_valuePath {payload value : Json} : payload.read valuePath = .ok value ↔
    ∃ entry change, (payload.elements "entry").head? = some entry ∧
      (entry.elements "changes").head? = some change ∧ change.get? "value" = some value := by
  simp only [valuePath,read_head]
  simp only [read_key,read_nil,Except.ok.injEq,exists_eq_right]
  constructor
  · rintro ⟨entry,hentry,change,hchange,hvalue⟩
    exact ⟨entry,change,hentry,hchange,hvalue⟩
  · rintro ⟨entry,change,hentry,hchange,hvalue⟩
    exact ⟨entry,hentry,change,hchange,hvalue⟩

section Reading

variable {payload : Json} {t : UUID} {c : Option UUID} {id : String}

theorem firstMessageId_eq_some : firstMessageId payload = some id ↔
    ∃ value message, payload.read valuePath = .ok value ∧
      (value.elements "messages").head? = some message ∧ legibleMessage value message = true ∧
      message.get? "id" = some (.str id) := by
  simp only [firstMessageId,Option.bind_eq_some_iff,Option.filter_eq_some_iff,text?_eq_some,
    read_valuePath]
  constructor
  · rintro ⟨value,⟨change,⟨entry,hentry,hchange⟩,hvalue⟩,message,⟨hmessage,hlegible⟩,_,hid,rfl⟩
    exact ⟨value,message,⟨entry,change,hentry,hchange,hvalue⟩,hmessage,hlegible,hid⟩
  · rintro ⟨value,message,⟨entry,change,hentry,hchange,hvalue⟩,hmessage,hlegible,hid⟩
    exact ⟨value,⟨change,⟨entry,hentry,hchange⟩,hvalue⟩,message,⟨hmessage,hlegible⟩,_,hid,rfl⟩

theorem legibleMessage_iff {value message : Json} : legibleMessage value message = true ↔
    (∃ phone, message.get? "from" = some (.str phone)) ∧
      (∃ name, contactName ((value.get? "contacts").getD (.arr [])) = .ok name) ∧
      ∃ text, messageText message = .ok text := by
  simp only [legibleMessage,Bool.and_eq_true,isOk_iff,Option.isSome_iff_exists,and_assoc,
    Option.bind_eq_some_iff,text?_eq_some]
  simp

theorem normaliseWhatsappMessage_id :
    (∃ e, normaliseWhatsappMessage payload t c = .ok e ∧ e.platformEventId = id) ↔
      firstMessageId payload = some id := by
  rw [firstMessageId_eq_some]
  constructor
  · rintro ⟨e,he,rfl⟩
    simp only [normaliseWhatsappMessage,bind_eq_ok,map_eq_ok,dictGet_eq_ok,read_single,
      asText_eq_ok] at he
    obtain ⟨value,hvalue,message,hmessage,contacts,⟨_,rfl⟩,_,hid,phone,⟨raw,hfrom,hphone⟩,name,
      hname,text,htext,pid,rfl,rfl⟩ := he
    have hhead := head_of_read_first hmessage hid
    refine ⟨value,message,hvalue,hhead,legibleMessage_iff.mpr ⟨?_,⟨name,hname⟩,text,htext⟩,hid⟩
    cases raw with
    | str s => exact ⟨s,hfrom⟩
    | _ => simp [senderPhone] at hphone
  · rintro ⟨value,message,hvalue,hhead,hlegible,hid⟩
    obtain ⟨⟨sender,hfrom⟩,⟨name,hname⟩,text,htext⟩ := legibleMessage_iff.mp hlegible
    have hcontacts : value.dictGet "contacts" (.arr []) =
        .ok ((value.get? "contacts").getD (.arr [])) :=
      dictGet_eq_ok.mpr ⟨obj_of_read (read_first_of_head hhead),rfl⟩
    simp only [normaliseWhatsappMessage,hvalue,read_first_of_head hhead,hcontacts,
      read_single.mpr hid,read_single.mpr hfrom,hname,htext,Except.bind,senderPhone,
      asText_eq_ok.mpr rfl,Except.map]
    exact ⟨_,rfl,rfl⟩

theorem legibleDm_iff {messaging : Json} : legibleDm messaging = true ↔
    (∃ sender, messaging.read [.key "sender",.key "id"] = .ok sender) ∧
      (∃ kvs, (messaging.get? "message").getD (.obj []) = .obj kvs) ∧
      ∃ text, ((((messaging.get? "message").getD (.obj [])).get? "text").getD .null).asTextOrNone =
        .ok text := by
  simp only [legibleDm,Bool.and_eq_true,isOk_iff,fields?_eq_some,Option.isSome_iff_exists,
    Option.bind_eq_some_iff,and_assoc,read_key,read_nil,Except.ok.injEq,exists_eq_right]

variable [Interpreter]

/-- The adapters of direct messages read the messaging event in first place. -/
theorem normaliseDm_id {mark : String} {source : LeadSource} :
    (∃ e, normaliseDm mark source payload t c = .ok e ∧ e.platformEventId = id) ↔
      ∃ entry messaging, (payload.elements "entry").head? = some entry ∧
        (entry.elements "messaging").head? = some messaging ∧ legibleDm messaging = true ∧
        dmId mark messaging = some id := by
  constructor
  · rintro ⟨e,he,rfl⟩
    simp only [normaliseDm,bind_eq_ok,map_eq_ok,dictGet_eq_ok,messagingPath,read_head,
      asText_eq_ok] at he
    obtain ⟨messaging,⟨entry,hentry,hfirst⟩,sender,hsender,_,⟨_,rfl⟩,_,⟨hobj,hid⟩,text,
      ⟨_,⟨_,rfl⟩,htext⟩,pid,rfl,rfl⟩ := he
    obtain ⟨from_,hfrom,hsid⟩ := read_key.mp hsender
    have hhead := head_of_read_first hfirst hfrom
    refine ⟨entry,messaging,hentry,hhead,legibleDm_iff.mpr ⟨⟨sender,hsender⟩,hobj,text,htext⟩,?_⟩
    unfold dmId
    split
    · rename_i mid hmid
      obtain rfl : mid = .str pid := by simpa [hmid] using hid
      rfl
    · rename_i hmid
      have hpid : mark ++ Interpreter.str sender = pid := by simpa [hmid] using hid
      simp [hfrom,read_single.mp hsid,hpid]
  · rintro ⟨entry,messaging,hentry,hhead,hlegible,hid⟩
    obtain ⟨⟨sender,hsender⟩,⟨kvs,hobj⟩,text,htext⟩ := legibleDm_iff.mp hlegible
    have hread : payload.read messagingPath = .ok messaging := by
      rw [messagingPath,read_head]
      exact ⟨entry,hentry,read_first_of_head hhead⟩
    have hmessage : messaging.dictGet "message" (.obj []) = .ok (.obj kvs) :=
      dictGet_eq_ok.mpr ⟨obj_of_read hsender,hobj⟩
    have hmid : ((Json.obj kvs).get? "mid").getD (.str (mark ++ Interpreter.str sender)) =
        .str id := by
      unfold dmId at hid
      rw [hobj] at hid
      split at hid
      · rename_i mid hmid
        simpa [hmid] using hid
      · rename_i hmid
        obtain ⟨from_,hfrom,hsid⟩ := read_key.mp hsender
        simpa [hmid,hfrom,read_single.mp hsid] using hid
    rw [hobj] at htext
    simp only [normaliseDm,hread,hsender,hmessage,dictGet_obj,hmid,htext,Except.bind,
      asText_eq_ok.mpr rfl,Except.map]
    exact ⟨_,rfl,rfl⟩

theorem normaliseDm_fields {mark : String} {source : LeadSource} {e : NormalisedChannelEvent}
    (h : normaliseDm mark source payload t c = .ok e) :
    e.tenantId = t ∧ e.rawEventJson = payload := by
  simp only [normaliseDm,bind_eq_ok,map_eq_ok] at h
  obtain ⟨_,_,_,_,_,_,_,_,_,_,_,_,rfl⟩ := h
  exact ⟨rfl,rfl⟩

omit [Interpreter] in
theorem normaliseWhatsappMessage_fields {e : NormalisedChannelEvent}
    (h : normaliseWhatsappMessage payload t c = .ok e) :
    e.tenantId = t ∧ e.rawEventJson = payload := by
  simp only [normaliseWhatsappMessage,bind_eq_ok,map_eq_ok] at h
  obtain ⟨_,_,_,_,_,_,_,_,_,_,_,_,_,_,_,_,rfl⟩ := h
  exact ⟨rfl,rfl⟩

theorem readEvent_fields {e : NormalisedChannelEvent}
    (h : readEvent payload t c = .ok (some e)) : e.tenantId = t ∧ e.rawEventJson = payload := by
  obtain ⟨object,_,h⟩ := bind_eq_ok.mp h
  rcases object with _ | _ | _ | _
  · cases h
  · obtain ⟨found,_,h⟩ := bind_eq_ok.mp h
    cases found with
    | false => cases h
    | true =>
      obtain ⟨_,hread,he⟩ := map_eq_ok.mp h
      exact Option.some.inj he ▸ normaliseWhatsappMessage_fields hread
  all_goals
    obtain ⟨_,h,he⟩ := map_eq_ok.mp h
    exact Option.some.inj he ▸ normaliseDm_fields h

end Reading

end Webhook
end LeadEngine
