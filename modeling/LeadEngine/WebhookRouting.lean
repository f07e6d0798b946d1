import LeadEngine.WebhookPayload

/-! The router and the job agree on the event in first place: what an acknowledged payload
is enqueued as, and the one event its job is about. -/
namespace LeadEngine
namespace Webhook

open Fallible Json Interpreter Channels Normaliser

section Routing

variable [Interpreter] {env : Endpoint} {payload : Json} {job : Job}

/-- The ways a payload is acknowledged with a job for the connection of its first account. -/
inductive Routed (env : Endpoint) (payload : Json) : Job → Prop
  | whatsapp {account : Json} {c : ChannelConnection}
      (hobject : objectType payload = .ok (some .whatsappBusinessAccount))
      (haccount : payload.read phoneNumberIdPath = .ok account)
      (hconnection : whatsappConnection env.connections account = .ok (some c)) :
      Routed env payload (.runLeadCapture c.tenantId c.id payload)
  | dm {object : ObjectType} {account : Json} {c : ChannelConnection}
      (hobject : objectType payload = .ok (some object))
      (hmessages : object ≠ .whatsappBusinessAccount)
      (haccount : payload.read accountIdPath = .ok account)
      (hfield : payload.read changeFieldPath ≠ .ok (.str "leadgen"))
      (hconnection : accountConnection env.connections account = .ok (some c)) :
      Routed env payload (.runLeadCapture c.tenantId c.id payload)
  | leadAd {object : ObjectType} {account leadgenId : Json} {c : ChannelConnection}
      (hobject : objectType payload = .ok (some object))
      (hmessages : object ≠ .whatsappBusinessAccount)
      (haccount : payload.read accountIdPath = .ok account)
      (hfield : payload.read changeFieldPath = .ok (.str "leadgen"))
      (hleadgen : payload.read leadgenIdPath = .ok leadgenId)
      (hconnection : accountConnection env.connections account = .ok (some c)) :
      Routed env payload (.runLeadAdCapture
        ⟨c.tenantId,c.id,Interpreter.str leadgenId,fields? payload⟩)

omit [Interpreter] in
theorem attempt_eq_some {x : Except ReadError Json} {v : Json} :
    attempt x = .ok (some v) ↔ x = .ok v := by
  rcases x with err | w
  · cases err <;> simp [attempt]
  · simp [attempt]

omit [Interpreter] in
theorem enqueue_received {job' : Job} (h : enqueue env job = .ok (.received job')) :
    job = job' := by
  unfold enqueue at h
  split_ifs at h
  simpa using h

omit [Interpreter] in
theorem unroutable_ne {source : LeadSource} {x : Except ReadError Json} :
    unroutable source x ≠ .ok (.received job) := by
  unfold unroutable
  split <;> simp

omit [Interpreter] in
theorem routeWhatsapp_received (h : routeWhatsapp env payload = .ok (.received job)) :
    ∃ account c, payload.read phoneNumberIdPath = .ok account ∧
      whatsappConnection env.connections account = .ok (some c) ∧
      .runLeadCapture c.tenantId c.id payload = job := by
  unfold routeWhatsapp at h
  split at h
  · cases h
  · cases h
  · rename_i account haccount
    split at h
    · cases h
    · exact absurd h unroutable_ne
    · rename_i c hconnection
      exact ⟨account,c,attempt_eq_some.mp haccount,hconnection,enqueue_received h⟩

theorem routeLeadAd_received {pageId : Json}
    (h : routeLeadAd env payload pageId = .ok (.received job)) :
    ∃ leadgenId c, payload.read leadgenIdPath = .ok leadgenId ∧
      accountConnection env.connections pageId = .ok (some c) ∧
      .runLeadAdCapture ⟨c.tenantId,c.id,Interpreter.str leadgenId,fields? payload⟩ = job := by
  unfold routeLeadAd at h
  split at h
  · cases h
  · cases h
  · rename_i leadgenId hleadgen
    split at h
    · cases h
    · simp at h
    · rename_i c hconnection
      exact ⟨leadgenId,c,attempt_eq_some.mp hleadgen,hconnection,enqueue_received h⟩

theorem routeFacebookInstagram_received {object : ObjectType}
    (hobject : objectType payload = .ok (some object)) (hne : object ≠ .whatsappBusinessAccount)
    (h : routeFacebookInstagram env object payload = .ok (.received job)) :
    Routed env payload job := by
  unfold routeFacebookInstagram at h
  split at h
  · cases h
  · cases h
  · rename_i account haccount
    replace haccount := attempt_eq_some.mp haccount
    split at h
    · cases h
    · rename_i changeField hchange
      by_cases hleadgen : changeField.bind text? = some "leadgen"
      · rw [if_pos hleadgen] at h
        obtain ⟨field,rfl,hfield⟩ := Option.bind_eq_some_iff.mp hleadgen
        obtain rfl := text?_eq_some.mp hfield
        obtain ⟨leadgenId,c,hid,hconnection,rfl⟩ := routeLeadAd_received h
        exact .leadAd hobject hne haccount (attempt_eq_some.mp hchange) hid hconnection
      · rw [if_neg hleadgen] at h
        split at h
        · cases h
        · exact absurd h unroutable_ne
        · rename_i c hconnection
          obtain rfl := enqueue_received h
          refine .dm hobject hne haccount (fun hfield => hleadgen ?_) hconnection
          rw [attempt_eq_some.mpr hfield] at hchange
          simp [← Except.ok.inj hchange]

theorem routed_of_received (h : routePayload env payload = .ok (.received job)) :
    Routed env payload job := by
  unfold routePayload at h
  split at h
  · cases h
  · cases h
  · rename_i hobject
    obtain ⟨account,c,haccount,hconnection,rfl⟩ := routeWhatsapp_received h
    exact .whatsapp hobject haccount hconnection
  · rename_i object hne hobject
    exact routeFacebookInstagram_received hobject hne h

theorem routed_of_webhook {body : Bytes} {signature : String}
    (hload : env.loads body = .ok payload)
    (h : receiveWebhook env body signature = .ok (.received job)) : Routed env payload job := by
  unfold receiveWebhook at h
  split at h
  · cases h
  · cases h
  · simp only [hload] at h
    exact routed_of_received h

def Job.event : Job → Option NormalisedChannelEvent
  | .runLeadCapture tenantId channelConnectionId rawPayload =>
    (readEvent rawPayload tenantId (some channelConnectionId)).toOption.join
  | .runLeadAdCapture _ => none

/-- The event a job is about, with the tenant it runs for: the message it hands to the
pipeline, or the lead form it was enqueued for. -/
def Job.takes : Job → Option (String × UUID)
  | .runLeadAdCapture job => some (leadAdEventId job.leadgenId,job.tenantId)
  | job => job.event.map fun e => (e.platformEventId,e.tenantId)

omit [Interpreter] in
theorem read_changeFieldPath {v : Json} : payload.read changeFieldPath = .ok v ↔
    ∃ entry change, (payload.elements "entry").head? = some entry ∧
      (entry.elements "changes").head? = some change ∧ change.get? "field" = some v := by
  simp only [changeFieldPath,read_head]
  simp only [read_single]
  constructor
  · rintro ⟨entry,hentry,change,hchange,hfield⟩
    exact ⟨entry,change,hentry,hchange,hfield⟩
  · rintro ⟨entry,change,hentry,hchange,hfield⟩
    exact ⟨entry,hentry,change,hchange,hfield⟩

/-- A WhatsApp job hands over the message in first place, and else nothing. -/
theorem readEvent_whatsapp {t : UUID} {c : Option UUID} {id : String} {account : Json}
    (hobject : objectType payload = .ok (some .whatsappBusinessAccount))
    (haccount : payload.read phoneNumberIdPath = .ok account) :
    (∃ e, readEvent payload t c = .ok (some e) ∧ e.platformEventId = id) ↔
      firstId payload = some id := by
  have hfirst : firstId payload = firstMessageId payload := by
    simp [firstId,kind_of_objectType hobject]
  rw [hfirst]
  rw [phoneNumberIdPath,read_append] at haccount
  obtain ⟨value,hvalue,haccount⟩ := bind_eq_ok.mp haccount
  obtain ⟨kvs,rfl⟩ := obj_of_read haccount
  cases hmessages : (Json.obj kvs).get? "messages" with
  | none =>
    have hread : readEvent payload t c = .ok none := by
      simp [readEvent,hobject,hvalue,contains,hmessages,Except.bind]
    have hno : firstMessageId payload ≠ some id := by
      intro h
      obtain ⟨_,_,hvalue',hhead,_⟩ := firstMessageId_eq_some.mp h
      rw [hvalue,Except.ok.injEq] at hvalue'
      subst hvalue'
      simp [elements,hmessages] at hhead
    simp [hread,hno]
  | some messages =>
    have hread : readEvent payload t c = (normaliseWhatsappMessage payload t c).map some := by
      simp [readEvent,hobject,hvalue,contains,hmessages,Except.bind]
    rw [← normaliseWhatsappMessage_id (t:=t) (c:=c),hread]
    simp [map_eq_ok]

theorem firstId_entry {object : ObjectType} (hobject : objectType payload = .ok (some object))
    (hmessages : object ≠ .whatsappBusinessAccount) :
    firstId payload = firstEntryId object payload := by
  cases object with
  | whatsappBusinessAccount => exact absurd rfl hmessages
  | page | instagram => simp [firstId,kind_of_objectType hobject]

theorem firstEntryId_dm {object : ObjectType}
    (hfield : payload.read changeFieldPath ≠ .ok (.str "leadgen")) :
    firstEntryId object payload = (payload.elements "entry").head?.bind fun entry =>
      ((entry.elements "messaging").head?.filter legibleDm).bind (dmId object.mark) := by
  rw [firstEntryId]
  cases hentry : (payload.elements "entry").head? with
  | none => rfl
  | some entry =>
    have hchange : ((entry.elements "changes").head?.filter fun c => IsLeadgen c) = none := by
      rw [Option.filter_eq_none_iff]
      intro change hchange hleadgen
      obtain ⟨field,hget,htext⟩ := Option.bind_eq_some_iff.mp (of_decide_eq_true hleadgen)
      obtain rfl := text?_eq_some.mp htext
      exact hfield (read_changeFieldPath.mpr ⟨entry,change,hentry,hchange,hget⟩)
    simp [hchange]

theorem readEvent_dm {object : ObjectType} {t : UUID} {c : Option UUID} {id : String}
    (hobject : objectType payload = .ok (some object))
    (hmessages : object ≠ .whatsappBusinessAccount)
    (hfield : payload.read changeFieldPath ≠ .ok (.str "leadgen")) :
    (∃ e, readEvent payload t c = .ok (some e) ∧ e.platformEventId = id) ↔
      firstId payload = some id := by
  have hread : ∃ source, readEvent payload t c =
      (normaliseDm object.mark source payload t c).map some := by
    cases object with
    | whatsappBusinessAccount => exact absurd rfl hmessages
    | page => exact ⟨.facebook,by simp [readEvent,hobject,Except.bind]; rfl⟩
    | instagram => exact ⟨.instagram,by simp [readEvent,hobject,Except.bind]; rfl⟩
  obtain ⟨source,hread⟩ := hread
  rw [hread,firstId_entry hobject hmessages,firstEntryId_dm hfield]
  simp only [map_eq_ok,Option.some.injEq,exists_eq_right]
  rw [normaliseDm_id]
  simp [Option.bind_eq_some_iff,Option.filter_eq_some_iff,and_assoc]

theorem firstId_leadAd {object : ObjectType} {formId : Json}
    (hobject : objectType payload = .ok (some object))
    (hmessages : object ≠ .whatsappBusinessAccount)
    (hfield : payload.read changeFieldPath = .ok (.str "leadgen"))
    (hleadgen : payload.read leadgenIdPath = .ok formId) :
    firstId payload = some (leadAdEventId (Interpreter.str formId)) := by
  have hfirst := firstId_entry hobject hmessages
  rw [leadgenIdPath,read_append] at hleadgen
  obtain ⟨value,hvalue,hid⟩ := bind_eq_ok.mp hleadgen
  obtain ⟨entry,change,hentry,hchange,hget⟩ := read_valuePath.mp hvalue
  obtain ⟨entry',change',hentry',hchange',hget'⟩ := read_changeFieldPath.mp hfield
  obtain rfl : entry = entry' := by simpa [hentry] using hentry'
  obtain rfl : change = change' := by simpa [hchange] using hchange'
  have hleadgen : ((entry.elements "changes").head?.filter fun c => IsLeadgen c) =
      some change := by simp [hchange,IsLeadgen,hget',Option.filter,text?]
  simp [hfirst,firstEntryId,hentry,hleadgen,leadgenId,hget,read_single.mp hid]

def firstConnection (env : Endpoint) (payload account : Json) :
    Except HttpError (Option ChannelConnection) :=
  if kind payload = some .whatsappBusinessAccount then whatsappConnection env.connections account
  else accountConnection env.connections account

theorem takes_runLeadCapture {t c : UUID} (h : ∀ id, (∃ e, readEvent payload t (some c) =
    .ok (some e) ∧ e.platformEventId = id) ↔ firstId payload = some id) :
    (Job.runLeadCapture t c payload).takes = (firstId payload).map (·,t) := by
  apply Option.ext
  rintro ⟨id,t'⟩
  simp only [Job.takes,Job.event,Option.map_eq_some_iff,toOption_join_eq_some,← h,Prod.mk.injEq]
  constructor
  · rintro ⟨e,he,rfl,rfl⟩
    exact ⟨_,⟨e,he,rfl⟩,rfl,(readEvent_fields he).1.symm⟩
  · rintro ⟨_,⟨e,he,rfl⟩,rfl,rfl⟩
    exact ⟨e,he,rfl,(readEvent_fields he).1⟩

omit [Interpreter] in
theorem mem_accounts_of_phoneNumberId {account : Json}
    (hobject : objectType payload = .ok (some .whatsappBusinessAccount))
    (haccount : payload.read phoneNumberIdPath = .ok account) : account ∈ accounts payload := by
  rw [phoneNumberIdPath,read_append] at haccount
  obtain ⟨value,hvalue,hid⟩ := bind_eq_ok.mp haccount
  obtain ⟨entry,change,hentry,hchange,hget⟩ := read_valuePath.mp hvalue
  obtain ⟨metadata,hmeta,hid⟩ := read_key.mp hid
  have hmem : value ∈ values payload :=
    List.mem_flatMap.mpr ⟨entry,List.mem_of_mem_head? hentry,
      List.mem_filterMap.mpr ⟨change,List.mem_of_mem_head? hchange,hget⟩⟩
  rw [accounts,kind_of_objectType hobject]
  exact List.mem_filterMap.mpr ⟨value,hmem,by simp [phoneNumberId,hmeta,read_single.mp hid]⟩

omit [Interpreter] in
theorem mem_accounts_of_accountId {object : ObjectType} {account : Json}
    (hobject : objectType payload = .ok (some object))
    (hmessages : object ≠ .whatsappBusinessAccount)
    (haccount : payload.read accountIdPath = .ok account) : account ∈ accounts payload := by
  simp only [accountIdPath,read_head,read_single] at haccount
  obtain ⟨entry,hhead,hid⟩ := haccount
  have hmem : account ∈ (payload.elements "entry").filterMap (get? "id") :=
    List.mem_filterMap.mpr ⟨entry,List.mem_of_mem_head? hhead,hid⟩
  rw [accounts,kind_of_objectType hobject]
  cases object with
  | whatsappBusinessAccount => exact absurd rfl hmessages
  | page | instagram => exact hmem

/-- A job is about the event in first place, for the tenant of the first account. -/
theorem Routed.takes_eq (h : Routed env payload job) : ∃ account ∈ accounts payload, ∃ c,
    firstConnection env payload account = .ok (some c) ∧
      job.takes = (firstId payload).map (·,c.tenantId) := by
  cases h with
  | @whatsapp account c hobject haccount hconnection =>
    refine ⟨account,mem_accounts_of_phoneNumberId hobject haccount,c,?_,
      takes_runLeadCapture fun id => readEvent_whatsapp hobject haccount⟩
    rw [firstConnection,if_pos (kind_of_objectType hobject)]
    exact hconnection
  | @dm object account c hobject hne haccount hfield hconnection =>
    refine ⟨account,mem_accounts_of_accountId hobject hne haccount,c,?_,
      takes_runLeadCapture fun id => readEvent_dm hobject hne hfield⟩
    rw [firstConnection,if_neg (by simpa [kind_of_objectType hobject] using hne)]
    exact hconnection
  | @leadAd object account formId c hobject hne haccount hfield hleadgen hconnection =>
    refine ⟨account,mem_accounts_of_accountId hobject hne haccount,c,?_,?_⟩
    · rw [firstConnection,if_neg (by simpa [kind_of_objectType hobject] using hne)]
      exact hconnection
    · rw [firstId_leadAd hobject hne hfield hleadgen]
      rfl

end Routing

end Webhook
end LeadEngine
