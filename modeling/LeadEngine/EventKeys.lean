import LeadEngine.WebhookAudit

/-! The idempotency keys of the webhook's events: which events share one. Meta's own ids keep
events apart; a messaging event without a message, such as a postback or a read receipt, is named
after its sender. -/
namespace LeadEngine
namespace Webhook

open Fallible TransitionSystem Json Interpreter Channels Normaliser Repository History

inductive MetaId
  | wamid (id : String)
  | mid (id : String)
  | leadgen (id : String)
  deriving DecidableEq

def firstMessaging (payload : Json) : Option Json :=
  (payload.elements "entry").head?.bind fun entry => (entry.elements "messaging").head?

def messageMid (messaging : Json) : Option Json :=
  ((messaging.get? "message").getD (.obj [])).get? "mid"

/-- Meta's id of the event of a job; a messaging event without a message has none. -/
def Job.metaId : Job → Option MetaId
  | .runLeadCapture _ _ payload =>
    match kind payload with
    | none => none
    | some .whatsappBusinessAccount => (firstMessageId payload).map .wamid
    | some _ => (((firstMessaging payload).bind messageMid).bind text?).map .mid
  | .runLeadAdCapture form => some (.leadgen form.leadgenId)

/-- What is assumed of Meta's ids in the jobs it has sent, where `Same` relates the deliveries of
one platform event: no two events share an id, a message id of WhatsApp is none of Messenger, and
neither begins like a key that is made here. -/
structure MetaIds (Sent : Job → Prop) (Same : Job → Job → Prop) : Prop where
  unique : ∀ job job', Sent job → Sent job' → ∀ id, job.metaId = some id →
    job'.metaId = some id → Same job job'
  apart : ∀ job job', Sent job → Sent job' → ∀ id, job.metaId = some (.wamid id) →
    job'.metaId ≠ some (.mid id)
  unmarked : ∀ job, Sent job → ∀ id, job.metaId = some (.wamid id) ∨ job.metaId = some (.mid id) →
    ∀ mark ∈ ["ig-","fb-","leadgen-"], ¬ mark.toList <+: id.toList

section Keys

variable [Interpreter]

def Job.unnamed : Job → Option (ObjectType × String)
  | .runLeadCapture _ _ payload =>
    match kind payload with
    | none | some .whatsappBusinessAccount => none
    | some object =>
      ((firstMessaging payload).filter fun m => (messageMid m).isNone).bind fun messaging =>
        ((messaging.get? "sender").bind (get? "id")).map fun sender =>
          (object,Interpreter.str sender)
  | .runLeadAdCapture _ => none

inductive KeyOf (job : Job) : String → Prop
  | wamid {id : String} (hid : job.metaId = some (.wamid id)) (hnamed : job.unnamed = none) :
      KeyOf job id
  | mid {id : String} (hid : job.metaId = some (.mid id)) (hnamed : job.unnamed = none) :
      KeyOf job id
  | leadgen {id : String} (hid : job.metaId = some (.leadgen id)) (hnamed : job.unnamed = none) :
      KeyOf job (leadAdEventId id)
  | sender {object : ObjectType} {sender : String} (hid : job.metaId = none)
      (hobject : object ≠ .whatsappBusinessAccount)
      (hunnamed : job.unnamed = some (object,sender)) : KeyOf job (object.mark ++ sender)

variable {env : Endpoint} {payload : Json} {job : Job}

theorem dmId_named {mark : String} {messaging mid : Json} (h : messageMid messaging = some mid) :
    dmId mark messaging = mid.text? := by
  rw [messageMid] at h
  rw [dmId,h]

theorem dmId_unnamed {mark : String} {messaging : Json} (h : messageMid messaging = none) :
    dmId mark messaging = ((messaging.get? "sender").bind (get? "id")).map
      fun sender => mark ++ Interpreter.str sender := by
  rw [messageMid] at h
  rw [dmId,h]

theorem keyOf_dm {object : ObjectType} {key : String} (t c : UUID)
    (hobject : objectType payload = .ok (some object))
    (hmessages : object ≠ .whatsappBusinessAccount)
    (hfield : payload.read changeFieldPath ≠ .ok (.str "leadgen"))
    (hkey : firstId payload = some key) : KeyOf (.runLeadCapture t c payload) key := by
  rw [firstId_entry hobject hmessages,firstEntryId_dm hfield] at hkey
  obtain ⟨entry,hentry,hkey⟩ := Option.bind_eq_some_iff.mp hkey
  obtain ⟨messaging,hmessaging,hkey⟩ := Option.bind_eq_some_iff.mp hkey
  have hfirst : firstMessaging payload = some messaging := by
    rw [firstMessaging,hentry]
    exact (Option.filter_eq_some_iff.mp hmessaging).1
  have hkind := kind_of_objectType hobject
  cases hmid : messageMid messaging with
  | some mid =>
    have hid : (Job.runLeadCapture t c payload).metaId = some (.mid key) := by
      have htext : mid.text? = some key := (dmId_named hmid).symm.trans hkey
      cases object with
      | whatsappBusinessAccount => exact absurd rfl hmessages
      | page | instagram => simp [Job.metaId,hkind,hfirst,hmid,htext]
    refine .mid hid ?_
    cases object with
    | whatsappBusinessAccount => exact absurd rfl hmessages
    | page | instagram => simp [Job.unnamed,hkind,hfirst,hmid,Option.filter]
  | none =>
    rw [dmId_unnamed hmid] at hkey
    obtain ⟨sender,hsender,rfl⟩ := Option.map_eq_some_iff.mp hkey
    obtain ⟨person,hperson,hid⟩ := Option.bind_eq_some_iff.mp hsender
    refine .sender ?_ hmessages ?_
    · cases object with
      | whatsappBusinessAccount => exact absurd rfl hmessages
      | page | instagram => simp [Job.metaId,hkind,hfirst,hmid]
    · cases object with
      | whatsappBusinessAccount => exact absurd rfl hmessages
      | page | instagram => simp [Job.unnamed,hkind,hfirst,hmid,hperson,hid,Option.filter]

theorem Routed.keyOf (h : Routed env payload job) {key : String} {t : UUID}
    (htakes : job.takes = some (key,t)) : KeyOf job key := by
  have hfirst : ∀ {t' c}, job = .runLeadCapture t' c payload → firstId payload = some key := by
    rintro t' c rfl
    obtain ⟨_,_,connection,_,heq⟩ := h.takes_eq
    rw [heq] at htakes
    obtain ⟨id,hid,hpair⟩ := Option.map_eq_some_iff.mp htakes
    rwa [(Prod.mk.inj hpair).1] at hid
  cases h with
  | @whatsapp account c hobject haccount hconnection =>
    have hkind := kind_of_objectType hobject
    have hid : firstMessageId payload = some key := by simpa [firstId,hkind] using hfirst rfl
    exact .wamid (by simp [Job.metaId,hkind,hid]) (by simp [Job.unnamed,hkind])
  | @dm object account c hobject hne haccount hfield hconnection =>
    exact keyOf_dm _ _ hobject hne hfield (hfirst rfl)
  | leadAd =>
    obtain ⟨rfl,_⟩ := Prod.mk.inj (Option.some.inj htakes)
    exact .leadgen rfl rfl

omit [Interpreter] in
theorem mark_cases (object : ObjectType) : object.mark = "ig-" ∨ object.mark = "fb-" := by
  cases object <;> simp [ObjectType.mark]

omit [Interpreter] in
theorem mark_append_inj {object object' : ObjectType} {sender sender' : String}
    (h : object ≠ .whatsappBusinessAccount) (h' : object' ≠ .whatsappBusinessAccount)
    (heq : object.mark ++ sender = object'.mark ++ sender') :
    object = object' ∧ sender = sender' := by
  have hlist := congrArg String.toList heq
  rw [String.toList_append,String.toList_append] at hlist
  have hmark : object.mark = object'.mark := by
    rcases mark_cases object with hm | hm <;> rcases mark_cases object' with hm' | hm' <;>
      simp [hm,hm'] at hlist ⊢
  refine ⟨?_,?_⟩
  · cases object <;> cases object' <;> simp [ObjectType.mark] at h h' hmark ⊢
  · rw [hmark] at hlist
    exact String.toList_inj.mp (List.append_cancel_left hlist)

omit [Interpreter] in
theorem leadAdEventId_ne_mark (id : String) (object : ObjectType) (sender : String) :
    leadAdEventId id ≠ object.mark ++ sender := by
  intro heq
  have hlist := congrArg String.toList heq
  rw [leadAdEventId,String.toList_append,String.toList_append] at hlist
  rcases mark_cases object with hm | hm <;> simp [hm] at hlist

omit [Interpreter] in
theorem leadAdEventId_inj {id id' : String} (heq : leadAdEventId id = leadAdEventId id') :
    id = id' := by
  have hlist := congrArg String.toList heq
  rw [leadAdEventId,leadAdEventId,String.toList_append,String.toList_append] at hlist
  exact String.toList_inj.mp (List.append_cancel_left hlist)

section Distinct

variable {Sent : Job → Prop} {Same : Job → Job → Prop} {job' : Job} {key key' : String}

omit [Interpreter] in
theorem MetaIds.ne_made (hids : MetaIds Sent Same) (hsent : Sent job) {id : String}
    (hid : job.metaId = some (.wamid id) ∨ job.metaId = some (.mid id)) :
    (∀ form, id ≠ leadAdEventId form) ∧
      ∀ (object : ObjectType) (sender : String), id ≠ object.mark ++ sender := by
  have hmark := hids.unmarked job hsent id hid
  constructor
  · rintro form rfl
    refine hmark "leadgen-" (by simp) ?_
    rw [leadAdEventId,String.toList_append]
    exact List.prefix_append _ _
  · rintro object sender rfl
    refine hmark object.mark ?_ ?_
    · rcases mark_cases object with hm | hm <;> simp [hm]
    · rw [String.toList_append]
      exact List.prefix_append _ _

/-- Two events that are not deliveries of one have the same key exactly when both are messaging
events without a message id, of one object type and one sender. -/
theorem KeyOf.eq_iff (hids : MetaIds Sent Same) (hsent : Sent job) (hsent' : Sent job')
    (hdistinct : ¬ Same job job') (h : KeyOf job key) (h' : KeyOf job' key') :
    key = key' ↔ ∃ sender, job.unnamed = some sender ∧ job'.unnamed = some sender := by
  cases h with
  | wamid hid hnamed =>
    refine iff_of_false (fun heq => ?_) (by simp [hnamed])
    have hmade := hids.ne_made hsent (Or.inl hid)
    cases h' with
    | wamid hid' => exact hdistinct (hids.unique _ _ hsent hsent' _ hid (heq ▸ hid'))
    | mid hid' => exact hids.apart _ _ hsent hsent' _ hid (heq ▸ hid')
    | leadgen => exact hmade.1 _ heq
    | sender => exact hmade.2 _ _ heq
  | mid hid hnamed =>
    refine iff_of_false (fun heq => ?_) (by simp [hnamed])
    have hmade := hids.ne_made hsent (Or.inr hid)
    cases h' with
    | wamid hid' => exact hids.apart _ _ hsent' hsent _ hid' (heq ▸ hid)
    | mid hid' => exact hdistinct (hids.unique _ _ hsent hsent' _ hid (heq ▸ hid'))
    | leadgen => exact hmade.1 _ heq
    | sender => exact hmade.2 _ _ heq
  | leadgen hid hnamed =>
    refine iff_of_false (fun heq => ?_) (by simp [hnamed])
    cases h' with
    | wamid hid' => exact (hids.ne_made hsent' (Or.inl hid')).1 _ heq.symm
    | mid hid' => exact (hids.ne_made hsent' (Or.inr hid')).1 _ heq.symm
    | leadgen hid' =>
      exact hdistinct (hids.unique _ _ hsent hsent' _ hid (leadAdEventId_inj heq ▸ hid'))
    | sender => exact leadAdEventId_ne_mark _ _ _ heq
  | @sender object sender hid hobject hunnamed =>
    cases h' with
    | wamid hid' hnamed =>
      refine iff_of_false (fun heq => ?_) (by simp [hnamed])
      exact (hids.ne_made hsent' (Or.inl hid')).2 _ _ heq.symm
    | mid hid' hnamed =>
      refine iff_of_false (fun heq => ?_) (by simp [hnamed])
      exact (hids.ne_made hsent' (Or.inr hid')).2 _ _ heq.symm
    | leadgen _ hnamed =>
      exact iff_of_false (fun heq => leadAdEventId_ne_mark _ _ _ heq.symm) (by simp [hnamed])
    | @sender object' sender' _ hobject' hunnamed' =>
      constructor
      · intro heq
        obtain ⟨rfl,rfl⟩ := mark_append_inj hobject hobject' heq
        exact ⟨_,hunnamed,hunnamed'⟩
      · rintro ⟨pair,hpair,hpair'⟩
        obtain ⟨rfl,rfl⟩ := Prod.mk.inj (Option.some.inj
          ((hunnamed.symm.trans hpair).trans (hpair'.symm.trans hunnamed')))
        rfl

/-- However the job runs, an event with the key that was new before it is new after it. -/
def Undropped (job : Job) (key : String) : Prop :=
  ∀ (w : World) (f : Fresh) (jobEnv : JobEnv), Reachable Step .empty w → f.For w.store →
    ¬ SlotTaken w.store key → ¬ SlotTaken (job.after w.store f jobEnv) key

theorem undropped_of_ne {t : UUID} (htakes : job.takes = some (key,t)) (hne : key ≠ key') :
    Undropped job key' := by
  intro w f jobEnv hw hf hslot
  rw [slotTaken_after hf (consistent_of_reachable hw).identities]
  rintro (htaken | ⟨⟨t',ht'⟩,_⟩)
  · exact hslot htaken
  · rw [htakes] at ht'
    exact hne (Prod.mk.inj (Option.some.inj ht')).1

/-- Two enqueued events that are not deliveries of one get different keys, and neither is dropped
for the other, exactly when they are not both messaging events without a message id from one
sender. -/
theorem keys_distinct_iff (hids : MetaIds Sent Same) {env env' : Endpoint}
    {payload payload' : Json} {t t' : UUID} (h : Routed env payload job)
    (h' : Routed env' payload' job') (hsent : Sent job) (hsent' : Sent job')
    (htakes : job.takes = some (key,t)) (htakes' : job'.takes = some (key',t'))
    (hdistinct : ¬ Same job job') :
    key ≠ key' ∧ Undropped job key' ∧ Undropped job' key ↔
      ¬ ∃ sender, job.unnamed = some sender ∧ job'.unnamed = some sender := by
  rw [← KeyOf.eq_iff hids hsent hsent' hdistinct (h.keyOf htakes) (h'.keyOf htakes')]
  exact ⟨fun hall => hall.1,fun hne =>
    ⟨hne,undropped_of_ne htakes hne,undropped_of_ne htakes' (Ne.symm hne)⟩⟩

end Distinct

end Keys

def pagePayload (messaging : Json) : Json :=
  .obj [("object",.str "page"),("entry",.arr [.obj [("id",.str "p1"),
    ("messaging",.arr [messaging])]])]

def pageEndpoint (payload : Json) : Endpoint where
  appSecret := "secret"
  hmacSha256 := fun _ _ => "00"
  loads := fun _ => .ok payload
  connections := [⟨11,1,.facebook,.active,none,none,[("page_id","p1")]⟩]
  enqueues := fun _ => true

def pageJob (messaging : Json) : Job := .runLeadCapture 1 11 (pagePayload messaging)

theorem routed_pageJob [Interpreter] (messaging : Json) :
    Routed (pageEndpoint (pagePayload messaging)) (pagePayload messaging) (pageJob messaging) := by
  have hreceived : receiveWebhook (pageEndpoint (pagePayload messaging)) [] "sha256=00" =
      .ok (.received (pageJob messaging)) := rfl
  exact routed_of_webhook rfl hreceived

def textEvent (mid text : String) : Json :=
  .obj [("sender",.obj [("id",.str "u1")]),
    ("message",.obj [("mid",.str mid),("text",.str text)])]

def postback (timestamp : ℤ) : Json :=
  .obj [("sender",.obj [("id",.str "u1")]),("timestamp",.int timestamp),
    ("postback",.obj [("payload",.str "QUOTE")])]

theorem text_and_postback_distinct :
    letI := Interpreter.ascii id
    "m_1" ≠ "fb-u1" ∧ Undropped (pageJob (textEvent "m_1" "Hi")) "fb-u1" ∧
      Undropped (pageJob (postback 1)) "m_1" := by
  let := Interpreter.ascii id
  let text := pageJob (textEvent "m_1" "Hi")
  let button := pageJob (postback 1)
  have htext : text.metaId = some (.mid "m_1") := rfl
  have hbutton : button.metaId = none := rfl
  have hids : MetaIds (fun j => j = text ∨ j = button) (· = ·) := by
    refine ⟨?_,?_,?_⟩
    · rintro j j' (rfl | rfl) (rfl | rfl) id hid hid' <;> simp_all
    · rintro j j' (rfl | rfl) (rfl | rfl) id hid hid' <;> simp_all
    · rintro j (rfl | rfl) id hid mark hmark
      · obtain rfl : "m_1" = id := by simpa [htext] using hid
        revert mark
        decide
      · simp [hbutton] at hid
  have hne : text ≠ button := by
    intro heq
    rw [heq,hbutton] at htext
    cases htext
  have htakes : text.takes = some ("m_1",1) := by decide +kernel
  have htakes' : button.takes = some ("fb-u1",1) := by decide +kernel
  refine (keys_distinct_iff hids (routed_pageJob _) (routed_pageJob _) (Or.inl rfl) (Or.inr rfl)
    htakes htakes' hne).mpr ?_
  rintro ⟨sender,hsender,_⟩
  have hnamed : text.unnamed = none := by decide +kernel
  rw [hnamed] at hsender
  cases hsender

/-- Two presses of one sender get one key, and the second is dropped as a redelivery. -/
theorem second_postback_dropped :
    letI := Interpreter.ascii id
    let job := pageJob (postback 1)
    let job' := pageJob (postback 2)
    Routed (pageEndpoint (pagePayload (postback 1))) (pagePayload (postback 1)) job ∧
      Routed (pageEndpoint (pagePayload (postback 2))) (pagePayload (postback 2)) job' ∧
      MetaIds (fun j => j = job ∨ j = job') (· = ·) ∧ job ≠ job' ∧
      job.takes = some ("fb-u1",1) ∧ job'.takes = some ("fb-u1",1) ∧ ¬ Undropped job "fb-u1" := by
  let := Interpreter.ascii id
  intro job job'
  have hid : job.metaId = none := rfl
  have hid' : job'.metaId = none := rfl
  refine ⟨routed_pageJob _,routed_pageJob _,⟨?_,?_,?_⟩,?_,by decide +kernel,by decide +kernel,?_⟩
  · rintro j _ (rfl | rfl) _ id h <;> simp_all
  · rintro j _ (rfl | rfl) _ id h <;> simp_all
  · rintro j (rfl | rfl) id h <;> simp_all
  · simp [job,job',pageJob,pagePayload,postback]
  · intro h
    have htaken : SlotTaken (job.after World.empty.store (.nth 1) outage) "fb-u1" := by
      decide +kernel
    exact h .empty (.nth 1) outage .refl
      (by constructor <;> simp [World.empty,Store.empty])
      (by simp [SlotTaken,World.empty,Store.empty]) htaken

end Webhook
end LeadEngine
