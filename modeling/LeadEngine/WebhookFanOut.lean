import LeadEngine.Isolation
import LeadEngine.WebhookRouting

/-! Fan-out of webhook payloads: when the job of an acknowledged payload is about exactly the
events in it, and stores no account of another tenant. -/
namespace LeadEngine
namespace Webhook

open Fallible Json Table Interpreter Channels LeadAds Normaliser Repository Deduplicator
open TwoStageFilter Pipeline History TransitionSystem

/-- A row of the tenant stores this payload. -/
def Stored (t : UUID) (raw : Json) (s : Store) : Prop :=
  (∃ l ∈ s.leads, l.tenantId = t ∧ l.rawEventJson = .payload raw) ∨
    (∃ r ∈ s.logs, r.tenantId = some t ∧ r.rawEventJson = .payload raw) ∨
    ∃ p ∈ s.touchpoints, OwnTouchpoint t s p ∧ p.rawEventJson = .payload raw

theorem not_stored_empty (t : UUID) (raw : Json) : ¬ Stored t raw .empty := by
  simp [Stored,Store.empty]

section Rows

variable {t : UUID} {raw : Json} {s s' : Store} {leads : List Lead} {logs : List IntakeEventLog}
  {touchpoints : List LeadTouchpoint}

structure Files (raw : Json) (leads : List Lead) (logs : List IntakeEventLog)
    (touchpoints : List LeadTouchpoint) : Prop where
  leads : ∀ l ∈ leads, l.rawEventJson = .payload raw
  logs : ∀ r ∈ logs, r.rawEventJson = .payload raw
  touchpoints : ∀ p ∈ touchpoints, p.rawEventJson = .payload raw

theorem stored_of_grows (h : Grows t s s' leads logs touchpoints)
    (hfiles : Files raw leads logs touchpoints) (hids : (s'.leads.map Lead.id).Nodup) {t' : UUID}
    {raw' : Json} (hs : Stored t' raw' s') : Stored t' raw' s ∨ t' = t ∧ raw' = raw := by
  have hsame : ∀ {column : RawEventJson}, column = .payload raw → column = .payload raw' →
      raw' = raw := by
    intro column hraw hraw'
    rw [hraw] at hraw'
    exact (RawEventJson.payload.inj hraw').symm
  rcases hs with ⟨l,hl,ht,hraw⟩ | ⟨r,hr,ht,hraw⟩ | ⟨p,hp,hown,hraw⟩
  · rw [h.leads_eq] at hl
    rcases List.mem_append.mp hl with hl | hl
    · exact .inl (.inl ⟨l,hl,ht,hraw⟩)
    · exact .inr ⟨ht.symm.trans (h.ownLeads l hl),hsame (hfiles.leads l hl) hraw⟩
  · rw [h.logs_eq] at hr
    rcases List.mem_append.mp hr with hr | hr
    · exact .inl (.inr (.inl ⟨r,hr,ht,hraw⟩))
    · exact .inr ⟨Option.some.inj (ht.symm.trans (h.ownLogs r hr)),hsame (hfiles.logs r hr) hraw⟩
  · rw [h.touchpoints_eq] at hp
    rcases List.mem_append.mp hp with hp | hp
    · exact .inl (.inr (.inr ⟨p,hp,(h.ownTouchpoint_iff hp).mp hown,hraw⟩))
    · obtain ⟨l,hl,hid,ht⟩ := hown
      obtain ⟨l',hl',hid',ht'⟩ := h.ownTouchpoints p hp
      have hll := List.inj_on_of_nodup_map hids hl hl' (hid.trans hid'.symm)
      exact .inr ⟨by rw [← ht,hll,ht'],hsame (hfiles.touchpoints p hp) hraw⟩

variable [Interpreter] {f : Fresh}

theorem grows_of_ran {route : Route} {received : Option LeadReceived} (hc : Consistent s)
    (hf : f.For s) (h : Ran s f route s' received) : ∃ leads logs touchpoints,
      Grows route.event.tenantId s s' leads logs touchpoints ∧
        Files route.event.rawEventJson leads logs touchpoints := by
  cases h with
  | redelivered => exact ⟨[],[],[],Grows.refl _ _,⟨by simp,by simp,by simp⟩⟩
  | captured e hslot hdup =>
    exact ⟨_,_,_,grows_withNewLead hc hf,⟨by simp [newLead,Route.event],
      by simp [settledLog,pendingLog,Route.event],by simp [buildTouchpoint,Route.event]⟩⟩
  | attached e l hslot hdup =>
    obtain ⟨hl,hm⟩ := findDuplicate_mem hdup
    exact ⟨_,_,_,grows_withDuplicate hl hm.1,⟨by simp,
      by simp [settledLog,pendingLog,Route.event],by simp [buildTouchpoint,Route.event]⟩⟩
  | stopped e stage reason hslot hfree =>
    exact ⟨_,_,_,grows_withTerminalLead hc hf stage reason,⟨by simp [terminalLead,Route.event],
      by simp [settledLog,pendingLog,Route.event],by simp⟩⟩

theorem stored_of_route {route : Route} {c : Captured} (hc : Consistent s) (hf : f.For s)
    (h : route.run s f = .ok (s',c)) {t' : UUID} {raw' : Json} (hs : Stored t' raw' s') :
    Stored t' raw' s ∨ t' = route.event.tenantId ∧ raw' = route.event.rawEventJson := by
  have hran := Route.ran hf h
  obtain ⟨_,_,_,hgrows,hfiles⟩ := grows_of_ran hc hf hran
  exact stored_of_grows hgrows hfiles (hran.change.consistent hf hc).leadIds hs

end Rows

section Jobs

variable [Interpreter] {env : Endpoint} {payload : Json} {job : Job}

omit [Interpreter] in
theorem stored_of_insertLog {s : Store} {r : IntakeEventLog} {t t' : UUID} {raw raw' : Json}
    (ht : r.tenantId = some t) (hraw : r.rawEventJson = .payload raw)
    (hs : Stored t' raw' (insertLog s r)) : Stored t' raw' s ∨ t' = t ∧ raw' = raw := by
  unfold insertLog at hs
  split_ifs at hs with hslot
  · exact .inl hs
  · rcases hs with hl | ⟨x,hx,htx,hrawx⟩ | hp
    · exact .inl (.inl hl)
    · rcases List.mem_append.mp hx with hx | hx
      · exact .inl (.inr (.inl ⟨x,hx,htx,hrawx⟩))
      · obtain rfl := List.mem_singleton.mp hx
        rw [ht] at htx
        rw [hraw] at hrawx
        exact .inr ⟨(Option.some.inj htx).symm,(RawEventJson.payload.inj hrawx).symm⟩
    · exact .inl (.inr (.inr hp))

theorem Routed.raw (h : Routed env payload job) : ∃ kvs, payload = .obj kvs ∧ kvs ≠ [] := by
  have hread : ∃ k path v, payload.read (.key k :: path) = .ok v := by
    cases h with
    | whatsapp _ haccount => exact ⟨_,_,_,haccount⟩
    | dm _ _ haccount => exact ⟨_,_,_,haccount⟩
    | leadAd _ _ haccount => exact ⟨_,_,_,haccount⟩
  obtain ⟨k,path,v,hread⟩ := hread
  obtain ⟨x,hx,_⟩ := read_key.mp hread
  cases payload with
  | obj kvs =>
    refine ⟨kvs,rfl,?_⟩
    rintro rfl
    simp [get?] at hx
  | _ => simp [get?] at hx

theorem stored_of_runLeadCapture {s s' : Store} {f : Fresh} {ans : Answers} {t t' c : UUID}
    {raw : Json} (hc : Consistent s) (hf : f.For s)
    (hrun : Webhook.runLeadCapture s f ans t' (some c) payload = .ok s') (hs : Stored t raw s') :
    Stored t raw s ∨
      raw = payload ∧ ∃ id, (Job.runLeadCapture t' c payload).takes = some (id,t) := by
  unfold Webhook.runLeadCapture at hrun
  split at hrun
  · cases hrun
  · obtain rfl := Except.ok.inj hrun
    exact .inl hs
  · rename_i e he
    obtain ⟨result,hcapture,rfl⟩ := map_eq_ok.mp hrun
    obtain ⟨route,hroute,hresult⟩ := runCaptureMessage_ok (mapError_eq_ok.mp hcapture)
    refine (stored_of_route hc hf hresult hs).imp id ?_
    rintro ⟨rfl,rfl⟩
    obtain ⟨_,hraw⟩ := readEvent_fields he
    refine ⟨(routeMessage_raw hroute).trans hraw,e.platformEventId,?_⟩
    simp [Job.takes,Job.event,he,Except.toOption,(routeMessage_event hroute).1]

theorem stored_of_runLeadAdCapture {kvs : List (String × Json)} (hne : kvs ≠ []) {s s' : Store}
    {f : Fresh} {leadAds : LeadAdEnv} {form : LeadAdPayload} {received : Option LeadReceived}
    {t : UUID} {raw : Json} (hc : Consistent s) (hf : f.For s) (hform : form.rawPayload = some kvs)
    (hrun : LeadAds.runLeadAdCapture s f leadAds form = .ok (s',received))
    (hs : Stored t raw s') : Stored t raw s ∨ t = form.tenantId ∧ raw = .obj kvs := by
  obtain rfl | rfl | ⟨fieldData,captured,_,hcapture⟩ := runLeadAdCapture_ok hrun
  · exact .inl hs
  · have hlog := stored_of_insertLog rfl rfl hs
    rwa [hform] at hlog
  · have hresult : Route.run s f (.capture (leadAdEvent leadAds form fieldData)) =
        .ok (s',captured) := hcapture
    refine (stored_of_route hc hf hresult hs).imp id ?_
    rintro ⟨rfl,rfl⟩
    refine ⟨rfl,?_⟩
    cases kvs with
    | nil => exact absurd rfl hne
    | cons kv kvs => simp [Route.event,leadAdEvent,normaliseLeadAdForm,hform,leadAdRaw]

theorem stored_of_run (h : Routed env payload job) {s s' : Store} {f : Fresh} {jobEnv : JobEnv}
    (hc : Consistent s) (hf : f.For s) (hrun : job.run s f jobEnv = .ok s') {t : UUID} {raw : Json}
    (hs : Stored t raw s') :
    Stored t raw s ∨ raw = payload ∧ ∃ id, job.takes = some (id,t) := by
  cases job with
  | runLeadCapture t' c raw' =>
    obtain rfl : raw' = payload := by cases h <;> rfl
    exact stored_of_runLeadCapture hc hf hrun hs
  | runLeadAdCapture form =>
    obtain ⟨kvs,rfl,hne⟩ := h.raw
    have hform : form.rawPayload = some kvs := by cases h; rfl
    obtain ⟨⟨_,received⟩,hcapture,rfl⟩ := map_eq_ok.mp hrun
    refine (stored_of_runLeadAdCapture hne hc hf hform (mapError_eq_ok.mp hcapture) hs).imp id ?_
    rintro ⟨rfl,rfl⟩
    exact ⟨rfl,_,rfl⟩

def noiseAnswers : Answers :=
  ⟨fun _ => .ok (.obj [("classification",.str "NOISE")]),.ok none⟩

theorem routeMessage_noise (e : NormalisedChannelEvent) :
    routeMessage e noiseAnswers = .ok (.terminal e .insufficientSignal none) := by
  have hfilter : runFilter (e.rawText.getD "") noiseAnswers.classifyMessage =
      .ok ⟨.noise,[],none⟩ := by
    unfold runFilter
    split_ifs <;> rfl
  simp [routeMessage,hfilter]

def failingGraph (connectionId : UUID) : LeadAdEnv where
  connections := [⟨connectionId,0,.facebook,.active,some [0],none,[]⟩]
  aes := ⟨fun _ => .ok (List.replicate keySize 0),fun _ _ b => b,fun _ _ b => .ok b,fun _ => [],
    fun _ => .ok [("page_access_token",.str "")]⟩
  encryptionKey := ""
  fetchLeadFields := fun _ _ => .error .externalService
  locationOrder := []

omit [Interpreter] in
theorem fetchFields_failing (job : LeadAdPayload) :
    fetchFields (failingGraph job.channelConnectionId) job = .failed := by
  simp [fetchFields,failingGraph,getChannelConnection,scalarOneOrNone,decryptCredentials,
    decodeKey,get?]

/-- Some run of a job that is about an event stores the payload for the event's tenant. -/
theorem exists_stored (h : Routed env payload job) {id : String} {t : UUID}
    (htakes : job.takes = some (id,t)) : ∃ jobEnv s',
      job.run .empty (.nth 0) jobEnv = .ok s' ∧ Stored t payload s' := by
  cases job with
  | runLeadCapture t' c raw =>
    obtain rfl : raw = payload := by cases h <;> rfl
    obtain ⟨e,he,hpair⟩ := Option.map_eq_some_iff.mp htakes
    replace he := toOption_join_eq_some.mp he
    obtain ⟨rfl,rfl⟩ := Prod.mk.inj hpair
    have hcreate : createTerminalLead .empty (.nth 0) e .insufficientSignal none =
        .ok (withTerminalLead .empty (.nth 0) e .insufficientSignal none,
          ⟨terminalLead (.nth 0) e .insufficientSignal none,none⟩) :=
      createTerminalLead_new (by decide +kernel) (by simp [SlotTaken,Store.empty])
        (by simp [PhoneFree,Store.empty])
    refine ⟨⟨noiseAnswers,failingGraph 0⟩,
      withTerminalLead .empty (.nth 0) e .insufficientSignal none,?_,?_⟩
    · simp only [Job.run,Webhook.runLeadCapture,he,runCaptureMessage,routeMessage_noise,Route.run,
        hcreate]
      rfl
    · refine .inl ⟨_,List.mem_append_right _ (List.mem_singleton.mpr rfl),rfl,?_⟩
      simp [terminalLead,(readEvent_fields he).2]
  | runLeadAdCapture job =>
    obtain ⟨kvs,hkvs,_⟩ := h.raw
    have hraw : job.rawPayload = some kvs := by
      cases h
      rw [hkvs]
      rfl
    obtain ⟨rfl,rfl⟩ := Prod.mk.inj (Option.some.inj htakes)
    refine ⟨⟨noiseAnswers,failingGraph job.channelConnectionId⟩,
      logFailedIntakeEvent .empty (.nth 0) (leadAdEventId job.leadgenId) .facebookLeadAds
        (.obj (job.rawPayload.getD [])) (some job.tenantId),?_,?_⟩
    · simp only [Job.run,LeadAds.runLeadAdCapture,fetchFields_failing]
      rfl
    · refine .inr (.inl ⟨_,List.mem_singleton.mpr rfl,rfl,?_⟩)
      rw [hraw,hkvs]
      rfl

/-- No run of the job stores an account for another tenant than its owner. -/
def Unmixed (table : List ChannelConnection) (job : Job) : Prop :=
  ∀ (w : World) (f : Fresh) (jobEnv : JobEnv) (s' : Store), Reachable Step .empty w →
    f.For w.store → job.run w.store f jobEnv = .ok s' → ∀ t raw, Stored t raw s' →
      Stored t raw w.store ∨ ∀ a ∈ accounts raw, owner table raw (some a) = some t

/-- The events that are captured are those of the payload, each for the tenant that owns the
account of its entry, and no account is stored for another tenant. -/
structure FannedOut (table : List ChannelConnection) (payload : Json) (job : Job) : Prop where
  captured : (job.takes.toList.map fun x => (some x.1,some x.2)).Perm
    ((items payload).map fun i => (i.eventId,owner table payload i.account))
  unmixed : Unmixed table job

/-- The payload holds no event but the one in first place, and if it holds that one, all its
accounts belong to the tenant that owns the event's. -/
structure Alone (table : List ChannelConnection) (payload : Json) : Prop where
  only : (items payload).map Item.eventId = (firstId payload).toList.map some
  oneTenant : ∀ i ∈ items payload, ∀ a ∈ accounts payload,
    owner table payload (some a) = owner table payload i.account

omit [Interpreter] in
theorem owner_of_firstConnection {account : Json} {c : ChannelConnection}
    (howned : ∃ c, activeConnections env.connections payload account = [c])
    (h : firstConnection env payload account = .ok (some c)) :
    owner env.connections payload (some account) = some c.tenantId := by
  obtain ⟨c',hc'⟩ := howned
  have hsame : c' = c := by
    cases account with
    | str id =>
      rw [firstConnection] at h
      rw [activeConnections] at hc'
      split_ifs at h hc' with hkind
      · simpa [whatsappConnection,getWhatsappConnectionByPhoneNumberId,hc',
          scalarOneOrNone,Except.mapError] using h
      · simpa [accountConnection,getConnectionByPageOrIgAccountId,hc',
          scalarOneOrNone,Except.mapError] using h
    | _ => simp [activeConnections] at hc'
  simp [owner,hc',hsame]

theorem unmixed_iff (h : Routed env payload job) (table : List ChannelConnection) :
    Unmixed table job ↔ ∀ id t, job.takes = some (id,t) →
      ∀ a ∈ accounts payload, owner table payload (some a) = some t := by
  constructor
  · intro hunmixed id t htakes
    obtain ⟨jobEnv,s',hrun,hs⟩ := exists_stored h htakes
    have hnew := hunmixed .empty (.nth 0) jobEnv s' .refl (by decide +kernel) hrun t payload hs
    exact hnew.resolve_left (not_stored_empty t payload)
  · intro hall w f jobEnv s' hw hf hrun t raw hs
    obtain hs | ⟨rfl,id,htakes⟩ := stored_of_run h (consistent_of_reachable hw) hf hrun hs
    · exact .inl hs
    · exact .inr (hall id t htakes)

/-- An acknowledged payload of accounts with one active connection each is fanned out without
loss and mixing exactly when it holds no event but the one in first place. -/
theorem fannedOut_iff_alone {body : Bytes} {signature : String}
    (hload : env.loads body = .ok payload)
    (h : receiveWebhook env body signature = .ok (.received job))
    (howned : ∀ a ∈ accounts payload, ∃ c, activeConnections env.connections payload a = [c]) :
    FannedOut env.connections payload job ↔ Alone env.connections payload := by
  have hrouted := routed_of_webhook hload h
  obtain ⟨account,haccount,c,hconnection,htakes⟩ := hrouted.takes_eq
  have howner := owner_of_firstConnection (howned account haccount) hconnection
  have hunmixed := unmixed_iff hrouted env.connections
  cases hid : firstId payload with
  | none =>
    rw [hid,Option.map_none] at htakes
    constructor
    · intro hfan
      have hitems : items payload = [] := by simpa [htakes] using hfan.captured
      exact ⟨by simp [hitems,hid],by simp [hitems]⟩
    · intro halone
      have hitems : items payload = [] := by simpa [hid] using halone.only
      exact ⟨by simp [htakes,hitems],hunmixed.mpr (by simp [htakes])⟩
  | some id =>
    rw [hid,Option.map_some] at htakes
    constructor
    · intro hfan
      have hlist : (items payload).map (fun i =>
          (i.eventId,owner env.connections payload i.account)) = [(some id,some c.tenantId)] := by
        simpa [htakes] using hfan.captured.symm
      obtain ⟨i,hitems,hpair⟩ := List.map_eq_singleton_iff.mp hlist
      obtain ⟨heventId,hown⟩ := Prod.mk.inj hpair
      refine ⟨by simp [hitems,hid,heventId],fun i' hi' a ha => ?_⟩
      obtain rfl : i' = i := by simpa [hitems] using hi'
      rw [hown]
      exact hunmixed.mp hfan.unmixed id c.tenantId htakes a ha
    · intro halone
      have hitem : ∃ i, items payload = [i] ∧ i.eventId = some id := by
        simpa [hid,List.map_eq_singleton_iff] using halone.only
      obtain ⟨i,hitems,heventId⟩ := hitem
      have hi : i ∈ items payload := by simp [hitems]
      have hown : owner env.connections payload i.account = some c.tenantId :=
        (halone.oneTenant i hi account haccount).symm.trans howner
      refine ⟨by simp [htakes,hitems,heventId,hown],hunmixed.mpr fun id' t htakes' a ha => ?_⟩
      obtain rfl : c.tenantId = t := by simpa [htakes] using congrArg (Option.map Prod.snd) htakes'
      exact (halone.oneTenant i hi a ha).trans hown

end Jobs

def textEntry (phoneNumberId messageId sender body : String) : Json :=
  .obj [("id",.str "waba"),("changes",.arr [.obj [("field",.str "messages"),("value",.obj
    [("metadata",.obj [("phone_number_id",.str phoneNumberId)]),
      ("messages",.arr [.obj [("from",.str sender),("id",.str messageId),("type",.str "text"),
        ("text",.obj [("body",.str body)])]])])]])]

def whatsappPayload (entries : List Json) : Json :=
  .obj [("object",.str "whatsapp_business_account"),("entry",.arr entries)]

def twoNumbers (payload : Json) : Endpoint where
  appSecret := "secret"
  hmacSha256 := fun _ _ => "00"
  loads := fun _ => .ok payload
  connections := [⟨11,1,.whatsapp,.active,none,none,[("phone_number_id","p1")]⟩,
    ⟨12,2,.whatsapp,.active,none,none,[("phone_number_id","p2")]⟩]
  enqueues := fun _ => true

def batch : Json :=
  whatsappPayload [textEntry "p1" "wamid.1" "49151" "Need a quote",
    textEntry "p2" "wamid.2" "49152" "Need a quote"]

/-- Of a delivery to two tenants the second message is lost, and its account is stored for
the first tenant. -/
theorem batch_loses_and_mixes :
    letI := Interpreter.ascii id
    ∃ job, receiveWebhook (twoNumbers batch) [] "sha256=00" = .ok (.received job) ∧
      (∀ a ∈ accounts batch, ∃ c, activeConnections (twoNumbers batch).connections batch a = [c]) ∧
      (items batch).map Item.eventId = [some "wamid.1",some "wamid.2"] ∧
      job.takes = some ("wamid.1",1) ∧ ¬ Unmixed (twoNumbers batch).connections job ∧
      ¬ FannedOut (twoNumbers batch).connections batch job := by
  let := Interpreter.ascii id
  have hreceived : receiveWebhook (twoNumbers batch) [] "sha256=00" =
      .ok (.received (.runLeadCapture 1 11 batch)) := rfl
  have haccounts : accounts batch = [.str "p1",.str "p2"] := rfl
  have htakes : (Job.runLeadCapture 1 11 batch).takes = some ("wamid.1",1) := by decide +kernel
  have hunmixed : ¬ Unmixed (twoNumbers batch).connections (.runLeadCapture 1 11 batch) := by
    intro h
    have hrouted : Routed (twoNumbers batch) batch (.runLeadCapture 1 11 batch) :=
      routed_of_webhook rfl hreceived
    have howner := (unmixed_iff hrouted _).mp h _ _ htakes (.str "p2") (by simp [haccounts])
    revert howner
    decide +kernel
  refine ⟨_,hreceived,?_,by decide +kernel,htakes,hunmixed,fun h => hunmixed h.unmixed⟩
  rw [haccounts]
  intro a ha
  obtain rfl | rfl : a = .str "p1" ∨ a = .str "p2" := by simpa using ha
  · exact ⟨_,rfl⟩
  · exact ⟨_,rfl⟩

def single : Json := whatsappPayload [textEntry "p1" "wamid.1" "49151" "Need a quote"]

theorem single_fanned_out :
    letI := Interpreter.ascii id
    ∃ job, receiveWebhook (twoNumbers single) [] "sha256=00" = .ok (.received job) ∧
      FannedOut (twoNumbers single).connections single job := by
  let := Interpreter.ascii id
  have hreceived : receiveWebhook (twoNumbers single) [] "sha256=00" =
      .ok (.received (.runLeadCapture 1 11 single)) := rfl
  have haccounts : accounts single = [.str "p1"] := rfl
  refine ⟨_,hreceived,(fannedOut_iff_alone rfl hreceived ?_).mpr ⟨by decide +kernel,?_⟩⟩
  · rw [haccounts]
    intro a ha
    obtain rfl := List.mem_singleton.mp ha
    exact ⟨_,rfl⟩
  · rw [haccounts]
    intro i hi a ha
    obtain rfl := List.mem_singleton.mp ha
    have hitems : items single = [⟨some (.str "p1"),some "wamid.1"⟩] := rfl
    rw [hitems] at hi
    rw [List.mem_singleton.mp hi]

end Webhook
end LeadEngine
