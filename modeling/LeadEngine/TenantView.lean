import LeadEngine.Isolation
import LeadEngine.Lockstep

/-! What a tenant sees of a history: its own rows, which its own operations and the sweeps write as
if no other tenant were there. -/
namespace LeadEngine
namespace History

open Table Interpreter Repository Deduplicator Pipeline Erasure Retention FileUpload LeadAds
open Normaliser TransitionSystem Lockstep

def ownRows (t : UUID) (s : Store) : Store where
  leads := leadsOf t s
  logs := logsOf t s
  touchpoints := touchpointsOfTenant t s
  retentionLogs := s.retentionLogs.filter fun r => r.tenantId = t
  erasureLogs := s.erasureLogs.filter fun r => r.tenantId = t

def seenBy (t : UUID) (w : World) : World :=
  ⟨ownRows t w.store,w.received.filter fun r => r.tenantId = t⟩

section Rows

variable {t t' : UUID} {s s' s₂ : Store}

theorem ownTouchpoint_ownRows {p : LeadTouchpoint} :
    OwnTouchpoint t (ownRows t s) p ↔ OwnTouchpoint t s p := by
  constructor
  · rintro ⟨l,hl,hid,ht⟩
    exact ⟨l,(List.mem_filter.mp hl).1,hid,ht⟩
  · rintro ⟨l,hl,hid,ht⟩
    exact ⟨l,List.mem_filter.mpr ⟨hl,by simpa using ht⟩,hid,ht⟩

theorem ownRows_ownRows : ownRows t (ownRows t s) = ownRows t s := by
  have htouchpoints : touchpointsOfTenant t (ownRows t s) = touchpointsOfTenant t s := by
    apply List.filter_eq_self.mpr
    intro p hp
    rw [decide_eq_true_iff,ownTouchpoint_ownRows]
    simpa using (List.mem_filter.mp hp).2
  simp [ownRows,leadsOf,logsOf] at htouchpoints ⊢
  exact htouchpoints

theorem agreeOn_ownRows : AgreeOn t s (ownRows t s) := by
  have h : ownRows t (ownRows t s) = ownRows t s := ownRows_ownRows
  exact ⟨(congrArg Store.leads h).symm,(congrArg Store.logs h).symm,
    (congrArg Store.touchpoints h).symm⟩

theorem for_ownRows {f : Fresh} (hf : f.For s) : f.For (ownRows t s) where
  log r hr := hf.log r (List.mem_filter.mp hr).1
  lead l hl := hf.lead l (List.mem_filter.mp hl).1
  touchpoint p hp := hf.touchpoint p (List.mem_filter.mp hp).1

theorem ownRows_eq_of_agree (h : AgreeOn t s s₂) (hown : ownRows t s₂ = s₂)
    (hretention : (s.retentionLogs.filter fun r => r.tenantId = t) = s₂.retentionLogs)
    (herasure : (s.erasureLogs.filter fun r => r.tenantId = t) = s₂.erasureLogs) :
    ownRows t s = s₂ := by
  rw [← hown,ownRows,h.leads,h.logs,h.touchpoints,hretention,herasure]
  rw [← congrArg Store.retentionLogs hown,← congrArg Store.erasureLogs hown]
  simp [ownRows]

/-- What a tenant writes beside its own rows is its own. -/
theorem Confined.ownRows_eq (h : Confined t s s') (hown : ownRows t s = s) :
    ownRows t s' = s' := by
  obtain ⟨leads,hleads,hownLeads⟩ := h.leads
  obtain ⟨logs,hlogs,hownLogs⟩ := h.logs
  obtain ⟨touchpoints,htouchpoints,hownTouchpoints⟩ := h.touchpoints
  have hallLeads : ∀ l ∈ s.leads, l.tenantId = t := by
    intro l hl
    rw [← hown] at hl
    simpa using (List.mem_filter.mp hl).2
  have hallLogs : ∀ r ∈ s.logs, r.tenantId = some t := by
    intro r hr
    rw [← hown] at hr
    simpa using (List.mem_filter.mp hr).2
  have hallTouchpoints : ∀ p ∈ s.touchpoints, OwnTouchpoint t s' p := by
    intro p hp
    rw [← hown] at hp
    obtain ⟨l,hl,hid,ht⟩ : OwnTouchpoint t s p := by simpa using (List.mem_filter.mp hp).2
    exact ⟨l,by rw [hleads]; exact List.mem_append_left _ hl,hid,ht⟩
  have hlead : leadsOf t s' = s'.leads := by
    apply List.filter_eq_self.mpr
    intro l hl
    rw [hleads] at hl
    rcases List.mem_append.mp hl with hl | hl
    · simpa using hallLeads l hl
    · simpa using hownLeads l hl
  have hlog : logsOf t s' = s'.logs := by
    apply List.filter_eq_self.mpr
    intro r hr
    rw [hlogs] at hr
    rcases List.mem_append.mp hr with hr | hr
    · simpa using hallLogs r hr
    · simpa using hownLogs r hr
  have htouchpoint : touchpointsOfTenant t s' = s'.touchpoints := by
    apply List.filter_eq_self.mpr
    intro p hp
    rw [htouchpoints] at hp
    rcases List.mem_append.mp hp with hp | hp
    · simpa using hallTouchpoints p hp
    · simpa using hownTouchpoints p hp
  have hretention := congrArg Store.retentionLogs hown
  have herasure := congrArg Store.erasureLogs hown
  simp only [ownRows] at hretention herasure
  rw [ownRows,hlead,hlog,htouchpoint,h.retentionLogs,h.erasureLogs,hretention,herasure,
    ← h.retentionLogs,← h.erasureLogs]

/-- What another tenant adds is not seen. -/
theorem Grows.ownRows_eq {leads : List Lead} {logs : List IntakeEventLog}
    {touchpoints : List LeadTouchpoint} (h : Grows t' s s' leads logs touchpoints)
    (hids : (s'.leads.map Lead.id).Nodup) (hne : t' ≠ t) : ownRows t s' = ownRows t s := by
  have hleads : (leads.filter fun l => l.tenantId = t) = [] := by
    apply List.filter_eq_nil_iff.mpr
    intro l hl
    simpa [h.ownLeads l hl] using hne
  have hlogs : (logs.filter fun r => r.tenantId = some t) = [] := by
    apply List.filter_eq_nil_iff.mpr
    intro r hr
    simpa [h.ownLogs r hr] using hne
  have htouchpoints : (touchpoints.filter fun p => OwnTouchpoint t s' p) = [] := by
    apply List.filter_eq_nil_iff.mpr
    intro p hp
    obtain ⟨l',hl',hid',ht'⟩ := h.ownTouchpoints p hp
    rw [decide_eq_true_iff]
    rintro ⟨l,hl,hid,ht⟩
    obtain rfl :=
      (uniqueOn_some_iff.mpr hids).eq_of_key hl hl' (congrArg some (hid.trans hid'.symm)) rfl
    exact hne (ht'.symm.trans ht)
  have hlead : leadsOf t s' = leadsOf t s := by
    rw [leadsOf,h.leads_eq,List.filter_append,hleads,List.append_nil,leadsOf]
  have hlog : logsOf t s' = logsOf t s := by
    rw [logsOf,h.logs_eq,List.filter_append,hlogs,List.append_nil,logsOf]
  have htouchpoint : touchpointsOfTenant t s' = touchpointsOfTenant t s := by
    rw [touchpointsOfTenant,h.touchpoints_eq,List.filter_append,htouchpoints,List.append_nil]
    apply List.filter_congr
    intro p hp
    simp [h.ownTouchpoint_iff hp]
  rw [ownRows,hlead,hlog,htouchpoint,h.retentionLogs_eq,h.erasureLogs_eq,ownRows]

end Rows

section Rewriting

variable {t : UUID} {s : Store} {now : Time} {ids ids' : List UUID}

theorem ownRows_rewrite {s' : Store} {g : Lead → Lead} {gr : IntakeEventLog → IntakeEventLog}
    {gt : LeadTouchpoint → LeadTouchpoint} (hleads : s'.leads = s.leads.map g)
    (hlogs : s'.logs = s.logs.map gr) (htouchpoints : s'.touchpoints = s.touchpoints.map gt)
    (hg : ∀ l, (g l).id = l.id ∧ (g l).tenantId = l.tenantId)
    (hgr : ∀ r, (gr r).tenantId = r.tenantId) (hgt : ∀ p, (gt p).leadId = p.leadId) :
    leadsOf t s' = (leadsOf t s).map g ∧ logsOf t s' = (logsOf t s).map gr ∧
      touchpointsOfTenant t s' = (touchpointsOfTenant t s).map gt := by
  have hown : ∀ p, OwnTouchpoint t s' (gt p) ↔ OwnTouchpoint t s p := by
    intro p
    unfold OwnTouchpoint
    rw [hleads,hgt]
    constructor
    · rintro ⟨l',hl',hid,ht⟩
      obtain ⟨l,hl,rfl⟩ := List.mem_map.mp hl'
      exact ⟨l,hl,(hg l).1.symm.trans hid,(hg l).2.symm.trans ht⟩
    · rintro ⟨l,hl,hid,ht⟩
      exact ⟨g l,List.mem_map_of_mem hl,(hg l).1.trans hid,(hg l).2.trans ht⟩
  refine ⟨?_,?_,?_⟩
  · simp only [leadsOf,hleads,List.filter_map,Function.comp_def,(hg _).2]
  · simp only [logsOf,hlogs,List.filter_map,Function.comp_def,hgr]
  · simp only [touchpointsOfTenant,htouchpoints,List.filter_map,Function.comp_def,hown]

theorem ownRows_eraseIds : ownRows t (eraseIds now s ids) = eraseIds now (ownRows t s) ids := by
  obtain ⟨hleads,hlogs,htouchpoints⟩ :=
    @ownRows_rewrite t s (eraseIds now s ids) _ _ _ rfl rfl rfl
      (fun l => by split_ifs <;> exact ⟨rfl,rfl⟩) (fun r => by split_ifs <;> rfl)
      (fun p => by split_ifs <;> rfl)
  rw [ownRows,hleads,hlogs,htouchpoints]
  rfl

theorem Consistent.eraseIds_congr (hc : Consistent s)
    (h : ∀ l ∈ s.leads, l.id ∈ ids ↔ l.id ∈ ids') : eraseIds now s ids = eraseIds now s ids' := by
  have hlink : ∀ r ∈ s.logs, (∃ i ∈ ids, r.leadId = some i) ↔ ∃ i ∈ ids', r.leadId = some i := by
    intro r hr
    constructor
    · rintro ⟨i,hi,hlead⟩
      obtain ⟨l,hl,hid,_⟩ := hc.logLead r hr i hlead
      exact ⟨i,hid ▸ (h l hl).mp (hid ▸ hi),hlead⟩
    · rintro ⟨i,hi,hlead⟩
      obtain ⟨l,hl,hid,_⟩ := hc.logLead r hr i hlead
      exact ⟨i,hid ▸ (h l hl).mpr (hid ▸ hi),hlead⟩
  have htouch : ∀ p ∈ s.touchpoints, p.leadId ∈ ids ↔ p.leadId ∈ ids' := by
    intro p hp
    obtain ⟨l,hl,hid⟩ := hc.touchpointLead p hp
    rw [← hid]
    exact h l hl
  unfold eraseIds
  congr 1
  · exact List.map_congr_left fun l hl => by simp only [h l hl]
  · exact List.map_congr_left fun r hr => by simp only [hlink r hr]
  · exact List.map_congr_left fun p hp => by simp only [htouch p hp]

theorem Consistent.anonymiseIds_congr (hc : Consistent s)
    (h : ∀ l ∈ s.leads, l.id ∈ ids ↔ l.id ∈ ids') :
    anonymiseIds now s ids = anonymiseIds now s ids' := by
  have htouch : ∀ p ∈ s.touchpoints, p.leadId ∈ ids ↔ p.leadId ∈ ids' := by
    intro p hp
    obtain ⟨l,hl,hid⟩ := hc.touchpointLead p hp
    rw [← hid]
    exact h l hl
  unfold anonymiseIds
  congr 1
  · exact List.map_congr_left fun l hl => by simp only [h l hl]
  · exact List.map_congr_left fun p hp => by simp only [htouch p hp]

end Rewriting

theorem Consistent.ownRows {t : UUID} {s : Store} (h : Consistent s) :
    Consistent (ownRows t s) where
  leadIds := h.leadIds.sublist (List.filter_sublist.map _)
  logIds := h.logIds.sublist (List.filter_sublist.map _)
  touchpointIds := h.touchpointIds.sublist (List.filter_sublist.map _)
  slots := h.slots.sublist (List.filter_sublist.map _)
  identities := h.identities.sublist List.filter_sublist
  logLead := by
    intro r hr i hi
    obtain ⟨hr,ht⟩ := List.mem_filter.mp hr
    obtain ⟨l,hl,hid,hown⟩ := h.logLead r hr i hi
    refine ⟨l,List.mem_filter.mpr ⟨hl,?_⟩,hid,hown⟩
    simpa [hown] using ht
  touchpointLead := by
    intro p hp
    obtain ⟨l,hl,hid,ht⟩ : OwnTouchpoint t s p := by simpa using (List.mem_filter.mp hp).2
    exact ⟨l,List.mem_filter.mpr ⟨hl,by simpa using ht⟩,hid⟩
  scrubbed l hl := h.scrubbed l (List.mem_filter.mp hl).1
  erasedRows := by
    intro l hl hstage
    obtain ⟨htouchpoints,hlogs⟩ := h.erasedRows l (List.mem_filter.mp hl).1 hstage
    exact ⟨fun p hp => htouchpoints p (List.mem_filter.mp hp).1,
      fun r hr => hlogs r (List.mem_filter.mp hr).1⟩

/-- The tenant whose rows an operation writes; an unroutable event belongs to none, and a sweep to
all. -/
def Op.tenant : Op → Option UUID
  | .runCapture e | .createTerminalLead e _ _ | .runCaptureMessage e _ => some e.tenantId
  | .inlineRow tenantId _ | .batchRow tenantId _ => some tenantId
  | .runLeadAdCapture _ job => some job.tenantId
  | .logUnroutableEvent .. | .runRetentionSweep _ => none
  | .logFailedIntakeEvent _ _ _ tenantId => tenantId
  | .eraseLeadByIdentity tenantId _ _ _ => some tenantId

/-- The operations a tenant can notice: its own and the sweeps. -/
def Op.concerns (t : UUID) : Op → Bool
  | .runRetentionSweep _ => true
  | op => op.tenant = some t

section Operations

variable [Interpreter]

/-- The event id an operation may reserve. -/
def Op.eventId : Op → Option String
  | .runCapture e | .createTerminalLead e _ _ | .runCaptureMessage e _ => some e.platformEventId
  | .inlineRow tenantId row | .batchRow tenantId row =>
    (normaliseFileRow row tenantId).toOption.map NormalisedChannelEvent.platformEventId
  | .runLeadAdCapture _ job => some (leadAdEventId job.leadgenId)
  | .logUnroutableEvent platformEventId _ _ | .logFailedIntakeEvent platformEventId _ _ _ =>
    some platformEventId
  | .eraseLeadByIdentity .. | .runRetentionSweep _ => none

/-- The event that an operation writes is of its tenant and has its id. -/
theorem Op.route_event {op : Op} {route : Route} (h : op.route = some route) :
    op.tenant = some route.event.tenantId ∧ op.eventId = some route.event.platformEventId := by
  cases op with
  | runCapture e =>
    obtain rfl : Route.capture e = route := by simpa [Op.route] using h
    exact ⟨rfl,rfl⟩
  | createTerminalLead e stage reason =>
    obtain rfl : Route.terminal e stage reason = route := by simpa [Op.route] using h
    exact ⟨rfl,rfl⟩
  | runCaptureMessage e ans =>
    cases hr : routeMessage e ans with
    | error err => simp [Op.route,hr,Except.toOption] at h
    | ok r =>
      obtain rfl : r = route := by simpa [Op.route,hr,Except.toOption] using h
      obtain ⟨ht,hpid,_⟩ := routeMessage_event hr
      exact ⟨congrArg some ht.symm,congrArg some hpid.symm⟩
  | inlineRow t row =>
    obtain ⟨e,he,_,rfl⟩ := rowRoute_eq_some h
    obtain ⟨_,_,_,_,rfl⟩ := normaliseFileRow_eq_ok.mp he
    simp [Op.tenant,Op.eventId,he,Except.toOption,Route.event,stripEvent_eq]
  | batchRow t row =>
    obtain ⟨e,he,_,rfl⟩ := rowRoute_eq_some h
    obtain ⟨_,_,_,_,rfl⟩ := normaliseFileRow_eq_ok.mp he
    simp [Op.tenant,Op.eventId,he,Except.toOption,Route.event]
  | runLeadAdCapture env job =>
    cases hf : fetchFields env job with
    | fetched fieldData =>
      obtain rfl : Route.capture (leadAdEvent env job fieldData) = route := by
        simpa [Op.route,hf] using h
      exact ⟨rfl,rfl⟩
    | _ => simp [Op.route,hf] at h
  | _ => simp [Op.route] at h

/-- An operation that writes no event and rewrites no row does the same to every store. -/
inductive Plain (op : Op) : Prop
  | raises (err : Raised) (h : ∀ s f, op.exec s f = .error err)
  | skips (h : ∀ s f, op.exec s f = .ok (s,none))
  | blocks (tenantId : UUID) (row : Row) (extraFields : Dict String Json)
      (ht : op.tenant = some tenantId)
      (h : ∀ s f, op.exec s f = .ok (withBlockedLead s f tenantId row extraFields,none))
  | logs (r : Fresh → IntakeEventLog) (ht : ∀ f, (r f).tenantId = op.tenant)
      (hid : ∀ f, op.eventId = some (r f).platformEventId)
      (h : ∀ s f, op.exec s f = .ok (insertLog s (r f),none))

theorem plain_row {op : Op} {tenantId : UUID} {row : Row} {e : NormalisedChannelEvent}
    (prepare : NormalisedChannelEvent → NormalisedChannelEvent) (ht : op.tenant = some tenantId)
    (he : normaliseFileRow row tenantId = .ok e) (hnone : rowRoute prepare tenantId row = none)
    (hexec : ∀ s f, op.exec s f =
      returned uploadRaised (storeRow s f tenantId row (prepare e))) : Plain op := by
  refine .blocks tenantId row (prepare e).extraFields ht fun s f => ?_
  rw [hexec,storeRow_blocked (lacksIdentity_of_rowRoute he hnone)]
  rfl

theorem Op.plain {op : Op} (hroute : op.route = none) (hred : op.redacts = false) : Plain op := by
  cases op with
  | runCapture | createTerminalLead => simp [Op.route] at hroute
  | runCaptureMessage e ans =>
    cases hr : routeMessage e ans with
    | ok r => simp [Op.route,hr,Except.toOption] at hroute
    | error err =>
      refine .raises (messageRaised err) fun s f => ?_
      simp [Op.exec,Pipeline.runCaptureMessage,hr,returned]
  | inlineRow t row =>
    cases he : normaliseFileRow row t with
    | error err =>
      refine .raises (uploadRaised (.row err)) fun s f => ?_
      simp [Op.exec,FileUpload.inlineRow,he,returned]
    | ok e =>
      exact plain_row stripEvent rfl he hroute fun s f => by
        simp only [Op.exec,FileUpload.inlineRow,he]
  | batchRow t row =>
    cases he : normaliseFileRow row t with
    | error err =>
      refine .raises (uploadRaised (.row err)) fun s f => ?_
      simp [Op.exec,FileUpload.batchRow,he,returned]
    | ok e =>
      exact plain_row id rfl he hroute fun s f => by
        simp only [Op.exec,FileUpload.batchRow,he,id]
  | runLeadAdCapture env job =>
    cases hfetch : fetchFields env job with
    | skipped =>
      refine .skips fun s f => ?_
      simp [Op.exec,LeadAds.runLeadAdCapture,hfetch,Except.mapError]
    | raised err =>
      refine .raises (leadAdRaised err) fun s f => ?_
      simp [Op.exec,LeadAds.runLeadAdCapture,hfetch,Except.mapError]
    | failed =>
      refine .logs (fun f => ⟨f.logId,some job.tenantId,none,leadAdEventId job.leadgenId,
        .facebookLeadAds,.failed,.payload (.obj (job.rawPayload.getD [])),f.now⟩)
        (fun _ => rfl) (fun _ => rfl) fun s f => ?_
      simp only [Op.exec,LeadAds.runLeadAdCapture,hfetch,Except.mapError]
      rfl
    | fetched fieldData => simp [Op.route,hfetch] at hroute
  | logUnroutableEvent pid source raw =>
    exact .logs _ (fun _ => rfl) (fun _ => rfl) fun s f => rfl
  | logFailedIntakeEvent pid source raw t =>
    exact .logs _ (fun _ => rfl) (fun _ => rfl) fun s f => rfl
  | eraseLeadByIdentity | runRetentionSweep => simp [Op.redacts] at hred

end Operations

section Slots

variable {t : UUID} {own : String → Prop} {s s' : Store} {pid : String}

/-- The ids of the tenant's log rows, and no other rows, are its own. -/
def Slotted (t : UUID) (own : String → Prop) (s : Store) : Prop :=
  ∀ r ∈ s.logs, r.tenantId = some t ↔ own r.platformEventId

theorem Slotted.append {r : IntakeEventLog} (h : Slotted t own s) (hlogs : s'.logs = s.logs ++ [r])
    (hr : r.tenantId = some t ↔ own r.platformEventId) : Slotted t own s' := by
  intro x hx
  rw [hlogs,List.mem_append,List.mem_singleton] at hx
  obtain hx | rfl := hx
  · exact h x hx
  · exact hr

theorem Slotted.insertLog {r : IntakeEventLog} (h : Slotted t own s)
    (hr : r.tenantId = some t ↔ own r.platformEventId) : Slotted t own (insertLog s r) := by
  unfold Repository.insertLog
  split_ifs
  · exact h
  · exact h.append rfl hr

theorem Slotted.redacted (h : Slotted t own s) (hred : Redaction s s') : Slotted t own s' := by
  obtain ⟨g,hg,hlogs⟩ := hred.logs
  intro x hx
  rw [hlogs] at hx
  obtain ⟨r,hr,rfl⟩ := List.mem_map.mp hx
  obtain ⟨_,hpid,_,ht,_⟩ := redactsLog_fields hg r
  rw [ht,hpid]
  exact h r hr

theorem Slotted.slotTaken_iff (h : Slotted t own s) (hown : own pid) :
    SlotTaken (ownRows t s) pid ↔ SlotTaken s pid := by
  constructor
  · rintro ⟨r,hr,hpid⟩
    exact ⟨r,(List.mem_filter.mp hr).1,hpid⟩
  · rintro ⟨r,hr,hpid⟩
    have ht := (h r hr).mpr (hpid ▸ hown)
    exact ⟨r,List.mem_filter.mpr ⟨hr,by simpa using ht⟩,hpid⟩

theorem ownRows_insertLog {r : IntakeEventLog} (ht : r.tenantId = some t)
    (hslot : SlotTaken (ownRows t s) r.platformEventId ↔ SlotTaken s r.platformEventId) :
    ownRows t (insertLog s r) = insertLog (ownRows t s) r := by
  by_cases htaken : SlotTaken s r.platformEventId
  · rw [insertLog_taken htaken,insertLog_taken (hslot.mpr htaken)]
  · have htaken' := fun h => htaken (hslot.mp h)
    simp only [insertLog,if_neg htaken,if_neg htaken']
    simp [ownRows,leadsOf,logsOf,touchpointsOfTenant,OwnTouchpoint,ht]

theorem ownRows_insertLog_of_ne {r : IntakeEventLog} (ht : r.tenantId ≠ some t) :
    ownRows t (insertLog s r) = ownRows t s := by
  unfold Repository.insertLog
  split_ifs
  · rfl
  · simp [ownRows,leadsOf,logsOf,touchpointsOfTenant,OwnTouchpoint,ht]

variable [Interpreter] {op : Op} {f : Fresh} {received : Option LeadReceived}

def Op.Apart (t : UUID) (own : String → Prop) (op : Op) : Prop :=
  ∀ id, op.eventId = some id → (op.tenant = some t ↔ own id)

theorem Op.slotted (hf : f.For s) (hs : Slotted t own s) (ha : op.Apart t own)
    (h : op.exec s f = .ok (s',received)) : Slotted t own s' := by
  cases hred : op.redacts with
  | true => exact hs.redacted (Op.redaction hred h).1
  | false =>
    cases hroute : op.route with
    | some route =>
      obtain ⟨ht,hid⟩ := Op.route_event hroute
      have hown := ha _ hid
      rw [ht] at hown
      cases Op.ran hf hroute h with
      | redelivered => exact hs
      | captured | attached | stopped => exact hs.append rfl hown
    | none =>
      cases Op.plain hroute hred with
      | raises err hexec => cases (hexec s f).symm.trans h
      | skips hexec =>
        obtain ⟨rfl,_⟩ := Prod.mk.inj (Except.ok.inj ((hexec s f).symm.trans h))
        exact hs
      | blocks tenantId row extra _ hexec =>
        obtain ⟨rfl,_⟩ := Prod.mk.inj (Except.ok.inj ((hexec s f).symm.trans h))
        exact hs
      | logs r ht hid hexec =>
        obtain ⟨rfl,_⟩ := Prod.mk.inj (Except.ok.inj ((hexec s f).symm.trans h))
        exact hs.insertLog ((ht f) ▸ ha _ (hid f))

end Slots

section Removal

variable {t t' : UUID} {s : Store}

theorem findLeads_ownRows (kind : IdentifierType) (value : String) :
    findLeads (ownRows t s) t kind value = findLeads s t kind value := by
  cases kind <;>
  · simp only [findLeads,ownRows,leadsOf,List.filter_filter]
    apply List.filter_congr
    intro l _
    by_cases ht : l.tenantId = t <;> simp [ht]

theorem tenant_of_found {kind : IdentifierType} {value : String} {l : Lead}
    (h : l ∈ findLeads s t kind value) : l ∈ s.leads ∧ l.tenantId = t := by
  cases kind <;>
  · obtain ⟨hl,hp⟩ := List.mem_filter.mp h
    exact ⟨hl,(of_decide_eq_true hp).1⟩

variable [Interpreter]

omit [Interpreter] in
theorem ownRows_erased (now : Time) (ids : List UUID) (r : ErasureEventLog) :
    ownRows t { eraseIds now s ids with erasureLogs := s.erasureLogs ++ [r] } =
      { eraseIds now (ownRows t s) ids with
        erasureLogs := (ownRows t s).erasureLogs ++ if r.tenantId = t then [r] else [] } := by
  rw [← ownRows_eraseIds]
  simp only [ownRows,List.filter_append,List.filter_singleton,Bool.cond_decide]
  rfl

theorem eraseIdentity_ownRows (now : Time) (kind : IdentifierType) (value requestedBy : String) :
    (eraseIdentity (ownRows t s) now t kind value requestedBy).1 =
      ownRows t (eraseIdentity s now t kind value requestedBy).1 := by
  unfold eraseIdentity
  dsimp only
  rw [findLeads_ownRows]
  split_ifs
  · rfl
  · rw [foldl_eraseOne,foldl_eraseOne]
    refine Eq.trans ?_ (ownRows_erased ..).symm
    rw [if_pos rfl]
    rfl

theorem eraseIdentity_unseen (hc : Consistent s) (hne : t' ≠ t) (now : Time)
    (kind : IdentifierType) (value requestedBy : String) :
    ownRows t (eraseIdentity s now t' kind value requestedBy).1 = ownRows t s := by
  unfold eraseIdentity
  dsimp only
  split_ifs
  · rfl
  · have hnone : ∀ l ∈ (ownRows t s).leads,
        l.id ∈ (findLeads s t' kind (storedIdentifier kind value)).map Lead.id ↔ l.id ∈ [] := by
      intro l hl
      obtain ⟨hl,ht⟩ := List.mem_filter.mp hl
      simp only [List.mem_map,List.not_mem_nil,iff_false]
      rintro ⟨l',hl',hid⟩
      obtain ⟨hl',ht'⟩ := tenant_of_found hl'
      obtain rfl := (uniqueOn_some_iff.mpr hc.leadIds).eq_of_key hl' hl (congrArg some hid) rfl
      exact hne (ht'.symm.trans (of_decide_eq_true ht))
    rw [foldl_eraseOne]
    refine (ownRows_erased ..).trans ?_
    rw [hc.ownRows.eraseIds_congr hnone,eraseIds_nil,if_neg hne,List.append_nil]

theorem erase_ownRows (now : Time) (phone email : Option String) (requestedBy : String) :
    (Erasure.eraseLeadByIdentity (ownRows t s) now t phone email requestedBy).1 =
      ownRows t (Erasure.eraseLeadByIdentity s now t phone email requestedBy).1 := by
  unfold Erasure.eraseLeadByIdentity
  split
  · exact eraseIdentity_ownRows ..
  · exact eraseIdentity_ownRows ..
  · rfl

theorem erase_unseen (hc : Consistent s) (hne : t' ≠ t) (now : Time)
    (phone email : Option String) (requestedBy : String) :
    ownRows t (Erasure.eraseLeadByIdentity s now t' phone email requestedBy).1 = ownRows t s := by
  unfold Erasure.eraseLeadByIdentity
  split
  · exact eraseIdentity_unseen hc hne ..
  · exact eraseIdentity_unseen hc hne ..
  · rfl

omit [Interpreter] in
theorem leadsDue_ownRows (now : Time) (days : ℤ) :
    leadsDue (ownRows t s) now days = (leadsDue s now days).filter fun l => l.tenantId = t := by
  simp only [leadsDue,ownRows,leadsOf,List.filter_filter]
  apply List.filter_congr
  intro l _
  rw [Bool.and_comm]

omit [Interpreter] in
/-- A sweep does to the rows of each tenant what it does to the store. -/
theorem sweep_ownRows (hc : Consistent s) (now : Time) (settings : RetentionSettings) :
    (Retention.runRetentionSweep (ownRows t s) now settings).1 =
      ownRows t (Retention.runRetentionSweep s now settings).1 := by
  have hids : ∀ l ∈ (ownRows t s).leads,
      l.id ∈ (leadsDue (ownRows t s) now settings.leadDataRetentionDays).map Lead.id ↔
        l.id ∈ (leadsDue s now settings.leadDataRetentionDays).map Lead.id := by
    intro l hl
    obtain ⟨hl,ht⟩ := List.mem_filter.mp hl
    rw [leadsDue_ownRows,List.mem_map,List.mem_map]
    constructor
    · rintro ⟨l',hl',hid⟩
      exact ⟨l',(List.mem_filter.mp hl').1,hid⟩
    · rintro ⟨l',hl',hid⟩
      obtain rfl := (uniqueOn_some_iff.mpr hc.leadIds).eq_of_key (List.mem_filter.mp hl').1 hl
        (congrArg some hid) rfl
      exact ⟨l',List.mem_filter.mpr ⟨hl',ht⟩,rfl⟩
  obtain ⟨hleads,hlogs,htouchpoints⟩ := @ownRows_rewrite t s
    (Retention.runRetentionSweep s now settings).1 _
    (fun r => if logDue now settings.intakeLogRetentionDays r then
      { r with rawEventJson := .anonymised now } else r) _
    (by simp only [Retention.runRetentionSweep,foldl_anonymiseLead]; rfl)
    (by simp only [Retention.runRetentionSweep,foldl_anonymiseLead]; rfl)
    (by simp only [Retention.runRetentionSweep,foldl_anonymiseLead]; rfl)
    (fun l => by split_ifs <;> exact ⟨rfl,rfl⟩) (fun r => by split_ifs <;> rfl)
    (fun p => by split_ifs <;> rfl)
  have hretention : ((Retention.runRetentionSweep s now settings).1.retentionLogs.filter
      fun r => r.tenantId = t) = (ownRows t s).retentionLogs ++
        (leadsDue (ownRows t s) now settings.leadDataRetentionDays).map fun l =>
          ⟨l.id,l.tenantId,settings.leadDataRetentionDays⟩ := by
    simp only [Retention.runRetentionSweep,foldl_anonymiseLead,List.filter_append,
      List.filter_map,Function.comp_def,leadsDue_ownRows]
    rfl
  have hview : ownRows t (Retention.runRetentionSweep s now settings).1 = ⟨_,_,_,_,_⟩ := rfl
  rw [hview,hleads,hlogs,htouchpoints,hretention]
  simp only [Retention.runRetentionSweep,foldl_anonymiseLead,hc.ownRows.anonymiseIds_congr hids]
  rfl

end Removal

section Steps

variable [Interpreter] {t t' : UUID} {own : String → Prop} {s s' : Store} {op : Op} {f : Fresh}
  {received : Option LeadReceived}

omit [Interpreter] in
theorem grows_withBlockedLead (hc : Consistent s) (hf : f.For s) (row : Row)
    (extraFields : Dict String Json) :
    Grows t s (withBlockedLead s f t row extraFields)
      [blockedLead f t row extraFields "insufficient_identity_fields"] [] [] where
  leads_eq := rfl
  logs_eq := (List.append_nil _).symm
  touchpoints_eq := (List.append_nil _).symm
  retentionLogs_eq := rfl
  erasureLogs_eq := rfl
  fresh := by
    intro l hl p hp
    rw [List.mem_singleton.mp hl]
    exact hc.fresh_lead hf hp
  ownLeads := by simp [blockedLead]
  ownLogs := by simp
  ownTouchpoints := by simp

omit [Interpreter] in
theorem Op.tenant_of_concerns (h : op.concerns t = true) (hred : op.redacts = false) :
    op.tenant = some t := by
  cases op with
  | runRetentionSweep => cases hred
  | _ => exact of_decide_eq_true h

omit [Interpreter] in
theorem Op.tenant_ne (h : op.concerns t = false) : op.tenant ≠ some t := by
  cases op with
  | runRetentionSweep => cases h
  | _ => exact of_decide_eq_false h

theorem Op.tenant_received {r : LeadReceived} (hf : f.For s)
    (h : op.exec s f = .ok (s',some r)) : op.tenant = some r.tenantId := by
  cases hred : op.redacts with
  | true => cases (Op.redaction hred h).2
  | false =>
    cases hroute : op.route with
    | some route =>
      have ht := (Op.route_event hroute).1
      cases Op.ran hf hroute h with
      | captured e => exact ht
    | none => cases (Op.unrouted hroute hred h).quiet

/-- What an operation does that is of no concern to the tenant is not seen. -/
theorem Op.unseen (hc : Consistent s) (hf : f.For s) (hother : op.concerns t = false)
    (h : op.exec s f = .ok (s',received)) :
    ownRows t s' = ownRows t s ∧ (received.toList.filter fun r => r.tenantId = t) = [] := by
  have hids : (s'.leads.map Lead.id).Nodup := ((Op.change hf h).consistent hf hc).leadIds
  have htenant := Op.tenant_ne hother
  cases hred : op.redacts with
  | true =>
    cases op with
    | eraseLeadByIdentity t' phone email who =>
      obtain ⟨rfl,rfl⟩ := Prod.mk.inj (Except.ok.inj h)
      exact ⟨erase_unseen hc (fun hsame => htenant (congrArg some hsame)) ..,rfl⟩
    | runRetentionSweep => simp [Op.concerns] at hother
    | _ => simp [Op.redacts] at hred
  | false =>
    cases hroute : op.route with
    | some route =>
      have hne : route.event.tenantId ≠ t :=
        fun hsame => htenant ((Op.route_event hroute).1.trans (congrArg some hsame))
      cases Op.ran hf hroute h with
      | redelivered => exact ⟨rfl,rfl⟩
      | captured e hslot hdup =>
        exact ⟨(grows_withNewLead hc hf).ownRows_eq hids hne,
          by simpa [leadReceived,Route.event] using hne⟩
      | attached e l hslot hdup =>
        obtain ⟨hl,hm⟩ := findDuplicate_mem hdup
        exact ⟨(grows_withDuplicate hl hm.1).ownRows_eq hids hne,rfl⟩
      | stopped e stage reason hslot hfree =>
        exact ⟨(grows_withTerminalLead hc hf stage reason).ownRows_eq hids hne,rfl⟩
    | none =>
      cases Op.plain hroute hred with
      | raises err hexec => cases (hexec s f).symm.trans h
      | skips hexec =>
        obtain ⟨rfl,rfl⟩ := Prod.mk.inj (Except.ok.inj ((hexec s f).symm.trans h))
        exact ⟨rfl,rfl⟩
      | blocks tenantId row extra ht hexec =>
        obtain ⟨rfl,rfl⟩ := Prod.mk.inj (Except.ok.inj ((hexec s f).symm.trans h))
        have hne : tenantId ≠ t := fun hsame => htenant (ht.trans (congrArg some hsame))
        exact ⟨(grows_withBlockedLead hc hf row extra).ownRows_eq hids hne,rfl⟩
      | logs r ht hid hexec =>
        obtain ⟨rfl,rfl⟩ := Prod.mk.inj (Except.ok.inj ((hexec s f).symm.trans h))
        exact ⟨ownRows_insertLog_of_ne (ht f ▸ htenant),rfl⟩

/-- The write of an event of the tenant does to the rows of the tenant what it does to the
store. -/
theorem Route.seen {route : Route} (hc : Consistent s) (hf : f.For s)
    (hs : Slotted t own s) (ht : route.event.tenantId = t) (hown : own route.event.platformEventId) :
    Alike (fun a b => b = (ownRows t a.1,a.2)) (route.run s f) (route.run (ownRows t s) f) := by
  have hforeign : ∀ r ∈ s.logs, r.platformEventId = route.event.platformEventId →
      r.tenantId = some route.event.tenantId := by
    intro r hr hpid
    rw [ht]
    exact (hs r hr).mpr (hpid ▸ hown)
  have hforeign' : ∀ r ∈ (ownRows t s).logs, r.platformEventId = route.event.platformEventId →
      r.tenantId = some route.event.tenantId :=
    fun r hr => hforeign r (List.mem_filter.mp hr).1
  have hno : ¬ ForeignLead s route.event := fun ⟨r,hr,hpid,hne,_⟩ => hne (hforeign r hr hpid)
  have hno' : ¬ ForeignLead (ownRows t s) route.event :=
    fun ⟨r,hr,hpid,hne,_⟩ => hne (hforeign' r hr hpid)
  have hagree : AgreeOn route.event.tenantId s (ownRows t s) := ht ▸ agreeOn_ownRows
  have hsame := Route.agree hc hc.ownRows hf (for_ownRows hf) hagree hno
    (fun ⟨r,hr,hpid,hne,_⟩ => hne (hforeign r hr hpid)) hno'
    fun ⟨r,hr,hpid,hne,_⟩ => hne (hforeign' r hr hpid)
  rw [ht] at hsame
  generalize hrun : route.run s f = x at hsame ⊢
  generalize hrun' : route.run (ownRows t s) f = y at hsame ⊢
  cases hsame with
  | raised err => exact .raised err
  | @answered c s₁ s₂ h =>
    have hconfined := (Route.own hf hc hno hrun).2
    have hconfined' := (Route.own (for_ownRows hf) hc.ownRows hno' hrun').2
    rw [ht] at hconfined'
    have hview : ownRows t s₁ = s₂ := by
      refine ownRows_eq_of_agree h (hconfined'.ownRows_eq ownRows_ownRows) ?_ ?_
      · rw [hconfined.retentionLogs,hconfined'.retentionLogs]
        rfl
      · rw [hconfined.erasureLogs,hconfined'.erasureLogs]
        rfl
    exact .returned (by rw [hview])

/-- What an operation does that concerns the tenant it does to the rows of the tenant as well, with
the same answer. -/
theorem Op.seen (hc : Consistent s) (hf : f.For s) (hs : Slotted t own s) (ha : op.Apart t own)
    (hconcerns : op.concerns t = true) :
    Alike (fun a b => b = (ownRows t a.1,a.2)) (op.exec s f) (op.exec (ownRows t s) f) := by
  cases hred : op.redacts with
  | true =>
    cases op with
    | eraseLeadByIdentity t' phone email who =>
      obtain rfl : t' = t := by simpa [Op.concerns,Op.tenant] using hconcerns
      exact .returned (congrArg (·,none) (erase_ownRows ..))
    | runRetentionSweep settings => exact .returned (congrArg (·,none) (sweep_ownRows hc ..))
    | _ => simp [Op.redacts] at hred
  | false =>
    have htenant := Op.tenant_of_concerns hconcerns hred
    cases hroute : op.route with
    | some route =>
      obtain ⟨ht,hid⟩ := Op.route_event hroute
      have hsame := Route.seen hc hf hs (Option.some.inj (ht.symm.trans htenant))
        ((ha _ hid).mp htenant)
      rw [Op.exec_route hroute,Op.exec_route hroute]
      generalize route.run s f = x at hsame ⊢
      generalize route.run (ownRows t s) f = y at hsame ⊢
      cases hsame with
      | raised err => exact .raised _
      | returned h =>
        subst h
        exact .returned rfl
    | none =>
      cases Op.plain hroute hred with
      | raises err hexec =>
        rw [hexec,hexec]
        exact .raised err
      | skips hexec =>
        rw [hexec,hexec]
        exact .returned rfl
      | blocks tenantId row extra ht hexec =>
        obtain rfl := Option.some.inj (ht.symm.trans htenant)
        rw [hexec,hexec]
        refine .returned (congrArg (·,none) (Eq.symm ?_))
        apply ownRows_eq_of_agree
        · exact agreeOn_ownRows.grow (grows_withBlockedLead hc hf row extra)
            (grows_withBlockedLead hc.ownRows (for_ownRows hf) row extra)
        · exact (grows_withBlockedLead hc.ownRows (for_ownRows hf) row extra).confined.ownRows_eq
            ownRows_ownRows
        · rfl
        · rfl
      | logs r ht hid hexec =>
        rw [hexec,hexec]
        have hslot := hs.slotTaken_iff ((ha _ (hid f)).mp htenant)
        exact .returned (congrArg (·,none) (ownRows_insertLog ((ht f).trans htenant) hslot).symm)

end Steps

section Histories

variable [Interpreter] {t : UUID} {own : String → Prop} {ops : List Op} {op : Op} {w w' : World}
  {a : Attempt} {tr : List (Transition World Attempt)}

/-- No operation of the tenant shares its event id with one that is not. -/
def ApartFrom (t : UUID) (ops : List Op) : Prop :=
  ∀ op ∈ ops, ∀ other ∈ ops, op.tenant = some t → other.tenant ≠ some t →
    op.eventId = other.eventId → op.eventId = none

instance (t : UUID) (ops : List Op) : Decidable (ApartFrom t ops) := by
  unfold ApartFrom; infer_instance

def OwnIds (t : UUID) (ops : List Op) (id : String) : Prop :=
  ∃ op ∈ ops, op.tenant = some t ∧ op.eventId = some id

theorem ApartFrom.apart (h : ApartFrom t ops) (hop : op ∈ ops) : op.Apart t (OwnIds t ops) := by
  intro id hid
  constructor
  · intro ht
    exact ⟨op,hop,ht,hid⟩
  · rintro ⟨mine,hmine,ht,hid'⟩
    by_contra hne
    have hnone := h mine hmine op hop ht hne (hid'.trans hid.symm)
    rw [hid'] at hnone
    cases hnone

theorem Step.slotted (hs : Slotted t own w.store) (ha : a.op.Apart t own) (h : Step w a w') :
    Slotted t own w'.store := by
  cases h with
  | commit hf hexec => exact Op.slotted hf hs ha hexec
  | rollback => exact hs

theorem Step.seen (hc : Consistent w.store) (hs : Slotted t own w.store) (ha : a.op.Apart t own)
    (hconcerns : a.op.concerns t = true) (h : Step w a w') : Step (seenBy t w) a (seenBy t w') := by
  cases h with
  | rollback => exact .rollback _ _ _
  | @commit op f s received hf hexec =>
    obtain ⟨answer,hanswer,rfl⟩ := (Op.seen hc hf hs ha hconcerns).ok hexec
    have hreceived : (received.toList.filter fun r => r.tenantId = t) = received.toList := by
      apply List.filter_eq_self.mpr
      intro r hr
      obtain rfl := Option.mem_toList.mp hr
      have ht := Op.tenant_received hf hexec
      have hred : op.redacts = false := by
        cases hred : op.redacts with
        | false => rfl
        | true => cases (Op.redaction hred hexec).2
      have hsame := Option.some.inj (ht.symm.trans (Op.tenant_of_concerns hconcerns hred))
      simpa using hsame
    have hstep := Step.commit (w:=seenBy t w) (for_ownRows hf) hanswer
    simpa only [seenBy,List.filter_append,hreceived] using hstep

theorem Step.unseen (hc : Consistent w.store) (hother : a.op.concerns t = false)
    (h : Step w a w') : seenBy t w' = seenBy t w := by
  cases h with
  | rollback => rfl
  | commit hf hexec =>
    obtain ⟨hrows,hreceived⟩ := Op.unseen hc hf hother hexec
    rw [seenBy,hrows,List.filter_append,hreceived,List.append_nil,seenBy]

theorem seen_of_path (h : Path Step .empty tr w) (hapart : ∀ x ∈ tr, x.2.1.op.Apart t own) :
    (Consistent w.store ∧ Slotted t own w.store) ∧
      ∃ tr', Path Step .empty tr' (seenBy t w) ∧
        tr'.map (fun x => x.2.1) = (tr.map fun x => x.2.1).filter fun a => a.op.concerns t :=
  projects (I:=fun w => Consistent w.store ∧ Slotted t own w.store) (seenBy t)
    (fun a : Attempt => a.op.concerns t) h hapart ⟨consistent_empty,fun r hr => by cases hr⟩
    (fun _ _ _ hI ha hstep => ⟨hstep.consistent hI.1,hstep.slotted hI.2 ha⟩)
    (fun _ _ _ hI ha hkept hstep => hstep.seen hI.1 hI.2 ha hkept)
    fun _ _ _ hI _ hdropped hstep => hstep.unseen hI.1 hdropped

/-- Unless another tenant's operation has an event id of the tenant's, the tenant sees after every
history what its own operations and the sweeps alone lead to, and each further operation that
concerns it raises the same, or announces and writes the same, as if no other tenant were there. -/
theorem tenant_alone (h : Path Step .empty tr w)
    (hapart : ApartFrom t (tr.map fun x => x.2.1.op)) :
    (∃ tr', Path Step .empty tr' (seenBy t w) ∧
      tr'.map (fun x => x.2.1) = (tr.map fun x => x.2.1).filter fun a => a.op.concerns t) ∧
    ∀ op f, f.For w.store → op.concerns t = true →
      ApartFrom t (op :: tr.map fun x => x.2.1.op) →
      Alike (fun a b => b = (ownRows t a.1,a.2)) (op.exec w.store f)
        (op.exec (seenBy t w).store f) := by
  constructor
  · exact (seen_of_path h fun x hx => hapart.apart (List.mem_map_of_mem hx)).2
  · intro op f hf hconcerns hfurther
    obtain ⟨hc,hs⟩ := (seen_of_path h fun x hx =>
      hfurther.apart (List.mem_cons_of_mem _ (List.mem_map_of_mem hx))).1
    exact Op.seen hc hf hs (hfurther.apart List.mem_cons_self) hconcerns

end Histories

def twoTenants : List (Op × Fresh) :=
  [(.runCapture (pageMessage 1 "m.1"),.nth 1),(.runCapture (pageMessage 2 "m.2"),.nth 2),
    (.eraseLeadByIdentity 1 none (some "bob@x.org") "dpo",.nth 3),
    (.runRetentionSweep ⟨365,90⟩,.nth 4)]

/-- Bob's erasure at tenant 1 leaves him with tenant 2, as if tenant 1 had never been there. -/
theorem other_tenant_alone :
    letI := Interpreter.ascii id
    (∃ tr', Path Step .empty tr' (seenBy 2 (play .empty twoTenants)) ∧
      tr'.map (fun x => x.2.1) = [⟨.runCapture (pageMessage 2 "m.2"),.nth 2,true⟩,
        ⟨.runRetentionSweep ⟨365,90⟩,.nth 4,true⟩]) ∧
      (seenBy 2 (play .empty twoTenants)).store.leads.map Lead.email = [some "bob@x.org"] := by
  let := Interpreter.ascii id
  obtain ⟨⟨tr',hpath,hmap⟩,_⟩ := tenant_alone (t:=2) (path_trace .empty twoTenants)
    (by decide +kernel)
  refine ⟨⟨tr',hpath,hmap.trans ?_⟩,by decide +kernel⟩
  rfl

end History
end LeadEngine
