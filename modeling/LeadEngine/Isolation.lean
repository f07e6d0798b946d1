import LeadEngine.Admission
import LeadEngine.Redelivery

/-! Isolation of tenants on the capture path. What an event does to its tenant is compared
between two stores that hold the same rows of that tenant. -/
namespace LeadEngine
namespace History

open Fallible Table Interpreter Repository Deduplicator TwoStageFilter Pipeline
open TransitionSystem

/-- The rows of a tenant; a touchpoint belongs to the tenant of its lead. -/
def leadsOf (t : UUID) (s : Store) : List Lead := s.leads.filter fun l => l.tenantId = t

def logsOf (t : UUID) (s : Store) : List IntakeEventLog :=
  s.logs.filter fun r => r.tenantId = some t

def OwnTouchpoint (t : UUID) (s : Store) (p : LeadTouchpoint) : Prop :=
  ∃ l ∈ s.leads, l.id = p.leadId ∧ l.tenantId = t

instance (t : UUID) (s : Store) (p : LeadTouchpoint) : Decidable (OwnTouchpoint t s p) := by
  unfold OwnTouchpoint; infer_instance

def touchpointsOfTenant (t : UUID) (s : Store) : List LeadTouchpoint :=
  s.touchpoints.filter fun p => OwnTouchpoint t s p

structure AgreeOn (t : UUID) (s₁ s₂ : Store) : Prop where
  leads : leadsOf t s₁ = leadsOf t s₂
  logs : logsOf t s₁ = logsOf t s₂
  touchpoints : touchpointsOfTenant t s₁ = touchpointsOfTenant t s₂

/-- Every row that is written belongs to the tenant or to one of its leads, and no row is
changed. -/
structure Confined (t : UUID) (s s' : Store) : Prop where
  leads : ∃ new, s'.leads = s.leads ++ new ∧ ∀ l ∈ new, l.tenantId = t
  logs : ∃ new, s'.logs = s.logs ++ new ∧ ∀ r ∈ new, r.tenantId = some t
  touchpoints : ∃ new, s'.touchpoints = s.touchpoints ++ new ∧ ∀ p ∈ new, OwnTouchpoint t s' p
  retentionLogs : s'.retentionLogs = s.retentionLogs
  erasureLogs : s'.erasureLogs = s.erasureLogs

theorem Confined.refl (t : UUID) (s : Store) : Confined t s s where
  leads := ⟨[],(List.append_nil _).symm,by simp⟩
  logs := ⟨[],(List.append_nil _).symm,by simp⟩
  touchpoints := ⟨[],(List.append_nil _).symm,by simp⟩
  retentionLogs := rfl
  erasureLogs := rfl

section Agreement

variable {t : UUID} {s₁ s₂ : Store}

theorem AgreeOn.symm (h : AgreeOn t s₁ s₂) : AgreeOn t s₂ s₁ :=
  ⟨h.leads.symm,h.logs.symm,h.touchpoints.symm⟩

theorem AgreeOn.mem_leads (h : AgreeOn t s₁ s₂) {l : Lead} (hl : l ∈ s₁.leads)
    (ht : l.tenantId = t) : l ∈ s₂.leads := by
  have hmem : l ∈ leadsOf t s₁ := List.mem_filter.mpr ⟨hl,by simpa using ht⟩
  rw [h.leads] at hmem
  exact (List.mem_filter.mp hmem).1

theorem AgreeOn.mem_logs (h : AgreeOn t s₁ s₂) {r : IntakeEventLog} (hr : r ∈ s₁.logs)
    (ht : r.tenantId = some t) : r ∈ s₂.logs := by
  have hmem : r ∈ logsOf t s₁ := List.mem_filter.mpr ⟨hr,by simpa using ht⟩
  rw [h.logs] at hmem
  exact (List.mem_filter.mp hmem).1

theorem filter_leadsOf (s : Store) (t : UUID) (p : Lead → Prop) [DecidablePred p] :
    (s.leads.filter fun l => l.tenantId = t ∧ p l) = (leadsOf t s).filter fun l => p l := by
  rw [leadsOf,List.filter_filter]
  apply List.filter_congr
  intro l _
  by_cases h : p l <;> simp [h]

variable [Interpreter]

theorem findDuplicate_congr (h : AgreeOn t s₁ s₂) (e : NormalisedChannelEvent) :
    findDuplicate s₁ t e = findDuplicate s₂ t e := by
  have hphone : lookupPhone s₁ t e = lookupPhone s₂ t e := by
    unfold lookupPhone getLeadByPhone
    simp only [filter_leadsOf,h.leads]
  have hemail : lookupEmail s₁ t e = lookupEmail s₂ t e := by
    unfold lookupEmail getLeadByEmail
    simp only [filter_leadsOf,h.leads]
  have hplace : lookupPlace s₁ t e = lookupPlace s₂ t e := by
    unfold lookupPlace getLeadByNameAndLocation
    simp only [filter_leadsOf,h.leads]
  rw [findDuplicate,findDuplicate,hphone,hemail,hplace]

theorem phoneFree_congr {e : NormalisedChannelEvent} (h : AgreeOn e.tenantId s₁ s₂) :
    PhoneFree s₁ e ↔ PhoneFree s₂ e := by
  constructor
  · intro hfree p hp l hl ht
    exact hfree p hp l (h.symm.mem_leads hl ht) ht
  · intro hfree p hp l hl ht
    exact hfree p hp l (h.mem_leads hl ht) ht

end Agreement

/-- The three functions that process an event for its tenant. -/
inductive Entry
  | capture
  | terminal (stage : TerminalStage) (blockReason : Option String)
  | message (ans : Answers)

section Entries

variable [Interpreter]

def Entry.route (e : NormalisedChannelEvent) : Entry → Except MessageError Route
  | .capture => .ok (.capture e)
  | .terminal stage blockReason => .ok (.terminal e stage blockReason)
  | .message ans => routeMessage e ans

def Entry.run (s : Store) (f : Fresh) (e : NormalisedChannelEvent) :
    Entry → Except MessageError (Store × Captured)
  | .capture => (runCapture s f e).mapError .capture
  | .terminal stage blockReason =>
    (createTerminalLead s f e stage blockReason).mapError .capture
  | .message ans => runCaptureMessage s f e ans

theorem Entry.run_eq (p : Entry) (s : Store) (f : Fresh) (e : NormalisedChannelEvent) :
    p.run s f e = (p.route e).bind fun route => (route.run s f).mapError .capture := by
  cases p with
  | capture | terminal => rfl
  | message ans =>
    simp only [Entry.run,Entry.route,runCaptureMessage]
    cases routeMessage e ans with
    | error err => rfl
    | ok route =>
      simp only [Except.bind]
      cases route.run s f <;> rfl

theorem Entry.route_event {p : Entry} {e : NormalisedChannelEvent} {route : Route}
    (h : p.route e = .ok route) :
    route.event.tenantId = e.tenantId ∧ route.event.platformEventId = e.platformEventId := by
  cases p with
  | capture | terminal =>
    obtain rfl := Except.ok.inj h
    exact ⟨rfl,rfl⟩
  | message ans =>
    obtain ⟨ht,hpid,_⟩ := routeMessage_event h
    exact ⟨ht,hpid⟩

theorem Entry.run_ok {p : Entry} {s s' : Store} {f : Fresh} {e : NormalisedChannelEvent}
    {c : Captured} (h : p.run s f e = .ok (s',c)) :
    ∃ route, p.route e = .ok route ∧ route.run s f = .ok (s',c) := by
  rw [Entry.run_eq] at h
  obtain ⟨route,hroute,hrun⟩ := bind_eq_ok.mp h
  exact ⟨route,hroute,mapError_eq_ok.mp hrun⟩

end Entries

inductive SameAnswer {ε : Type} (t : UUID) :
    Except ε (Store × Captured) → Except ε (Store × Captured) → Prop
  | raised (err : ε) : SameAnswer t (.error err) (.error err)
  | answered (c : Captured) {s₁ s₂ : Store} (h : AgreeOn t s₁ s₂) :
      SameAnswer t (.ok (s₁,c)) (.ok (s₂,c))

theorem SameAnswer.symm {ε : Type} {t : UUID} {x y : Except ε (Store × Captured)}
    (h : SameAnswer t x y) : SameAnswer t y x := by
  cases h with
  | raised err => exact .raised err
  | answered c h => exact .answered c h.symm

/-- The event is processed for its tenant alone: the lead returned and the rows written are
the tenant's, and a store with the same rows of the tenant gives the same answer. -/
structure Isolated [Interpreter] (s₁ s₂ : Store) (f : Fresh) (e : NormalisedChannelEvent) :
    Prop where
  own : ∀ s ∈ [s₁,s₂], ∀ (p : Entry) s' c, p.run s f e = .ok (s',c) →
    c.lead.tenantId = e.tenantId ∧ Confined e.tenantId s s'
  same : ∀ p : Entry, SameAnswer e.tenantId (p.run s₁ f e) (p.run s₂ f e)

/-- A log row of the event that is not the tenant's: one that leads to a lead of another
tenant, and one that leads nowhere. -/
def ForeignLead (s : Store) (e : NormalisedChannelEvent) : Prop :=
  ∃ r ∈ s.logs, r.platformEventId = e.platformEventId ∧ r.tenantId ≠ some e.tenantId ∧
    r.leadId ≠ none

def ForeignGap (s : Store) (e : NormalisedChannelEvent) : Prop :=
  ∃ r ∈ s.logs, r.platformEventId = e.platformEventId ∧ r.tenantId ≠ some e.tenantId ∧
    r.leadId = none

instance (s : Store) (e : NormalisedChannelEvent) : Decidable (ForeignLead s e) := by
  unfold ForeignLead; infer_instance

instance (s : Store) (e : NormalisedChannelEvent) : Decidable (ForeignGap s e) := by
  unfold ForeignGap; infer_instance

structure Grows (t : UUID) (s s' : Store) (leads : List Lead) (logs : List IntakeEventLog)
    (touchpoints : List LeadTouchpoint) : Prop where
  leads_eq : s'.leads = s.leads ++ leads
  logs_eq : s'.logs = s.logs ++ logs
  touchpoints_eq : s'.touchpoints = s.touchpoints ++ touchpoints
  retentionLogs_eq : s'.retentionLogs = s.retentionLogs
  erasureLogs_eq : s'.erasureLogs = s.erasureLogs
  fresh : ∀ l ∈ leads, ∀ p ∈ s.touchpoints, l.id ≠ p.leadId
  ownLeads : ∀ l ∈ leads, l.tenantId = t
  ownLogs : ∀ r ∈ logs, r.tenantId = some t
  ownTouchpoints : ∀ p ∈ touchpoints, OwnTouchpoint t s' p

section Grows

variable {t : UUID} {s s' : Store} {leads : List Lead} {logs : List IntakeEventLog}
  {touchpoints : List LeadTouchpoint}

theorem Grows.refl (t : UUID) (s : Store) : Grows t s s [] [] [] where
  leads_eq := (List.append_nil _).symm
  logs_eq := (List.append_nil _).symm
  touchpoints_eq := (List.append_nil _).symm
  retentionLogs_eq := rfl
  erasureLogs_eq := rfl
  fresh := by simp
  ownLeads := by simp
  ownLogs := by simp
  ownTouchpoints := by simp

theorem Grows.confined (h : Grows t s s' leads logs touchpoints) : Confined t s s' where
  leads := ⟨leads,h.leads_eq,h.ownLeads⟩
  logs := ⟨logs,h.logs_eq,h.ownLogs⟩
  touchpoints := ⟨touchpoints,h.touchpoints_eq,h.ownTouchpoints⟩
  retentionLogs := h.retentionLogs_eq
  erasureLogs := h.erasureLogs_eq

theorem Grows.leadsOf_eq (h : Grows t s s' leads logs touchpoints) :
    leadsOf t s' = leadsOf t s ++ leads := by
  rw [leadsOf,leadsOf,h.leads_eq,List.filter_append]
  congr 1
  apply List.filter_eq_self.mpr
  intro l hl
  simpa using h.ownLeads l hl

theorem Grows.logsOf_eq (h : Grows t s s' leads logs touchpoints) :
    logsOf t s' = logsOf t s ++ logs := by
  rw [logsOf,logsOf,h.logs_eq,List.filter_append]
  congr 1
  apply List.filter_eq_self.mpr
  intro r hr
  simpa using h.ownLogs r hr

theorem Grows.ownTouchpoint_iff (h : Grows t s s' leads logs touchpoints) {t' : UUID}
    {p : LeadTouchpoint} (hp : p ∈ s.touchpoints) :
    OwnTouchpoint t' s' p ↔ OwnTouchpoint t' s p := by
  unfold OwnTouchpoint
  rw [h.leads_eq]
  constructor
  · rintro ⟨l,hl,hid,ht⟩
    rcases List.mem_append.mp hl with hl | hl
    · exact ⟨l,hl,hid,ht⟩
    · exact absurd hid (h.fresh l hl p hp)
  · rintro ⟨l,hl,hid,ht⟩
    exact ⟨l,List.mem_append_left _ hl,hid,ht⟩

theorem Grows.touchpointsOfTenant_eq (h : Grows t s s' leads logs touchpoints) :
    touchpointsOfTenant t s' = touchpointsOfTenant t s ++ touchpoints := by
  rw [touchpointsOfTenant,touchpointsOfTenant,h.touchpoints_eq,List.filter_append]
  congr 1
  · apply List.filter_congr
    intro p hp
    simp [h.ownTouchpoint_iff hp]
  · apply List.filter_eq_self.mpr
    intro p hp
    simpa using h.ownTouchpoints p hp

theorem AgreeOn.grow {s₁ s₂ s₁' s₂' : Store} (h : AgreeOn t s₁ s₂)
    (h₁ : Grows t s₁ s₁' leads logs touchpoints) (h₂ : Grows t s₂ s₂' leads logs touchpoints) :
    AgreeOn t s₁' s₂' where
  leads := by rw [h₁.leadsOf_eq,h₂.leadsOf_eq,h.leads]
  logs := by rw [h₁.logsOf_eq,h₂.logsOf_eq,h.logs]
  touchpoints := by rw [h₁.touchpointsOfTenant_eq,h₂.touchpointsOfTenant_eq,h.touchpoints]

end Grows

section Writes

variable [Interpreter] {s : Store} {f : Fresh} {e : NormalisedChannelEvent}

omit [Interpreter] in
theorem Consistent.fresh_lead (hc : Consistent s) (hf : f.For s) {p : LeadTouchpoint}
    (hp : p ∈ s.touchpoints) : f.leadId ≠ p.leadId := by
  obtain ⟨l,hl,hid⟩ := hc.touchpointLead p hp
  rw [← hid]
  exact (hf.lead l hl).symm

theorem grows_withNewLead (hc : Consistent s) (hf : f.For s) :
    Grows e.tenantId s (withNewLead s f e) [newLead f e] [settledLog f e f.leadId .received]
      [buildTouchpoint f (newLead f e) e] where
  leads_eq := rfl
  logs_eq := rfl
  touchpoints_eq := rfl
  retentionLogs_eq := rfl
  erasureLogs_eq := rfl
  fresh := by
    intro l hl p hp
    rw [List.mem_singleton.mp hl]
    exact hc.fresh_lead hf hp
  ownLeads := by simp [newLead]
  ownLogs := by simp [settledLog,pendingLog]
  ownTouchpoints := by
    intro p hp
    rw [List.mem_singleton.mp hp]
    exact ⟨newLead f e,by simp [withNewLead],rfl,rfl⟩

omit [Interpreter] in
theorem grows_withDuplicate {l : Lead} (hl : l ∈ s.leads) (ht : l.tenantId = e.tenantId) :
    Grows e.tenantId s (withDuplicate s f e l) [] [settledLog f e l.id .duplicate]
      [buildTouchpoint f l e] where
  leads_eq := (List.append_nil _).symm
  logs_eq := rfl
  touchpoints_eq := rfl
  retentionLogs_eq := rfl
  erasureLogs_eq := rfl
  fresh := by simp
  ownLeads := by simp
  ownLogs := by simp [settledLog,pendingLog]
  ownTouchpoints := by
    intro p hp
    rw [List.mem_singleton.mp hp]
    exact ⟨l,hl,rfl,ht⟩

theorem grows_withTerminalLead (hc : Consistent s) (hf : f.For s) (stage : TerminalStage)
    (reason : Option String) :
    Grows e.tenantId s (withTerminalLead s f e stage reason) [terminalLead f e stage reason]
      [settledLog f e f.leadId (.terminal stage)] [] where
  leads_eq := rfl
  logs_eq := rfl
  touchpoints_eq := (List.append_nil _).symm
  retentionLogs_eq := rfl
  erasureLogs_eq := rfl
  fresh := by
    intro l hl p hp
    rw [List.mem_singleton.mp hl]
    exact hc.fresh_lead hf hp
  ownLeads := by simp [terminalLead]
  ownLogs := by simp [settledLog,pendingLog]
  ownTouchpoints := by simp

end Writes

section Redelivered

variable [Interpreter] {s : Store} {e : NormalisedChannelEvent}

omit [Interpreter] in
theorem Consistent.redelivered_unlinked (hc : Consistent s) {r : IntakeEventLog}
    (hr : r ∈ s.logs) (he : r.platformEventId = e.platformEventId) (hnone : r.leadId = none) :
    Pipeline.redelivered s e = .error (.noLinkedLead e.platformEventId) := by
  have hfind : getLeadByPlatformEventId s e.platformEventId = .ok none := by
    apply getLeadByPlatformEventId_none
    intro x hx hpid
    have hsame := (uniqueOn_some_iff.mpr hc.slots).eq_of_key hx hr
      (congrArg some (hpid.trans he.symm)) rfl
    rw [hsame]
    exact hnone
  simp [Pipeline.redelivered,hfind]

omit [Interpreter] in
theorem Consistent.redelivered_linked (hc : Consistent s) {r : IntakeEventLog}
    (hr : r ∈ s.logs) (he : r.platformEventId = e.platformEventId) (hlink : r.leadId ≠ none) :
    ∃ l ∈ s.leads, r.tenantId = some l.tenantId ∧ r.leadId = some l.id ∧
      Pipeline.redelivered s e = .ok (s,⟨l,none⟩) := by
  obtain ⟨i,hi⟩ := Option.ne_none_iff_exists'.mp hlink
  obtain ⟨l,hl,hid,hanswer⟩ := hc.redelivered hr hi
  obtain ⟨l',hl',hid',ht⟩ := hc.logLead r hr i hi
  have hsame := (uniqueOn_some_iff.mpr hc.leadIds).eq_of_key hl' hl
    (congrArg some (hid'.trans hid.symm)) rfl
  exact ⟨l,hl,hsame ▸ ht,hid ▸ hi,hanswer e he.symm⟩

theorem Route.own {route : Route} {s' : Store} {f : Fresh} {c : Captured} (hf : f.For s)
    (hc : Consistent s) (hno : ¬ ForeignLead s route.event)
    (h : route.run s f = .ok (s',c)) :
    c.lead.tenantId = route.event.tenantId ∧ Confined route.event.tenantId s s' := by
  by_cases hslot : SlotTaken s route.event.platformEventId
  · obtain ⟨r,hr,hpid⟩ := hslot
    rw [Route.run_taken ⟨r,hr,hpid⟩] at h
    by_cases hlink : r.leadId = none
    · simp [hc.redelivered_unlinked hr hpid hlink] at h
    · obtain ⟨l,_,ht,_,hanswer⟩ := hc.redelivered_linked hr hpid hlink
      rw [hanswer] at h
      obtain ⟨rfl,rfl⟩ := Prod.mk.inj (Except.ok.inj h)
      have hown : r.tenantId = some route.event.tenantId := by
        by_contra hforeign
        exact hno ⟨r,hr,hpid,hforeign,hlink⟩
      exact ⟨Option.some.inj (ht.symm.trans hown),Confined.refl _ _⟩
  · cases Route.wrote hf hslot h with
    | captured e => exact ⟨rfl,(grows_withNewLead hc hf).confined⟩
    | attached e l hdup =>
      obtain ⟨hl,hm⟩ := findDuplicate_mem hdup
      exact ⟨hm.1,(grows_withDuplicate hl hm.1).confined⟩
    | stopped e stage reason =>
      exact ⟨rfl,(grows_withTerminalLead hc hf stage reason).confined⟩

end Redelivered

section TwoRuns

variable [Interpreter] {s s₁ s₂ : Store} {f : Fresh} {e : NormalisedChannelEvent}

omit [Interpreter] in
theorem SameAnswer.mapError {ε ε' : Type} {t : UUID} {x y : Except ε (Store × Captured)}
    (g : ε → ε') (h : SameAnswer t x y) : SameAnswer t (x.mapError g) (y.mapError g) := by
  cases h with
  | raised err => exact .raised (g err)
  | answered c h => exact .answered c h

omit [Interpreter] in
theorem own_row (hno : ¬ ForeignLead s e) (hgap : ¬ ForeignGap s e) {r : IntakeEventLog}
    (hr : r ∈ s.logs) (hpid : r.platformEventId = e.platformEventId) :
    r.tenantId = some e.tenantId := by
  by_contra hforeign
  by_cases hlink : r.leadId = none
  · exact hgap ⟨r,hr,hpid,hforeign,hlink⟩
  · exact hno ⟨r,hr,hpid,hforeign,hlink⟩

omit [Interpreter] in
theorem redelivered_agree (hc₁ : Consistent s₁) (hc₂ : Consistent s₂)
    (hagree : AgreeOn e.tenantId s₁ s₂) {r : IntakeEventLog} (hr : r ∈ s₁.logs)
    (hpid : r.platformEventId = e.platformEventId) (ht : r.tenantId = some e.tenantId) :
    SameAnswer e.tenantId (redelivered s₁ e) (redelivered s₂ e) := by
  have hr₂ := hagree.mem_logs hr ht
  by_cases hlink : r.leadId = none
  · rw [hc₁.redelivered_unlinked hr hpid hlink,hc₂.redelivered_unlinked hr₂ hpid hlink]
    exact .raised _
  · obtain ⟨l₁,hl₁,ht₁,hid₁,hanswer₁⟩ := hc₁.redelivered_linked hr hpid hlink
    obtain ⟨l₂,hl₂,_,hid₂,hanswer₂⟩ := hc₂.redelivered_linked hr₂ hpid hlink
    have hmem := hagree.mem_leads hl₁ (Option.some.inj (ht₁.symm.trans ht))
    have hid : l₁.id = l₂.id := Option.some.inj (hid₁.symm.trans hid₂)
    have hsame := (uniqueOn_some_iff.mpr hc₂.leadIds).eq_of_key hmem hl₂ (congrArg some hid) rfl
    rw [hanswer₁,hanswer₂,hsame]
    exact .answered _ hagree

/-- Stores that agree on the tenant, with no foreign row in the slot, answer a write alike. -/
theorem Route.agree {route : Route} (hc₁ : Consistent s₁) (hc₂ : Consistent s₂)
    (hf₁ : f.For s₁) (hf₂ : f.For s₂) (hagree : AgreeOn route.event.tenantId s₁ s₂)
    (hno₁ : ¬ ForeignLead s₁ route.event) (hgap₁ : ¬ ForeignGap s₁ route.event)
    (hno₂ : ¬ ForeignLead s₂ route.event) (hgap₂ : ¬ ForeignGap s₂ route.event) :
    SameAnswer route.event.tenantId (route.run s₁ f) (route.run s₂ f) := by
  by_cases hslot : SlotTaken s₁ route.event.platformEventId
  · obtain ⟨r,hr,hpid⟩ := hslot
    have ht := own_row hno₁ hgap₁ hr hpid
    rw [Route.run_taken ⟨r,hr,hpid⟩,Route.run_taken ⟨r,hagree.mem_logs hr ht,hpid⟩]
    exact redelivered_agree hc₁ hc₂ hagree hr hpid ht
  have hslot₂ : ¬ SlotTaken s₂ route.event.platformEventId := by
    rintro ⟨r,hr,hpid⟩
    exact hslot ⟨r,hagree.symm.mem_logs hr (own_row hno₂ hgap₂ hr hpid),hpid⟩
  cases route with
  | terminal e stage reason =>
    replace hslot : ¬ SlotTaken s₁ e.platformEventId := hslot
    replace hslot₂ : ¬ SlotTaken s₂ e.platformEventId := hslot₂
    show SameAnswer e.tenantId (createTerminalLead s₁ f e stage reason)
      (createTerminalLead s₂ f e stage reason)
    by_cases hfree : PhoneFree s₁ e
    · rw [createTerminalLead_new hf₁ hslot hfree,
        createTerminalLead_new hf₂ hslot₂ ((phoneFree_congr hagree).mp hfree)]
      exact .answered _ (hagree.grow (grows_withTerminalLead hc₁ hf₁ stage reason)
        (grows_withTerminalLead hc₂ hf₂ stage reason))
    · rw [createTerminalLead_conflict hslot hfree,
        createTerminalLead_conflict hslot₂ (fun h => hfree ((phoneFree_congr hagree).mpr h))]
      exact .raised _
  | capture e =>
    replace hslot : ¬ SlotTaken s₁ e.platformEventId := hslot
    replace hslot₂ : ¬ SlotTaken s₂ e.platformEventId := hslot₂
    show SameAnswer e.tenantId (runCapture s₁ f e) (runCapture s₂ f e)
    have hdup := findDuplicate_congr hagree e
    cases hdup₁ : findDuplicate s₁ e.tenantId e with
    | error err =>
      rw [runCapture_error hslot hdup₁,runCapture_error hslot₂ (hdup.symm.trans hdup₁)]
      exact .raised _
    | ok found =>
      have hdup₂ := hdup.symm.trans hdup₁
      cases found with
      | none =>
        rw [runCapture_new hf₁ hslot hdup₁,runCapture_new hf₂ hslot₂ hdup₂]
        exact .answered _ (hagree.grow (grows_withNewLead hc₁ hf₁) (grows_withNewLead hc₂ hf₂))
      | some l =>
        obtain ⟨hl,hm⟩ := findDuplicate_mem hdup₁
        rw [runCapture_duplicate hf₁ hslot hdup₁,runCapture_duplicate hf₂ hslot₂ hdup₂]
        exact .answered _ (hagree.grow (grows_withDuplicate hl hm.1)
          (grows_withDuplicate (hagree.mem_leads hl hm.1) hm.1))

theorem Entry.same {t : UUID} (p : Entry)
    (h : ∀ route : Route, route.event.tenantId = e.tenantId →
      route.event.platformEventId = e.platformEventId →
      SameAnswer t (route.run s₁ f) (route.run s₂ f)) :
    SameAnswer t (p.run s₁ f e) (p.run s₂ f e) := by
  rw [Entry.run_eq,Entry.run_eq]
  cases hroute : p.route e with
  | error err => exact .raised err
  | ok route =>
    obtain ⟨ht,hpid⟩ := Entry.route_event hroute
    exact (h route ht hpid).mapError _

omit [Interpreter] in
theorem foreignLead_congr {e' : NormalisedChannelEvent} (ht : e'.tenantId = e.tenantId)
    (hpid : e'.platformEventId = e.platformEventId) : ForeignLead s e' ↔ ForeignLead s e := by
  rw [ForeignLead,ForeignLead,ht,hpid]

omit [Interpreter] in
theorem foreignGap_congr {e' : NormalisedChannelEvent} (ht : e'.tenantId = e.tenantId)
    (hpid : e'.platformEventId = e.platformEventId) : ForeignGap s e' ↔ ForeignGap s e := by
  rw [ForeignGap,ForeignGap,ht,hpid]

theorem foreignLead_returned (hc : Consistent s) (h : ForeignLead s e) (f : Fresh) :
    ∃ l, runCapture s f e = .ok (s,⟨l,none⟩) ∧ l.tenantId ≠ e.tenantId := by
  obtain ⟨r,hr,hpid,hforeign,hlink⟩ := h
  obtain ⟨l,_,ht,_,hanswer⟩ := hc.redelivered_linked hr hpid hlink
  refine ⟨l,?_,fun hsame => hforeign (by rw [ht,hsame])⟩
  rw [runCapture_taken ⟨r,hr,hpid⟩,hanswer]

/-- A slot taken by a foreign row without a lead keeps an event out that another store with the
same rows of the tenant captures. -/
theorem foreignGap_differs (hc₁ : Consistent s₁) (hc₂ : Consistent s₂) (hf₂ : f.For s₂)
    (hagree : AgreeOn e.tenantId s₁ s₂) (hgap₁ : ForeignGap s₁ e) (hno₂ : ¬ ForeignLead s₂ e)
    (hgap₂ : ¬ ForeignGap s₂ e) :
    ¬ SameAnswer e.tenantId (Entry.run s₁ f e .capture) (Entry.run s₂ f e .capture) := by
  obtain ⟨r,hr,hpid,hforeign,hnone⟩ := hgap₁
  have hslot₂ : ¬ SlotTaken s₂ e.platformEventId := by
    rintro ⟨x,hx,hxpid⟩
    have hown := own_row hno₂ hgap₂ hx hxpid
    have hsame := (uniqueOn_some_iff.mpr hc₁.slots).eq_of_key (hagree.symm.mem_logs hx hown) hr
      (congrArg some (hxpid.trans hpid.symm)) rfl
    exact hforeign (hsame ▸ hown)
  obtain ⟨s',c,hcommit,_⟩ := runCapture_commits hf₂ hc₂.identities hslot₂
  have hraise : runCapture s₁ f e = .error (.noLinkedLead e.platformEventId) := by
    rw [runCapture_taken ⟨r,hr,hpid⟩,hc₁.redelivered_unlinked hr hpid hnone]
  simp only [Entry.run,hraise,hcommit,Except.mapError]
  intro hsame
  cases hsame

/-- Two reachable stores with the same rows of a tenant process an event for the tenant alone
exactly when neither has another tenant's lead in the event's slot, and a foreign row without
a lead is in both slots or in none. -/
theorem isolated_iff {w₁ w₂ : World} (h₁ : Reachable Step .empty w₁)
    (h₂ : Reachable Step .empty w₂) (hf₁ : f.For w₁.store) (hf₂ : f.For w₂.store)
    (hagree : AgreeOn e.tenantId w₁.store w₂.store) :
    Isolated w₁.store w₂.store f e ↔ ¬ ForeignLead w₁.store e ∧ ¬ ForeignLead w₂.store e ∧
      (ForeignGap w₁.store e ↔ ForeignGap w₂.store e) := by
  have hc₁ := consistent_of_reachable h₁
  have hc₂ := consistent_of_reachable h₂
  constructor
  · intro h
    have hno : ∀ s ∈ [w₁.store,w₂.store], Consistent s → ¬ ForeignLead s e := by
      intro s hs hc hforeign
      obtain ⟨l,hrun,ht⟩ := foreignLead_returned hc hforeign f
      have hentry : Entry.run s f e .capture = .ok (s,⟨l,none⟩) := by
        simp [Entry.run,hrun,Except.mapError]
      exact ht (h.own s hs .capture s _ hentry).1
    have hno₁ := hno _ (by simp) hc₁
    have hno₂ := hno _ (by simp) hc₂
    refine ⟨hno₁,hno₂,?_,?_⟩
    · intro hgap₁
      by_contra hgap₂
      exact foreignGap_differs hc₁ hc₂ hf₂ hagree hgap₁ hno₂ hgap₂ (h.same .capture)
    · intro hgap₂
      by_contra hgap₁
      exact foreignGap_differs hc₂ hc₁ hf₁ hagree.symm hgap₂ hno₁ hgap₁ (h.same .capture).symm
  · rintro ⟨hno₁,hno₂,hgaps⟩
    constructor
    · intro s hs p s' c hrun
      have hs' : f.For s ∧ Consistent s ∧ ¬ ForeignLead s e := by
        obtain rfl | rfl : s = w₁.store ∨ s = w₂.store := by simpa using hs
        · exact ⟨hf₁,hc₁,hno₁⟩
        · exact ⟨hf₂,hc₂,hno₂⟩
      obtain ⟨route,hroute,hwrite⟩ := Entry.run_ok hrun
      obtain ⟨ht,hpid⟩ := Entry.route_event hroute
      have hown := Route.own hs'.1 hs'.2.1 (by rw [foreignLead_congr ht hpid]; exact hs'.2.2) hwrite
      rwa [ht] at hown
    · intro p
      apply Entry.same
      intro route ht hpid
      by_cases hgap : ForeignGap w₁.store e
      · have hgap₂ := hgaps.mp hgap
        obtain ⟨r₁,hr₁,hpid₁,_,hnone₁⟩ := hgap
        obtain ⟨r₂,hr₂,hpid₂,_,hnone₂⟩ := hgap₂
        rw [← hpid] at hpid₁ hpid₂
        rw [Route.run_taken ⟨r₁,hr₁,hpid₁⟩,Route.run_taken ⟨r₂,hr₂,hpid₂⟩,
          hc₁.redelivered_unlinked hr₁ hpid₁ hnone₁,hc₂.redelivered_unlinked hr₂ hpid₂ hnone₂]
        exact .raised _
      · rw [← ht]
        apply Route.agree hc₁ hc₂ hf₁ hf₂
        · rw [ht]
          exact hagree
        · rwa [foreignLead_congr ht hpid]
        · rwa [foreignGap_congr ht hpid]
        · rwa [foreignLead_congr ht hpid]
        · rw [foreignGap_congr ht hpid]
          exact fun hgap₂ => hgap (hgaps.mpr hgap₂)

end TwoRuns

/-- A page message that an account's first tenant captures, and the events of the account
after it was connected by tenant 2. -/
def pageMessage (tenantId : UUID) (platformEventId : String) : NormalisedChannelEvent :=
  .ofMessage tenantId platformEventId (some "Bob") none (some "bob@x.org") none "a quote, please"

def firstTenant [Interpreter] : World := play .empty [(.runCapture (pageMessage 1 "m.1"),.nth 1)]

theorem agreeOn_of_none {t : UUID} {s : Store} (hleads : (leadsOf t s).isEmpty)
    (hlogs : (logsOf t s).isEmpty) (htouchpoints : (touchpointsOfTenant t s).isEmpty) :
    AgreeOn t s .empty := by
  constructor
  · rw [List.isEmpty_iff.mp hleads]
    rfl
  · rw [List.isEmpty_iff.mp hlogs]
    rfl
  · rw [List.isEmpty_iff.mp htouchpoints]
    rfl

/-- The platform redelivers a message after the account moved: the new tenant is handed the
lead of the old one. -/
theorem moved_account_discloses :
    letI := Interpreter.ascii id
    Reachable Step .empty firstTenant ∧ AgreeOn 2 firstTenant.store World.empty.store ∧
      ¬ Isolated firstTenant.store World.empty.store (.nth 2) (pageMessage 2 "m.1") ∧
      ∃ l, runCapture firstTenant.store (.nth 2) (pageMessage 2 "m.1") =
        .ok (firstTenant.store,⟨l,none⟩) ∧ l.tenantId = 1 := by
  let := Interpreter.ascii id
  have hreach : Reachable Step .empty firstTenant := reachable_play _ _
  have hforeign : ForeignLead firstTenant.store (pageMessage 2 "m.1") := by decide +kernel
  have hleads : ∀ l ∈ firstTenant.store.leads, l.tenantId = 1 := by decide +kernel
  obtain ⟨r,hr,hpid,_,hlink⟩ := hforeign
  obtain ⟨l,hl,_,_,hanswer⟩ := (consistent_of_reachable hreach).redelivered_linked hr hpid hlink
  have hrun : runCapture firstTenant.store (.nth 2) (pageMessage 2 "m.1") =
      .ok (firstTenant.store,⟨l,none⟩) := by
    rw [runCapture_taken ⟨r,hr,hpid⟩,hanswer]
  refine ⟨hreach,agreeOn_of_none (by decide +kernel) (by decide +kernel) (by decide +kernel),?_,
    l,hrun,hleads l hl⟩
  intro h
  have hentry : Entry.run firstTenant.store (.nth 2) (pageMessage 2 "m.1") .capture =
      .ok (firstTenant.store,⟨l,none⟩) := by
    simp [Entry.run,hrun,Except.mapError]
  have htenant : l.tenantId = 2 := (h.own firstTenant.store (by simp) .capture _ _ hentry).1
  rw [hleads l hl] at htenant
  exact absurd htenant (by decide)

/-- A message with an id of its own stays with the new tenant. -/
theorem next_message_isolated :
    letI := Interpreter.ascii id
    Isolated firstTenant.store World.empty.store (.nth 2) (pageMessage 2 "m.2") := by
  let := Interpreter.ascii id
  have hagree : AgreeOn 2 firstTenant.store World.empty.store :=
    agreeOn_of_none (by decide +kernel) (by decide +kernel) (by decide +kernel)
  apply (isolated_iff (reachable_play _ _) Reachable.refl (by decide +kernel) (by decide +kernel)
    hagree).mpr
  exact ⟨by decide +kernel,by decide +kernel,by decide +kernel⟩

end History
end LeadEngine
