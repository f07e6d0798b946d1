import LeadEngine.Permanence

/-! Retention over runs: what a sweep leaves behind and what it leaves alone, the audit row
of each anonymised lead, and the payloads that stay in the log rows of such a lead. -/
namespace LeadEngine
namespace History

open Table Repository Deduplicator Pipeline Erasure Retention FileUpload
open TransitionSystem

def Overdue (now : Time) (settings : RetentionSettings) (l : Lead) : Prop :=
  l.createdAt < cutoff now settings.leadDataRetentionDays

/-- A sweep anonymises the lead: it is overdue and in no final stage yet. -/
def Due (now : Time) (settings : RetentionSettings) (l : Lead) : Prop :=
  Overdue now settings l ∧ l.pipelineStage ≠ .anonymised ∧ l.pipelineStage ≠ .erased

instance (now : Time) (settings : RetentionSettings) (l : Lead) :
    Decidable (Overdue now settings l) := by unfold Overdue; infer_instance

instance (now : Time) (settings : RetentionSettings) (l : Lead) :
    Decidable (Due now settings l) := by unfold Due; infer_instance

/-- No personal column of the lead is left, and no payload in it or its touchpoints. -/
structure Anonymous (s : Store) (l : Lead) : Prop where
  stage : l.pipelineStage = .anonymised ∨ l.pipelineStage = .erased
  fullName : l.fullName = none
  phone : l.phone = none
  email : l.email = none
  location : l.location = none
  extraFields : l.extraFields = none
  rawEventJson : l.rawEventJson.Tombstoned
  touchpoints : ∀ t ∈ s.touchpoints, t.leadId = l.id → t.rawEventJson.Tombstoned

/-- The touchpoint belongs to a lead inside the window. -/
def Current (s : Store) (now : Time) (settings : RetentionSettings) (t : LeadTouchpoint) : Prop :=
  ∃ l ∈ s.leads, l.id = t.leadId ∧ ¬ Overdue now settings l

instance (s : Store) (now : Time) (settings : RetentionSettings) (t : LeadTouchpoint) :
    Decidable (Current s now settings t) := by unfold Current; infer_instance

/-- What holds right after a sweep, and the rows that it leaves as they were. -/
structure SweptAt (now : Time) (settings : RetentionSettings) (s s' : Store) : Prop where
  overdue : ∀ l ∈ s'.leads, Overdue now settings l → Anonymous s' l
  oldLogs : ∀ r ∈ s'.logs, logDue now settings.intakeLogRetentionDays r →
    r.rawEventJson.Tombstoned
  leads : s'.leads.filter (fun l => ¬ Overdue now settings l) =
    s.leads.filter fun l => ¬ Overdue now settings l
  touchpoints : s'.touchpoints.filter (fun t => Current s now settings t) =
    s.touchpoints.filter fun t => Current s now settings t
  logs : s'.logs.filter (fun r => ¬ logDue now settings.intakeLogRetentionDays r) =
    s.logs.filter fun r => ¬ logDue now settings.intakeLogRetentionDays r

def auditRows (s : Store) (leadId : UUID) : List RetentionEventLog :=
  s.retentionLogs.filter fun r => r.leadId = leadId

/-- A lead has one audit row once it is anonymised, and none before. -/
def AuditedOnce (s : Store) : Prop :=
  ∀ l ∈ s.leads, (auditRows s l.id).length = if l.pipelineStage = .anonymised then 1 else 0

instance (s : Store) : Decidable (AuditedOnce s) := by unfold AuditedOnce; infer_instance

def TouchpointsAnonymous (s : Store) : Prop :=
  ∀ l ∈ s.leads, l.pipelineStage = .anonymised →
    ∀ t ∈ s.touchpoints, t.leadId = l.id → t.rawEventJson.Tombstoned

def LogsAnonymous (s : Store) : Prop :=
  ∀ l ∈ s.leads, l.pipelineStage = .anonymised →
    ∀ r ∈ s.logs, r.leadId = some l.id → r.rawEventJson.Tombstoned

instance (s : Store) : Decidable (TouchpointsAnonymous s) := by
  unfold TouchpointsAnonymous; infer_instance

instance (s : Store) : Decidable (LogsAnonymous s) := by unfold LogsAnonymous; infer_instance

/-- The invariant of retention: the audit rows and the touchpoints agree with the stages. -/
structure Retained (s : Store) : Prop where
  audited : AuditedOnce s
  known : ∀ r ∈ s.retentionLogs, ∃ l ∈ s.leads, l.id = r.leadId
  touchpoints : TouchpointsAnonymous s

theorem retained_empty : Retained .empty := by
  constructor <;> simp [Store.empty,AuditedOnce,TouchpointsAnonymous]

section Sweep

def dueIds (s : Store) (now : Time) (settings : RetentionSettings) : List UUID :=
  (leadsDue s now settings.leadDataRetentionDays).map Lead.id

variable {s : Store} (now : Time) (settings : RetentionSettings)

theorem mem_leadsDue {l : Lead} : l ∈ leadsDue s now settings.leadDataRetentionDays ↔
    l ∈ s.leads ∧ Due now settings l := by
  simp [leadsDue,Due,Overdue]

theorem mem_dueIds {i : UUID} :
    i ∈ dueIds s now settings ↔ ∃ l ∈ s.leads, Due now settings l ∧ l.id = i := by
  simp only [dueIds,List.mem_map,mem_leadsDue,and_assoc]

theorem id_mem_dueIds (hids : (s.leads.map Lead.id).Nodup) {l : Lead} (hl : l ∈ s.leads) :
    l.id ∈ dueIds s now settings ↔ Due now settings l := by
  rw [mem_dueIds]
  constructor
  · rintro ⟨x,hx,hdue,hid⟩
    rwa [← (uniqueOn_some_iff.mpr hids).eq_of_key hx hl (congrArg some hid) rfl]
  · exact fun hdue => ⟨l,hl,hdue,rfl⟩

theorem sweep_leads (hids : (s.leads.map Lead.id).Nodup) :
    (Retention.runRetentionSweep s now settings).1.leads =
      s.leads.map fun l => if Due now settings l then anonymisedLead now l else l := by
  simp only [Retention.runRetentionSweep,foldl_anonymiseLead]
  refine List.map_congr_left fun l hl => ?_
  exact if_congr (id_mem_dueIds now settings hids hl) rfl rfl

theorem sweep_touchpoints : (Retention.runRetentionSweep s now settings).1.touchpoints =
    s.touchpoints.map fun t => if t.leadId ∈ dueIds s now settings then
      { t with rawEventJson := .anonymised now } else t := by
  simp only [Retention.runRetentionSweep,foldl_anonymiseLead]
  rfl

theorem sweep_logs : (Retention.runRetentionSweep s now settings).1.logs =
    s.logs.map fun r => if logDue now settings.intakeLogRetentionDays r then
      { r with rawEventJson := .anonymised now } else r := by
  simp only [Retention.runRetentionSweep,foldl_anonymiseLead]
  rfl

theorem sweep_retentionLogs : (Retention.runRetentionSweep s now settings).1.retentionLogs =
    s.retentionLogs ++ (leadsDue s now settings.leadDataRetentionDays).map fun l =>
      ⟨l.id,l.tenantId,settings.leadDataRetentionDays⟩ := by
  simp only [Retention.runRetentionSweep,foldl_anonymiseLead]

theorem auditRows_sweep (hids : (s.leads.map Lead.id).Nodup) {l : Lead} (hl : l ∈ s.leads) :
    (auditRows (Retention.runRetentionSweep s now settings).1 l.id).length =
      (auditRows s l.id).length + if Due now settings l then 1 else 0 := by
  have hrow : s.leads.filter (fun x => x.id = l.id) = [l] := by
    have h := (uniqueOn_some_iff.mpr hids).rowsAt_eq hl rfl
    simpa [rowsAt] using h
  have hdue : (leadsDue s now settings.leadDataRetentionDays).filter (fun x => x.id = l.id) =
      [l].filter fun x => Due now settings x := by
    rw [← hrow,leadsDue,List.filter_comm]
    rfl
  rw [auditRows,auditRows,sweep_retentionLogs,List.filter_append,List.length_append,
    List.filter_map,List.length_map]
  congr 1
  refine (congrArg List.length hdue).trans ?_
  by_cases h : Due now settings l <;> simp [h]

end Sweep

theorem filter_map_kept {α : Type} {g : α → α} {p : α → Bool} {rows : List α}
    (hp : ∀ r ∈ rows, p (g r) = p r) (hg : ∀ r ∈ rows, p r → g r = r) :
    (rows.map g).filter p = rows.filter p := by
  have hsame : rows.filter (p ∘ g) = rows.filter p := List.filter_congr hp
  rw [List.filter_map,hsame]
  refine (List.map_congr_left fun r hr => ?_).trans (List.map_id _)
  exact hg r (List.mem_filter.mp hr).1 (List.mem_filter.mp hr).2

section Invariant

variable [Interpreter] {s s' : Store} {f : Fresh} {received : Option LeadReceived}

/-- Added rows are not linked to a lead in a final stage, and no such lead is added. -/
theorem Added.final_rows (h : Added s f s' received) (hf : f.For s) (hc : Consistent s) {l : Lead}
    (hl : l ∈ s'.leads) (hstage : l.pipelineStage = .erased ∨ l.pipelineStage = .anonymised) :
    l ∈ s.leads ∧ (∀ t ∈ s'.touchpoints, t.leadId = l.id → t ∈ s.touchpoints) ∧
      ∀ r ∈ s'.logs, r.leadId = some l.id → r ∈ s.logs := by
  have hold : ∀ x : Lead, ¬ (x.pipelineStage = .erased ∨ x.pipelineStage = .anonymised) →
      l ∈ s.leads ++ [x] → l ∈ s.leads := fun x hx hmem => mem_of_mem_append hmem fun h =>
    hx (h ▸ hstage)
  have htouchpoint : ∀ x : LeadTouchpoint, x.leadId ≠ l.id → ∀ t ∈ s.touchpoints ++ [x],
      t.leadId = l.id → t ∈ s.touchpoints := fun x hx t hmem hlead => mem_of_mem_append hmem fun h =>
    hx (h ▸ hlead)
  have hlog : ∀ x : IntakeEventLog, x.leadId ≠ some l.id → ∀ r ∈ s.logs ++ [x],
      r.leadId = some l.id → r ∈ s.logs := fun x hx r hmem hlead => mem_of_mem_append hmem fun h =>
    hx (h ▸ hlead)
  have hnew : l ∈ s.leads → f.leadId ≠ l.id := fun hmem => (hf.lead l hmem).symm
  cases h with
  | same => exact ⟨hl,fun t ht _ => ht,fun r hr _ => hr⟩
  | captured e =>
    have hmem := hold (newLead f e) (by simp [newLead]) hl
    exact ⟨hmem,htouchpoint (buildTouchpoint f (newLead f e) e) (hnew hmem),
      hlog (settledLog f e f.leadId .received) fun h => hnew hmem (Option.some.inj h)⟩
  | attached e existing _ hdup =>
    have hne := hc.duplicate_ne_scrubbed hdup hl hstage
    exact ⟨hl,htouchpoint (buildTouchpoint f existing e) hne,
      hlog (settledLog f e existing.id .duplicate) fun h => hne (Option.some.inj h)⟩
  | stopped e stage reason =>
    have hmem := hold (terminalLead f e stage reason) (by simp [terminalLead]) hl
    exact ⟨hmem,fun t ht _ => ht,
      hlog (settledLog f e f.leadId (.terminal stage)) fun h => hnew hmem (Option.some.inj h)⟩
  | blocked t row extra =>
    have hmem := hold _ (by simp [blockedLead]) hl
    exact ⟨hmem,fun t ht _ => ht,fun r hr _ => hr⟩
  | orphaned r _ _ hlead =>
    exact ⟨hl,fun t ht _ => ht,hlog r (by simp [hlead])⟩

omit [Interpreter] in
theorem auditRows_fresh (h : ∀ r ∈ s.retentionLogs, ∃ l ∈ s.leads, l.id = r.leadId) {i : UUID}
    (hi : ∀ l ∈ s.leads, l.id ≠ i) : auditRows s i = [] := by
  rw [auditRows,List.filter_eq_nil_iff]
  intro r hr
  obtain ⟨l,hl,hid⟩ := h r hr
  simpa [← hid] using hi l hl

theorem Retained.added (h : Retained s) (hadded : Added s f s' received) (hf : f.For s)
    (hc : Consistent s) : Retained s' := by
  obtain ⟨⟨new,hleads⟩,haudit,_⟩ := hadded.grows
  have hrows : ∀ i, auditRows s' i = auditRows s i := fun i => by rw [auditRows,auditRows,haudit]
  constructor
  · intro l hl
    rw [hrows]
    by_cases hmem : l ∈ s.leads
    · exact h.audited l hmem
    · -- a lead that was not there is new: it has a fresh id and no final stage
      have hstage : l.pipelineStage ≠ .anonymised := fun hstage =>
        hmem (hadded.final_rows hf hc hl (Or.inr hstage)).1
      rw [if_neg hstage,auditRows_fresh h.known,List.length_nil]
      intro x hx hid
      have hx' : x ∈ s'.leads := by rw [hleads]; exact List.mem_append_left _ hx
      have hids := (hadded.change.consistent hf hc).leadIds
      exact hmem ((uniqueOn_some_iff.mpr hids).eq_of_key hx' hl (congrArg some hid) rfl ▸ hx)
  · intro r hr
    rw [haudit] at hr
    obtain ⟨l,hl,hid⟩ := h.known r hr
    exact ⟨l,by rw [hleads]; exact List.mem_append_left _ hl,hid⟩
  · intro l hl hstage t ht hlead
    obtain ⟨hold,htps,_⟩ := hadded.final_rows hf hc hl (Or.inr hstage)
    exact h.touchpoints l hold hstage t (htps t ht hlead) hlead

omit [Interpreter] in
theorem anonymised_of_eraseIds {now : Time} {ids : List UUID} {erasureLogs : List ErasureEventLog}
    {l : Lead} (hl : l ∈ ({ eraseIds now s ids with erasureLogs := erasureLogs } : Store).leads)
    (hstage : l.pipelineStage = .anonymised) : l ∈ s.leads := by
  obtain ⟨x,hx,rfl⟩ := List.mem_map.mp hl
  by_cases hid : x.id ∈ ids
  · rw [if_pos hid] at hstage
    simp [erasedLead,scrub] at hstage
  · rwa [if_neg hid]

omit [Interpreter] in
theorem Retained.erased (h : Retained s) (now : Time) {ids : List UUID}
    (erasureLogs : List ErasureEventLog)
    (hids : ∀ l ∈ s.leads, l.pipelineStage = .erased ∨ l.pipelineStage = .anonymised →
      l.id ∉ ids) : Retained { eraseIds now s ids with erasureLogs := erasureLogs } := by
  have hrows : ∀ i, auditRows { eraseIds now s ids with erasureLogs := erasureLogs } i =
      auditRows s i := fun _ => rfl
  constructor
  · intro l' hl'
    obtain ⟨l,hl,rfl⟩ := List.mem_map.mp hl'
    rw [hrows]
    by_cases hid : l.id ∈ ids
    · have hstage : l.pipelineStage ≠ .anonymised := fun hstage =>
        hids l hl (Or.inr hstage) hid
      have hnone := h.audited l hl
      rw [if_neg hstage] at hnone
      simpa [hid,erasedLead,scrub] using hnone
    · simpa only [if_neg hid] using h.audited l hl
  · intro r hr
    obtain ⟨l,hl,hid⟩ := h.known r hr
    refine ⟨_,List.mem_map_of_mem hl,?_⟩
    split_ifs
    · exact hid
    · exact hid
  · intro l hl hstage t' ht' hlead
    obtain ⟨t,ht,rfl⟩ := List.mem_map.mp ht'
    split_ifs at hlead ⊢
    · trivial
    · exact h.touchpoints l (anonymised_of_eraseIds hl hstage) hstage t ht hlead

omit [Interpreter] in
theorem swept_stage (now : Time) (settings : RetentionSettings) (l : Lead) :
    (if Due now settings l then anonymisedLead now l else l).pipelineStage = .anonymised ↔
      Due now settings l ∨ l.pipelineStage = .anonymised := by
  by_cases h : Due now settings l <;> simp [h,anonymisedLead,scrub]

omit [Interpreter] in
theorem Retained.swept (h : Retained s) (hc : Consistent s) (now : Time)
    (settings : RetentionSettings) : Retained (Retention.runRetentionSweep s now settings).1 := by
  have hid : ∀ l : Lead, (if Due now settings l then anonymisedLead now l else l).id = l.id := by
    intro l
    split_ifs <;> rfl
  constructor
  · intro l' hl'
    rw [sweep_leads now settings hc.leadIds] at hl'
    obtain ⟨l,hl,rfl⟩ := List.mem_map.mp hl'
    rw [hid,auditRows_sweep now settings hc.leadIds hl,h.audited l hl]
    by_cases hdue : Due now settings l
    · simp [hdue,hdue.2.1,anonymisedLead,scrub]
    · simp [hdue]
  · intro r hr
    have hknown : ∃ l ∈ s.leads, l.id = r.leadId := by
      rw [sweep_retentionLogs,List.mem_append,List.mem_map] at hr
      obtain hr | ⟨l,hl,rfl⟩ := hr
      · exact h.known r hr
      · exact ⟨l,((mem_leadsDue now settings).mp hl).1,rfl⟩
    obtain ⟨l,hl,hlead⟩ := hknown
    rw [sweep_leads now settings hc.leadIds]
    exact ⟨_,List.mem_map_of_mem hl,(hid l).trans hlead⟩
  · intro l' hl' hstage t' ht' hlead
    rw [sweep_leads now settings hc.leadIds] at hl'
    rw [sweep_touchpoints] at ht'
    obtain ⟨l,hl,rfl⟩ := List.mem_map.mp hl'
    obtain ⟨t,ht,rfl⟩ := List.mem_map.mp ht'
    rw [swept_stage] at hstage
    rw [hid] at hlead
    split_ifs at hlead ⊢ with hdue
    · trivial
    · obtain hnow | hbefore := hstage
      · exact absurd ((mem_dueIds now settings).mpr ⟨l,hl,hnow,hlead.symm⟩) hdue
      · exact h.touchpoints l hl hbefore t ht hlead

theorem Step.retained {w w' : World} {a : Attempt} (hc : Consistent w.store)
    (h : Retained w.store) (hs : Step w a w') : Retained w'.store := by
  cases hs with
  | rollback => exact h
  | @commit op f s received hf hexec =>
    cases hred : op.redacts with
    | false => exact h.added (Op.added hf hred hexec) hf hc
    | true =>
      cases op with
      | eraseLeadByIdentity t phone email who =>
        simp only [Op.exec,Except.ok.injEq,Prod.mk.injEq] at hexec
        obtain ⟨ids,logs,hstore,hids⟩ := hc.erasure_store f.now t phone email who
        rw [← hexec.1,hstore]
        exact h.erased f.now logs hids
      | runRetentionSweep settings =>
        simp only [Op.exec,Except.ok.injEq,Prod.mk.injEq] at hexec
        rw [← hexec.1]
        exact h.swept hc f.now settings
      | _ => simp [Op.redacts] at hred

theorem retained_of_reachable {w : World} (h : Reachable Step .empty w) : Retained w.store := by
  have hinv : Consistent w.store ∧ Retained w.store := by
    refine h.invariant (I := fun w => Consistent w.store ∧ Retained w.store)
      ⟨consistent_empty,retained_empty⟩ ?_
    rintro w a w' ⟨hc,hr⟩ hs
    exact ⟨Step.consistent hc hs,Step.retained hc hr hs⟩
  exact hinv.2

omit [Interpreter] in
theorem anonymous_of_final (hc : Consistent s) (h : Retained s) {l : Lead} (hl : l ∈ s.leads)
    (hstage : l.pipelineStage = .anonymised ∨ l.pipelineStage = .erased) : Anonymous s l := by
  obtain ⟨stage,tombstone,htomb,hscrub⟩ := hc.scrubbed l hl hstage.symm
  have hrows : ∀ t ∈ s.touchpoints, t.leadId = l.id → t.rawEventJson.Tombstoned := by
    obtain hstage | hstage := hstage
    · exact h.touchpoints l hl hstage
    · exact (hc.erasedRows l hl hstage).1
  refine ⟨hstage,?_,?_,?_,?_,?_,?_,hrows⟩ <;> rw [hscrub]
  · rfl
  · rfl
  · rfl
  · rfl
  · rfl
  · exact htomb

omit [Interpreter] in
/-- A sweep that finds the invariant leaves the overdue rows anonymous and the rest alone. -/
theorem sweptAt_of_retained (hc : Consistent s) (h : Retained s) (now : Time)
    (settings : RetentionSettings)
    (hc' : Consistent (Retention.runRetentionSweep s now settings).1) :
    SweptAt now settings s (Retention.runRetentionSweep s now settings).1 := by
  have hcreated : ∀ l : Lead, Overdue now settings
      (if Due now settings l then anonymisedLead now l else l) ↔ Overdue now settings l := by
    intro l
    split_ifs <;> rfl
  constructor
  · intro l' hl' hoverdue
    refine anonymous_of_final hc' (h.swept hc now settings) hl' ?_
    rw [sweep_leads now settings hc.leadIds] at hl'
    obtain ⟨l,_,rfl⟩ := List.mem_map.mp hl'
    rw [hcreated] at hoverdue
    by_cases hdue : Due now settings l
    · exact Or.inl ((swept_stage now settings l).mpr (Or.inl hdue))
    · -- an overdue lead that is not due is in a final stage already
      rw [if_neg hdue]
      by_contra hstage
      rw [not_or] at hstage
      exact hdue ⟨hoverdue,hstage⟩
  · intro r' hr' hold
    rw [sweep_logs] at hr'
    obtain ⟨r,hr,rfl⟩ := List.mem_map.mp hr'
    split_ifs at hold ⊢ with hdue
    · trivial
    · exact absurd hold hdue
  · rw [sweep_leads now settings hc.leadIds]
    refine filter_map_kept (fun l _ => ?_) fun l _ hkept => ?_
    · simp only [hcreated]
    · simp only [decide_not,Bool.not_eq_eq_eq_not,Bool.not_true,decide_eq_false_iff_not] at hkept
      exact if_neg fun hdue => hkept hdue.1
  · rw [sweep_touchpoints]
    refine filter_map_kept (fun t _ => ?_) fun t _ hkept => ?_
    · split_ifs <;> rfl
    · obtain ⟨l,hl,hid,hcurrent⟩ := of_decide_eq_true hkept
      refine if_neg fun hdue => hcurrent ?_
      rw [← hid,id_mem_dueIds now settings hc.leadIds hl] at hdue
      exact hdue.1
  · rw [sweep_logs]
    refine filter_map_kept (fun r _ => ?_) fun r _ hkept => ?_
    · split_ifs <;> rfl
    · exact if_neg (of_decide_eq_true hkept)

/-- In every run each anonymised lead has one audit row and no other lead has any; and a sweep
leaves every overdue lead anonymous with its touchpoints, every log row past its own window
tombstoned, and every row inside its window as it was. -/
theorem retention_over_runs {w : World} (h : Reachable Step .empty w) :
    AuditedOnce w.store ∧ ∀ settings f w', Step w ⟨.runRetentionSweep settings,f,true⟩ w' →
      SweptAt f.now settings w.store w'.store := by
  have hc := consistent_of_reachable h
  have hr := retained_of_reachable h
  refine ⟨hr.audited,fun settings f w' hstep => ?_⟩
  have hc' := Step.consistent hc hstep
  cases hstep with
  | commit hf hexec =>
    simp only [Op.exec,Except.ok.injEq,Prod.mk.injEq] at hexec
    rw [← hexec.1] at hc' ⊢
    exact sweptAt_of_retained hc hr f.now settings hc'

end Invariant

def onDay (n : ℕ) (day : ℤ) : Fresh := ⟨n,n,n,day * 86400⟩

def retentionSettings : RetentionSettings := ⟨730,180⟩

def aliceEvent (platformEventId : String) : Op :=
  .runCapture (.ofMessage 1 platformEventId (some "Alice") (some "+49 30 1") none none "offer?")

/-- A contact, a second message of it, another contact, a sweep past the first contact's
window, and a redelivery. -/
def retentionRun : List (Op × Fresh) :=
  [(aliceEvent "a",onDay 1 0),(aliceEvent "b",onDay 2 100),
    (.runCapture (.ofMessage 1 "c" none (some "+49 30 2") none none "hello"),onDay 3 600),
    (.runRetentionSweep retentionSettings,onDay 4 731),(aliceEvent "a",onDay 5 732)]

theorem retention_run_swept :
    letI := Interpreter.ascii id
    let w := play .empty retentionRun
    let sweep : Op := .runRetentionSweep retentionSettings
    w.store.leads.map (fun l => (l.pipelineStage,(auditRows w.store l.id).length)) =
      [(.anonymised,1),(.captured,0)] ∧ AuditedOnce w.store ∧
      SweptAt (onDay 6 733).now retentionSettings w.store (sweep.tried w (onDay 6 733)).2.store := by
  let := Interpreter.ascii id
  have hfresh : (onDay 6 733).For (play .empty retentionRun).store := by decide +kernel
  have hrun := retention_over_runs (reachable_play .empty retentionRun)
  exact ⟨by decide +kernel,hrun.1,
    hrun.2 _ _ _ (Op.step_tried (.runRetentionSweep retentionSettings) hfresh)⟩

/-- Every log row of a lead that the sweep anonymises is past its own window, if it still
holds its payload. -/
def LogsDueToo (s : Store) (now : Time) (settings : RetentionSettings) : Prop :=
  ∀ l ∈ s.leads, Due now settings l → ∀ r ∈ s.logs, r.leadId = some l.id →
    ¬ r.rawEventJson.Tombstoned → logDue now settings.intakeLogRetentionDays r

instance (s : Store) (now : Time) (settings : RetentionSettings) :
    Decidable (LogsDueToo s now settings) := by unfold LogsDueToo; infer_instance

def SweepsLogsToo (w : World) (a : Attempt) : Prop :=
  a.commits = true → ∀ settings, a.op = .runRetentionSweep settings →
    LogsDueToo w.store a.fresh.now settings

theorem logsAnonymous_sweep_iff {s : Store} (hids : (s.leads.map Lead.id).Nodup)
    (hlogs : LogsAnonymous s) (now : Time) (settings : RetentionSettings) :
    LogsAnonymous (Retention.runRetentionSweep s now settings).1 ↔ LogsDueToo s now settings := by
  rw [LogsAnonymous,sweep_leads now settings hids,sweep_logs]
  constructor
  · intro h l hl hdue r hr hlead hpayload
    by_contra hrecent
    have hkept := h _ (List.mem_map_of_mem hl) ((swept_stage now settings l).mpr (Or.inl hdue)) _
      (List.mem_map_of_mem hr)
    rw [if_pos hdue,if_neg hrecent] at hkept
    exact hpayload (hkept hlead)
  · intro h l' hl' hstage r' hr' hlead
    obtain ⟨l,hl,rfl⟩ := List.mem_map.mp hl'
    obtain ⟨r,hr,rfl⟩ := List.mem_map.mp hr'
    rw [swept_stage] at hstage
    have hid : (if Due now settings l then anonymisedLead now l else l).id = l.id := by
      split_ifs <;> rfl
    rw [hid] at hlead
    split_ifs at hlead ⊢ with hold
    · trivial
    · obtain hnow | hbefore := hstage
      · by_contra hpayload
        exact hold (h l hl hnow r hr hlead hpayload)
      · exact hlogs l hl hbefore r hr hlead

/-- A committed operation other than a sweep puts no payload into a log row of an anonymised
lead. -/
theorem logsAnonymous_commit_iff [Interpreter] {s s' : Store} {op : Op} {f : Fresh}
    {received : Option LeadReceived} (hf : f.For s) (hc : Consistent s) (hlogs : LogsAnonymous s)
    (h : op.exec s f = .ok (s',received)) :
    LogsAnonymous s' ↔ ∀ settings, op = .runRetentionSweep settings →
      LogsDueToo s f.now settings := by
  cases hred : op.redacts with
  | false =>
    have hno : ∀ settings, op ≠ .runRetentionSweep settings := by
      rintro settings rfl
      simp [Op.redacts] at hred
    refine iff_of_true ?_ fun settings hop => absurd hop (hno settings)
    intro l hl hstage r hr hlead
    obtain ⟨hold,_,hrows⟩ := (Op.added hf hred h).final_rows hf hc hl (Or.inr hstage)
    exact hlogs l hold hstage r (hrows r hr hlead) hlead
  | true =>
    cases op with
    | eraseLeadByIdentity t phone email who =>
      refine iff_of_true ?_ (by simp)
      simp only [Op.exec,Except.ok.injEq,Prod.mk.injEq] at h
      obtain ⟨ids,logs,hstore,_⟩ := hc.erasure_store f.now t phone email who
      rw [← h.1,hstore]
      intro l hl hstage r' hr' hlead
      obtain ⟨r,hr,rfl⟩ := List.mem_map.mp hr'
      split_ifs at hlead ⊢
      · trivial
      · exact hlogs l (anonymised_of_eraseIds hl hstage) hstage r hr hlead
    | runRetentionSweep settings =>
      simp only [Op.exec,Except.ok.injEq,Prod.mk.injEq] at h
      rw [← h.1,logsAnonymous_sweep_iff hc.leadIds hlogs]
      simp
    | _ => simp [Op.redacts] at hred

/-- In a run no touchpoint and no log row of an anonymised lead holds a payload exactly when at
every sweep the log rows of the leads it anonymises are past their own window. -/
theorem really_anonymous_iff [Interpreter] {tr : List (Transition World Attempt)} {w : World}
    (h : Path Step .empty tr w) :
    (∀ tr₁ w₁, tr₁ <+: tr → Path Step .empty tr₁ w₁ →
      TouchpointsAnonymous w₁.store ∧ LogsAnonymous w₁.store) ↔
      ∀ x ∈ tr, SweepsLogsToo x.1 x.2.1 := by
  apply Path.always_iff_guard (P := fun _ w => TouchpointsAnonymous w.store ∧
    LogsAnonymous w.store) (G := SweepsLogsToo) _ _ h
  · simp [TouchpointsAnonymous,LogsAnonymous,World.empty,Store.empty]
  · rintro tr w a w' hpath ⟨_,hlogs⟩ hstep
    rw [and_iff_right (retained_of_reachable (hpath.reachable.tail hstep)).touchpoints]
    cases hstep with
    | rollback => simp [SweepsLogsToo,hlogs]
    | commit hf hexec =>
      rw [logsAnonymous_commit_iff hf (consistent_of_reachable hpath.reachable) hlogs hexec]
      simp [SweepsLogsToo]

/-- A contact whose messages are all older than the log window when the contact is overdue. -/
def quietRun : List (Op × Fresh) :=
  [(aliceEvent "a",onDay 1 0),(aliceEvent "b",onDay 2 100),
    (.runRetentionSweep retentionSettings,onDay 3 731)]

theorem quiet_contact_really_anonymous :
    letI := Interpreter.ascii id
    let w := play .empty quietRun
    w.store.leads.map Lead.pipelineStage = [.anonymised] ∧
      TouchpointsAnonymous w.store ∧ LogsAnonymous w.store := by
  let := Interpreter.ascii id
  have hguard : ∀ x ∈ trace .empty quietRun, SweepsLogsToo x.1 x.2.1 := by
    have hsteps : (trace .empty quietRun).all (fun x => match x.2.1.op with
        | .runRetentionSweep settings => LogsDueToo x.1.store x.2.1.fresh.now settings
        | _ => true) = true := by decide +kernel
    intro x hx _ settings hop
    have hx := List.all_eq_true.mp hsteps x hx
    simpa [hop] using hx
  exact ⟨by decide +kernel,(really_anonymous_iff (path_trace .empty quietRun)).mpr hguard _ _
    List.prefix_rfl (path_trace .empty quietRun)⟩

def talkativeRun : List (Op × Fresh) :=
  [(aliceEvent "a",onDay 1 0),(aliceEvent "b",onDay 2 700),
    (.runRetentionSweep retentionSettings,onDay 3 731)]

/-- The sweep empties the touchpoint of the last message and keeps its log row. -/
theorem late_message_outlives_sweep :
    letI := Interpreter.ascii id
    let w := play .empty talkativeRun
    Reachable Step .empty w ∧ w.store.leads.map Lead.pipelineStage = [.anonymised] ∧
      TouchpointsAnonymous w.store ∧ ¬ LogsAnonymous w.store := by
  let := Interpreter.ascii id
  exact ⟨reachable_play _ _,by decide +kernel,by decide +kernel,by decide +kernel⟩

end History
end LeadEngine
