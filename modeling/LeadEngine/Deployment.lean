import LeadEngine.RetentionRuns

/-! The program as it is deployed: the jobs that the worker registers, the jobs and endpoints that
write the lead tables, and what becomes of a lead when nothing else is started. -/
namespace LeadEngine
namespace History

open Table Repository Pipeline FileUpload Erasure Retention
open TransitionSystem

inductive JobName
  | runOnboardingPipeline | runLeadCaptureBatch | runLeadCapture | runLeadAdCapture
  | runInstagramTokenRefresh | runLeadRetentionSweep
  deriving DecidableEq

namespace WorkerSettings

def functions : List JobName :=
  [.runOnboardingPipeline,.runLeadCaptureBatch,.runLeadCapture,.runLeadAdCapture]

def cronJobs : List JobName := [.runInstagramTokenRefresh]

end WorkerSettings

inductive Endpoint
  | uploadLeads | receiveWebhook | requestErasure
  deriving DecidableEq

inductive Starter
  | job (name : JobName)
  | endpoint (name : Endpoint)
  deriving DecidableEq

/-- Where an operation is called. The two captures without an entry are only called by others. -/
def Op.starter : Op → Option Starter
  | .runCapture _ | .createTerminalLead .. => none
  | .runCaptureMessage .. => some (.job .runLeadCapture)
  | .inlineRow .. => some (.endpoint .uploadLeads)
  | .batchRow .. => some (.job .runLeadCaptureBatch)
  | .runLeadAdCapture .. | .logFailedIntakeEvent .. => some (.job .runLeadAdCapture)
  | .logUnroutableEvent .. => some (.endpoint .receiveWebhook)
  | .eraseLeadByIdentity .. => some (.endpoint .requestErasure)
  | .runRetentionSweep _ => some (.job .runLeadRetentionSweep)

/-- The worker runs a job that it registers; an endpoint is always there. -/
def Starter.Runs : Starter → Prop
  | .job name => name ∈ WorkerSettings.functions ∨ name ∈ WorkerSettings.cronJobs
  | .endpoint _ => True

instance : DecidablePred Starter.Runs
  | .job _ => inferInstanceAs (Decidable (_ ∨ _))
  | .endpoint _ => inferInstanceAs (Decidable True)

def Op.Started (op : Op) : Prop := ∀ starter ∈ op.starter, starter.Runs

theorem not_started_sweep (settings : RetentionSettings) :
    ¬ (Op.runRetentionSweep settings).Started := by
  intro h
  exact absurd (h _ rfl) (by decide)

section Deployed

variable [Interpreter]

def DeployedStep (w : World) (a : Attempt) (w' : World) : Prop := Step w a w' ∧ a.op.Started

section Rows

variable {s s' : Store} {f : Fresh} {received : Option LeadReceived}

def LeadErased (s : Store) (i : UUID) : Prop :=
  ∃ l ∈ s.leads, l.id = i ∧ l.pipelineStage = .erased

/-- A row stays as it was inserted until its lead is erased. -/
structure Persists (s s' : Store) : Prop where
  leads : ∀ l ∈ s.leads, l ∈ s'.leads ∨ ∃ now, erasedLead now l ∈ s'.leads
  touchpoints : ∀ t ∈ s.touchpoints, t ∈ s'.touchpoints ∨ LeadErased s' t.leadId ∧
    ∃ now, { t with rawEventJson := .erased now } ∈ s'.touchpoints
  logs : ∀ r ∈ s.logs, r ∈ s'.logs ∨ (∃ i, r.leadId = some i ∧ LeadErased s' i) ∧
    ∃ now, { r with rawEventJson := .erased now } ∈ s'.logs
  retentionLogs : s'.retentionLogs = s.retentionLogs
  anonymised : ∀ l ∈ s'.leads, l.pipelineStage = .anonymised → l ∈ s.leads

omit [Interpreter] in
theorem Persists.refl (s : Store) : Persists s s where
  leads _ hl := .inl hl
  touchpoints _ ht := .inl ht
  logs _ hr := .inl hr
  retentionLogs := rfl
  anonymised _ hl _ := hl

theorem Added.persists (h : Added s f s' received) : Persists s s' := by
  obtain ⟨⟨new,hleads⟩,hretention,_⟩ := h.grows
  refine ⟨fun l hl => .inl ?_,fun t ht => .inl ?_,fun r hr => .inl ?_,hretention,
    fun l hl hstage => ?_⟩
  · rw [hleads]
    exact List.mem_append_left _ hl
  · cases h <;> first | exact ht | exact List.mem_append_left _ ht
  · cases h <;> first | exact hr | exact List.mem_append_left _ hr
  · have hnew : ∀ x : Lead, x.pipelineStage ≠ .anonymised → l ∈ s.leads ++ [x] → l ∈ s.leads :=
      fun x hx hmem => mem_of_mem_append hmem fun heq => hx (heq ▸ hstage)
    cases h with
    | same | attached | orphaned => exact hl
    | captured e => exact hnew (newLead f e) (by simp [newLead]) hl
    | stopped e stage reason =>
      exact hnew (terminalLead f e stage reason) (by simp [terminalLead]) hl
    | blocked t row extra => exact hnew _ (by simp [blockedLead]) hl

omit [Interpreter] in
theorem Persists.leadErased (h : Persists s s') {i : UUID} (herased : LeadErased s i) :
    LeadErased s' i := by
  obtain ⟨l,hl,hid,hstage⟩ := herased
  obtain hkept | ⟨now,hagain⟩ := h.leads l hl
  · exact ⟨l,hkept,hid,hstage⟩
  · exact ⟨erasedLead now l,hagain,hid,rfl⟩

omit [Interpreter] in
theorem Persists.trans {s'' : Store} (h : Persists s s') (h' : Persists s' s'') :
    Persists s s'' where
  leads l hl := by
    rcases h.leads l hl with hkept | ⟨now,herased⟩
    · exact h'.leads l hkept
    · obtain hkept | ⟨now',herased'⟩ := h'.leads _ herased
      · exact .inr ⟨now,hkept⟩
      · exact .inr ⟨now',herased'⟩
  touchpoints t ht := by
    rcases h.touchpoints t ht with hkept | ⟨hlead,now,herased⟩
    · exact h'.touchpoints t hkept
    · obtain hkept | ⟨_,now',herased'⟩ := h'.touchpoints _ herased
      · exact .inr ⟨h'.leadErased hlead,now,hkept⟩
      · exact .inr ⟨h'.leadErased hlead,now',herased'⟩
  logs r hr := by
    rcases h.logs r hr with hkept | ⟨⟨i,hi,hlead⟩,now,herased⟩
    · exact h'.logs r hkept
    · obtain hkept | ⟨_,now',herased'⟩ := h'.logs _ herased
      · exact .inr ⟨⟨i,hi,h'.leadErased hlead⟩,now,hkept⟩
      · exact .inr ⟨⟨i,hi,h'.leadErased hlead⟩,now',herased'⟩
  retentionLogs := h'.retentionLogs.trans h.retentionLogs
  anonymised l hl hstage := h.anonymised l (h'.anonymised l hl hstage) hstage

omit [Interpreter] in
theorem persists_eraseIds (hc : Consistent s) (now : Time) (ids : List UUID)
    (erasureLogs : List ErasureEventLog) :
    Persists s { eraseIds now s ids with erasureLogs := erasureLogs } := by
  have hleads : ∀ l ∈ s.leads, (if l.id ∈ ids then erasedLead now l else l) ∈
      (eraseIds now s ids).leads := fun l hl => List.mem_map_of_mem hl
  have herased : ∀ l ∈ s.leads, l.id ∈ ids → LeadErased (eraseIds now s ids) l.id := by
    intro l hl hid
    have hmem := hleads l hl
    rw [if_pos hid] at hmem
    exact ⟨erasedLead now l,hmem,rfl,rfl⟩
  constructor
  · intro l hl
    have hmem := hleads l hl
    split_ifs at hmem with hid
    · exact .inr ⟨now,hmem⟩
    · exact .inl hmem
  · intro t ht
    have hmem : (if t.leadId ∈ ids then { t with rawEventJson := .erased now } else t) ∈
        (eraseIds now s ids).touchpoints := List.mem_map_of_mem ht
    split_ifs at hmem with hid
    · obtain ⟨l,hl,hlead⟩ := hc.touchpointLead t ht
      have hgone := herased l hl (hlead ▸ hid)
      exact .inr ⟨hlead ▸ hgone,now,hmem⟩
    · exact .inl hmem
  · intro r hr
    have hmem : (if ∃ i ∈ ids, r.leadId = some i then { r with rawEventJson := .erased now }
        else r) ∈ (eraseIds now s ids).logs := List.mem_map_of_mem hr
    split_ifs at hmem with hid
    · obtain ⟨i,hi,hlead⟩ := hid
      obtain ⟨l,hl,rfl,_⟩ := hc.logLead r hr i hlead
      exact .inr ⟨⟨l.id,hlead,herased l hl hi⟩,now,hmem⟩
    · exact .inl hmem
  · rfl
  · exact fun _ hl hstage => anonymised_of_eraseIds hl hstage

theorem DeployedStep.persists {w w' : World} {a : Attempt} (hc : Consistent w.store)
    (h : DeployedStep w a w') : Persists w.store w'.store := by
  obtain ⟨hstep,hstarted⟩ := h
  cases hstep with
  | rollback => exact .refl w.store
  | @commit op f s received hf hexec =>
    cases hred : op.redacts with
    | false => exact (Op.added hf hred hexec).persists
    | true =>
      cases op with
      | eraseLeadByIdentity t phone email who =>
        simp only [Op.exec,Except.ok.injEq,Prod.mk.injEq] at hexec
        obtain ⟨ids,logs,hstore,_⟩ := hc.erasure_store f.now t phone email who
        rw [← hexec.1,hstore]
        exact persists_eraseIds hc ..
      | runRetentionSweep settings => exact absurd hstarted (not_started_sweep settings)
      | _ => simp [Op.redacts] at hred

end Rows

theorem reachable_of_deployed {w w' : World} (h : Reachable DeployedStep w w') :
    Reachable Step w w' :=
  h.invariant .refl fun _ _ _ hprev hstep => hprev.tail hstep.1

/-- Whatever the deployed program runs, and however late, no lead is ever anonymised, no row of
the retention audit is written, and a row that was stored once stays as it is until its lead is
erased on request. -/
theorem never_anonymised {w w' : World} (h : Reachable DeployedStep .empty w)
    (h' : Reachable DeployedStep w w') :
    (∀ l ∈ w.store.leads, l.pipelineStage ≠ .anonymised) ∧ w.store.retentionLogs = [] ∧
      Persists w.store w'.store := by
  have hpersists : ∀ {v v' : World}, Reachable DeployedStep .empty v →
      Reachable DeployedStep v v' → Persists v.store v'.store := by
    intro v v' hv hv'
    have hall : Reachable DeployedStep .empty v' ∧ Persists v.store v'.store := by
      refine hv'.invariant (I := fun u => Reachable DeployedStep .empty u ∧
        Persists v.store u.store) ⟨hv,.refl v.store⟩ fun u a u' hu hstep => ?_
      exact ⟨hu.1.tail hstep,hu.2.trans
        (hstep.persists (consistent_of_reachable (reachable_of_deployed hu.1)))⟩
    exact hall.2
  have hstart : Persists World.empty.store w.store := hpersists .refl h
  exact ⟨fun l hl hstage => (nomatch hstart.anonymised l hl hstage),hstart.retentionLogs,
    hpersists h h'⟩

end Deployed

/-- A contact, and another one six years later. -/
theorem six_years_not_anonymised :
    letI := Interpreter.ascii id
    let w := play .empty [(aliceEvent "a",onDay 1 0),(aliceEvent "b",onDay 2 2200)]
    (∀ l ∈ w.store.leads, l.pipelineStage ≠ .anonymised) ∧ w.store.leads.length = 1 ∧
      ∀ l ∈ w.store.leads, Overdue (onDay 2 2200).now retentionSettings l := by
  have hstep : ∀ (w : World) (pid : String) (f : Fresh), f.For w.store →
      @DeployedStep (.ascii id) w ⟨aliceEvent pid,f,(@Op.tried (.ascii id) (aliceEvent pid) w f).1⟩
        (@Op.tried (.ascii id) (aliceEvent pid) w f).2 :=
    fun w pid f hf => ⟨@Op.step_tried (.ascii id) (aliceEvent pid) w f hf,fun _ h => nomatch h⟩
  have hfirst := (@Reachable.refl _ _ (@DeployedStep (.ascii id)) .empty).tail
    (hstep .empty "a" (onDay 1 0) (by decide))
  have hsecond := hfirst.tail (hstep _ "b" (onDay 2 2200) (by decide +kernel))
  have hrun := @never_anonymised (.ascii id) _ _ hsecond .refl
  exact ⟨hrun.1,by decide +kernel,by decide +kernel⟩

end History
end LeadEngine
