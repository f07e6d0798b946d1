import LeadEngine.ConfigRuns
import LeadEngine.History
import LeadEngine.MessageRoute

/-! The pre-flight check over runs: the entry points that create leads, one transaction after
another, interleaved with the calls that replace the tenants' configs. -/
namespace LeadEngine
namespace History

open Fallible Interpreter Repository Deduplicator TwoStageFilter Pipeline FileUpload LeadAds
open Normaliser TenantConfigs TransitionSystem

/-- The tenant has an active config with at least one signal. -/
def Armed (db : List TenantConfig) (t : UUID) : Prop :=
  ∃ r ∈ activeRows t db, r.payload.signals ≠ []

theorem armed_iff {db : List TenantConfig} {t : UUID} : Armed db t ↔
    ∃ r ∈ rowsOf t db, r.status = .active ∧ r.payload.signals ≠ [] := by
  simp only [Armed,activeRows,rowsOf,List.mem_filter,decide_eq_true_eq]
  constructor
  · rintro ⟨r,⟨hr,ht,hs⟩,hne⟩
    exact ⟨r,⟨hr,ht⟩,hs,hne⟩
  · rintro ⟨r,⟨hr,ht⟩,hs,hne⟩
    exact ⟨r,⟨hr,ht,hs⟩,hne⟩

section Check

variable [DoubleArithmetic]

def activeSignals (db : List TenantConfig) (t : UUID) : Except Unit (Option (List Signal)) :=
  ((getActiveConfig db t).mapError fun _ => ()).map (Option.map fun c => c.payload.signals)

theorem armed_of_checkPreFlight {db : List TenantConfig} {t : UUID}
    {config : Option (List Signal)} {signals : List Signal}
    (hread : activeSignals db t = .ok config) (hcheck : checkPreFlight config = .ok signals) :
    Armed db t := by
  obtain ⟨found,hfound,rfl⟩ := map_eq_ok.mp hread
  replace hfound := mapError_eq_ok.mp hfound
  cases found with
  | none => simp [checkPreFlight] at hcheck
  | some r =>
    refine ⟨r,mem_of_getActiveConfig hfound,fun hnil => ?_⟩
    simp [checkPreFlight,hnil] at hcheck

variable {ι : Type} [DecidableEq ι] [Fintype ι] {calls : ι → CreateCall} {c c' : Registry ι}

/-- A tenant with an active config keeps one: replacing it leaves no gap. -/
theorem armed_of_reachable (h : Reachable (RegistryStep calls) .initial c)
    (hstep : Reachable (RegistryStep calls) c c') {t : UUID} (harmed : Armed c.db t) :
    Armed c'.db t := by
  obtain ⟨r,hr,_⟩ := armed_iff.mp harmed
  obtain ⟨hmem,ht⟩ := mem_rowsOf.mp hr
  obtain ⟨r',hr',_,ht',_⟩ := keeps_row_of_reachable hstep hmem
  have hsound := sound_of_reachable (h.trans hstep)
  have hne : rowsOf t c'.db ≠ [] := List.ne_nil_of_mem (mem_rowsOf.mpr ⟨hr',ht'.trans ht⟩)
  obtain ⟨a,ha,hs,_⟩ := (hsound.registered t).exists_active hne
  obtain ⟨i,_,_,_,hpayload,_⟩ := hsound.written a (mem_rowsOf.mp ha).1
  apply armed_iff.mpr
  refine ⟨a,ha,hs,?_⟩
  rw [hpayload]
  exact (calls i).data.nonempty

end Check

/-- One call of an entry point that creates leads. -/
inductive Job
  | upload (tenantId : UUID) (rows : List Row)
  | batch (tenantId : UUID) (rows : List Row)
  | message (e : NormalisedChannelEvent) (classifyMessage : String → Except FilterError Json)
  | leadAd (env : LeadAdEnv) (payload : LeadAdPayload)

/-- The inline loop of an upload ends at the first row that raises. -/
def Job.stops : Job → Bool
  | .upload .. => true
  | _ => false

def routeOp : Route → Op
  | .terminal e stage blockReason => .createTerminalLead e stage blockReason
  | .capture e => .runCapture e

section Jobs

variable [Interpreter] [DoubleArithmetic]

def preFlightPasses (db : List TenantConfig) (t : UUID) : Bool :=
  match activeSignals db t with
  | .error _ => false
  | .ok config =>
    match checkPreFlight config with
    | .error _ => false
    | .ok _ => true

/-- The transactions a call still has to run once it has made its checks against the
registry. The job of a Lead Ads form makes none. -/
def Job.writes (db : List TenantConfig) : Job → List Op
  | .upload t rows => if preFlightPasses db t then rows.map (.inlineRow t) else []
  | .batch t rows => if preFlightPasses db t then rows.map (.batchRow t) else []
  | .message e classifyMessage =>
    match routeMessage e ⟨classifyMessage,activeSignals db e.tenantId⟩ with
    | .error _ => []
    | .ok route => [routeOp route]
  | .leadAd env payload => [.runLeadAdCapture env payload]

/-- Run transactions in order; a failed one is rolled back and may end the run. -/
def runWrites (stops : Bool) (draws : ℕ → Fresh) : Store → ℕ → List Op → Store
  | s,_,[] => s
  | s,i,op :: rest =>
    match op.exec s (draws i) with
    | .ok (s',_) => runWrites stops draws s' (i+1) rest
    | .error _ => if stops then s else runWrites stops draws s (i+1) rest

omit [DoubleArithmetic] in
theorem batchLoop_writes (draws : ℕ → Fresh) (t : UUID) (s : Store) (i : ℕ) (rows : List Row) :
    batchLoop draws t s i rows = runWrites false draws s i (rows.map (.batchRow t)) := by
  induction rows generalizing s i with
  | nil => rfl
  | cons row rest ih =>
    rw [batchLoop,List.map_cons,runWrites]
    cases hrow : FileUpload.batchRow s (draws i) t row with
    | error err => simp [Op.exec,hrow,returned,ih]
    | ok result => simp [Op.exec,hrow,returned,ih]

omit [DoubleArithmetic] in
theorem inlineLoop_writes (draws : ℕ → Fresh) (t : UUID) (s : Store) (i : ℕ)
    (rows : List Row) :
    (inlineLoop draws t s i rows).1 = runWrites true draws s i (rows.map (.inlineRow t)) := by
  induction rows generalizing s i with
  | nil => rfl
  | cons row rest ih =>
    rw [inlineLoop,List.map_cons,runWrites]
    cases hrow : FileUpload.inlineRow s (draws i) t row with
    | error err => simp [Op.exec,hrow,returned]
    | ok result => simp [Op.exec,hrow,returned,ih]

/-- A batch job with nothing else under way runs the writes of its call. -/
theorem runLeadCaptureBatch_writes {s s' : Store} {draws : ℕ → Fresh} {t : UUID}
    {rows : List Row} {db : List TenantConfig}
    (h : runLeadCaptureBatch s draws t (activeSignals db t) rows = .ok s') :
    s' = runWrites false draws s 0 ((Job.batch t rows).writes db) := by
  unfold runLeadCaptureBatch at h
  cases hread : activeSignals db t with
  | error err => simp [hread] at h
  | ok config =>
    cases hcheck : checkPreFlight config with
    | error halt =>
      obtain rfl : s = s' := by simpa [hread,hcheck] using h
      simp [Job.writes,preFlightPasses,hread,hcheck,runWrites]
    | ok signals =>
      obtain rfl : batchLoop draws t s 0 rows = s' := by simpa [hread,hcheck] using h
      simp [Job.writes,preFlightPasses,hread,hcheck,batchLoop_writes]

theorem runCaptureMessage_writes {s : Store} {f : Fresh} {e : NormalisedChannelEvent}
    {classifyMessage : String → Except FilterError Json} {db : List TenantConfig} {op : Op}
    (h : (Job.message e classifyMessage).writes db = [op]) :
    (Op.runCaptureMessage e ⟨classifyMessage,activeSignals db e.tenantId⟩).exec s f =
      op.exec s f := by
  unfold Job.writes at h
  cases hroute : routeMessage e ⟨classifyMessage,activeSignals db e.tenantId⟩ with
  | error err => simp [hroute] at h
  | ok route =>
    obtain rfl : routeOp route = op := by simpa [hroute] using h
    have hop : (Op.runCaptureMessage e ⟨classifyMessage,activeSignals db e.tenantId⟩).route =
        some route := by simp [Op.route,hroute,Except.toOption]
    rw [Op.exec_route hop]
    cases route <;> rfl

def Op.isLeadAd : Op → Bool
  | .runLeadAdCapture .. => true
  | _ => false

/-- A capture that did not come from a Lead Ads form is for a tenant that passed the check. -/
def Licensed (db : List TenantConfig) (op : Op) : Prop :=
  op.isLeadAd = false → ∀ e, op.route = some (.capture e) → Armed db e.tenantId

omit [DoubleArithmetic] in
theorem rowRoute_tenantId {prepare : NormalisedChannelEvent → NormalisedChannelEvent}
    (hprepare : ∀ e, (prepare e).tenantId = e.tenantId) {t : UUID} {row : Row}
    {e : NormalisedChannelEvent} (h : rowRoute prepare t row = some (.capture e)) :
    e.tenantId = t := by
  obtain ⟨e',he',_,hroute⟩ := rowRoute_eq_some h
  obtain rfl : e = prepare e' := by simpa using hroute
  rw [hprepare]
  obtain ⟨_,_,_,_,rfl⟩ := normaliseFileRow_eq_ok.mp he'
  rfl

omit [Interpreter] in
theorem armed_of_passes {db : List TenantConfig} {t : UUID} (h : preFlightPasses db t = true) :
    Armed db t := by
  unfold preFlightPasses at h
  cases hread : activeSignals db t with
  | error err => simp [hread] at h
  | ok config =>
    cases hcheck : checkPreFlight config with
    | error halt => simp [hread,hcheck] at h
    | ok signals => exact armed_of_checkPreFlight hread hcheck

/-- Every write of a call is licensed when its checks are done. -/
theorem Job.writes_licensed (job : Job) (db : List TenantConfig) :
    ∀ op ∈ job.writes db, Licensed db op := by
  cases job with
  | upload t rows =>
    intro op hop _ e hroute
    simp only [Job.writes] at hop
    split_ifs at hop with hpass
    · obtain ⟨row,_,rfl⟩ := List.mem_map.mp hop
      rw [rowRoute_tenantId (fun e => by rw [stripEvent_eq]) hroute]
      exact armed_of_passes hpass
    · simp at hop
  | batch t rows =>
    intro op hop _ e hroute
    simp only [Job.writes] at hop
    split_ifs at hop with hpass
    · obtain ⟨row,_,rfl⟩ := List.mem_map.mp hop
      rw [rowRoute_tenantId (fun _ => rfl) hroute]
      exact armed_of_passes hpass
    · simp at hop
  | message e classify =>
    intro op hop _ e' hroute
    simp only [Job.writes] at hop
    cases hmessage : routeMessage e ⟨classify,activeSignals db e.tenantId⟩ with
    | error err => simp [hmessage] at hop
    | ok route =>
      obtain rfl : op = routeOp route := by simpa [hmessage] using hop
      cases route with
      | terminal e'' stage reason => simp [routeOp,Op.route] at hroute
      | capture e'' =>
        obtain rfl : e'' = e' := by simpa [routeOp,Op.route] using hroute
        have ht := (routeMessage_event hmessage).1
        obtain ⟨config,signals,hread,hcheck⟩ := routeMessage_capture hmessage
        show Armed db e''.tenantId
        rw [show e''.tenantId = e.tenantId from ht]
        exact armed_of_checkPreFlight hread hcheck
  | leadAd env payload =>
    intro op hop had
    obtain rfl : op = .runLeadAdCapture env payload := by simpa [Job.writes] using hop
    simp [Op.isLeadAd] at had

end Jobs

/-- The registry, the lead tables, and the writes each call still has to run, once it has made
its checks. -/
structure Deployment (ι κ : Type) where
  registry : Registry ι
  world : World
  pending : κ → Option (List Op)

def Deployment.empty {ι κ : Type} : Deployment ι κ := ⟨.initial,.empty,fun _ => none⟩

/-- The steps of a deployment: one statement of a `create_active` call, the checks of a call,
its next transaction, or an erasure or a sweep. -/
inductive Label (ι κ : Type)
  | config (m : Move ι)
  | check (k : κ)
  | write (k : κ) (f : Fresh) (commits : Bool)
  | redact (a : Attempt)

section Runs

variable [Interpreter] [DoubleArithmetic] {ι κ : Type} [DecidableEq ι] [Fintype ι] [DecidableEq κ]

inductive DeployStep (calls : ι → CreateCall) (jobs : κ → Job) :
    Deployment ι κ → Label ι κ → Deployment ι κ → Prop
  | config {d : Deployment ι κ} {m : Move ι} {c : Registry ι}
      (h : RegistryStep calls d.registry m c) :
      DeployStep calls jobs d (.config m) { d with registry := c }
  | check {d : Deployment ι κ} {k : κ} (h : d.pending k = none) :
      DeployStep calls jobs d (.check k)
        { d with pending := Function.update d.pending k ((jobs k).writes d.registry.db) }
  | commit {d : Deployment ι κ} {k : κ} {op : Op} {rest : List Op} {f : Fresh} {w : World}
      (h : d.pending k = some (op :: rest)) (hw : Step d.world ⟨op,f,true⟩ w) :
      DeployStep calls jobs d (.write k f true)
        ⟨d.registry,w,Function.update d.pending k rest⟩
  | rollback {d : Deployment ι κ} {k : κ} {op : Op} {rest : List Op} {f : Fresh}
      (h : d.pending k = some (op :: rest)) :
      DeployStep calls jobs d (.write k f false)
        { d with pending :=
            Function.update d.pending k (some (if (jobs k).stops then [] else rest)) }
  | redact {d : Deployment ι κ} {a : Attempt} {w : World} (ha : a.op.redacts = true)
      (hw : Step d.world a w) : DeployStep calls jobs d (.redact a) { d with world := w }

/-- The step inserted the lead as captured and returned its announcement. -/
def Captures (d d' : Deployment ι κ) (l : Lead) : Prop :=
  d'.world.store.leads = d.world.store.leads ++ [l] ∧ l.pipelineStage = .captured ∧
    ∃ received, d'.world.received = d.world.received ++ [received]

/-- A Lead Ads form that is about to be stored as a new lead is one of an armed tenant. -/
def AdsArmed (d : Deployment ι κ) : Label ι κ → Prop
  | .write k _ true => ∀ op rest e, d.pending k = some (op :: rest) → op.isLeadAd = true →
      op.route = some (.capture e) → ¬ SlotTaken d.world.store e.platformEventId →
      findDuplicate d.world.store e.tenantId e = .ok none → Armed d.registry.db e.tenantId
  | _ => True

/-- What holds of every deployment: the registry is reachable, and what a call still has to
write is licensed by the configs of now. -/
structure Guarded (calls : ι → CreateCall) (d : Deployment ι κ) : Prop where
  registry : Reachable (RegistryStep calls) .initial d.registry
  licensed : ∀ k ops, d.pending k = some ops → ∀ op ∈ ops, Licensed d.registry.db op

omit [DecidableEq κ] in
theorem guarded_empty {calls : ι → CreateCall} : Guarded (κ:=κ) calls .empty where
  registry := Reachable.refl
  licensed := fun k ops h => by simp [Deployment.empty] at h

variable {calls : ι → CreateCall} {jobs : κ → Job} {d d' : Deployment ι κ} {a : Label ι κ}

omit [DoubleArithmetic] [DecidableEq ι] [Fintype ι] in
theorem licensed_update {db : List TenantConfig} {pending : κ → Option (List Op)} {k : κ}
    {new : List Op} (h : ∀ k ops, pending k = some ops → ∀ op ∈ ops, Licensed db op)
    (hnew : ∀ op ∈ new, Licensed db op) : ∀ j ops,
      Function.update pending k (some new) j = some ops → ∀ op ∈ ops, Licensed db op := by
  intro j ops hj op hop
  by_cases hjk : j = k
  · subst hjk
    rw [Function.update_self] at hj
    obtain rfl := Option.some.inj hj
    exact hnew op hop
  · rw [Function.update_of_ne hjk] at hj
    exact h j ops hj op hop

theorem DeployStep.guarded (h : Guarded calls d) (hs : DeployStep calls jobs d a d') :
    Guarded calls d' := by
  cases hs with
  | config hstep =>
    refine ⟨h.registry.tail hstep,?_⟩
    intro k ops hk op hop had e hroute
    exact armed_of_reachable h.registry (Reachable.refl.tail hstep)
      (h.licensed k ops hk op hop had e hroute)
  | check hk =>
    exact ⟨h.registry,licensed_update h.licensed (Job.writes_licensed _ _)⟩
  | commit hk =>
    refine ⟨h.registry,licensed_update h.licensed fun op hop => ?_⟩
    exact h.licensed _ _ hk op (List.mem_cons_of_mem _ hop)
  | rollback hk =>
    refine ⟨h.registry,licensed_update h.licensed fun op hop => ?_⟩
    split_ifs at hop
    · simp at hop
    · exact h.licensed _ _ hk op (List.mem_cons_of_mem _ hop)
  | redact => exact ⟨h.registry,h.licensed⟩

omit [Interpreter] [DoubleArithmetic] [DecidableEq ι] [Fintype ι] [DecidableEq κ] in
theorem not_captures_of_quiet (h : d'.world.received = d.world.received) (l : Lead) :
    ¬ Captures d d' l := by
  rintro ⟨_,_,received,hreceived⟩
  rw [h] at hreceived
  simpa using congrArg List.length hreceived

omit [DoubleArithmetic] [DecidableEq ι] [Fintype ι] [DecidableEq κ] in
theorem received_of_redacts {w w' : World} {b : Attempt} (hb : b.op.redacts = true)
    (hw : Step w b w') : w'.received = w.received := by
  cases hw with
  | rollback => rfl
  | @commit op f s received hf hexec =>
    have hroute : op.route = none := by
      cases op with
      | eraseLeadByIdentity | runRetentionSweep => rfl
      | _ => simp [Op.redacts] at hb
    rw [(Op.effect hf hexec).quiet hroute]
    exact List.append_nil _

omit [DoubleArithmetic] [DecidableEq ι] [Fintype ι] [DecidableEq κ] in
/-- A commit captures a lead exactly when its write is the capture of a new event. -/
theorem captures_iff {op : Op} {f : Fresh} {l : Lead}
    (hw : Step d.world ⟨op,f,true⟩ d'.world) : Captures d d' l ↔
      ∃ e, op.route = some (.capture e) ∧ ¬ SlotTaken d.world.store e.platformEventId ∧
        findDuplicate d.world.store e.tenantId e = .ok none ∧ l = newLead f e := by
  obtain ⟨s,received,hf,hexec,hw'⟩ : ∃ s received, f.For d.world.store ∧
      op.exec d.world.store f = .ok (s,received) ∧
      d'.world = ⟨s,d.world.received ++ received.toList⟩ := by
    generalize hd' : d'.world = w at hw
    cases hw with
    | commit hf hexec => exact ⟨_,_,hf,hexec,rfl⟩
  have hquiet : received = none → ¬ Captures d d' l := by
    rintro rfl
    exact not_captures_of_quiet (by rw [hw']; exact List.append_nil _) l
  cases hroute : op.route with
  | none =>
    simp only [reduceCtorEq,false_and,exists_false,iff_false]
    exact hquiet ((Op.effect hf hexec).quiet hroute)
  | some route =>
    have hran := Op.ran hf hroute hexec
    constructor
    · rintro ⟨hleads,hstage,hreceived⟩
      cases hran with
      | captured e hslot hdup =>
        rw [hw'] at hleads
        have hsame : [newLead f e] = [l] := List.append_cancel_left hleads
        exact ⟨e,rfl,hslot,hdup,(List.cons.inj hsame).1.symm⟩
      | redelivered | attached | stopped =>
        exact absurd ⟨hleads,hstage,hreceived⟩ (hquiet rfl)
    · rintro ⟨e,he,hslot,hdup,rfl⟩
      obtain rfl := Option.some.inj he
      rw [Op.exec_route hroute,Route.run,runCapture_new hf hslot hdup] at hexec
      simp only [returned,Except.ok.injEq,Prod.mk.injEq] at hexec
      obtain ⟨rfl,rfl⟩ := hexec
      exact ⟨by rw [hw']; rfl,rfl,leadReceived f e,by rw [hw']; rfl⟩

/-- In a step of a guarded deployment the tenant of a captured lead is armed exactly when the
step stores no new Lead Ads form of a tenant that is not. -/
theorem DeployStep.armed_iff (h : Guarded calls d) (hs : DeployStep calls jobs d a d') :
    (∀ l, Captures d d' l → Armed d.registry.db l.tenantId) ↔ AdsArmed d a := by
  cases hs with
  | config | check | rollback =>
    exact iff_of_true (fun l hc => absurd hc (not_captures_of_quiet rfl l)) trivial
  | redact hb hw =>
    exact iff_of_true (fun l hc =>
      absurd hc (not_captures_of_quiet (received_of_redacts hb hw) l)) trivial
  | commit hk hw =>
    rename_i k op rest f w
    constructor
    · intro hall op' rest' e hk' _ hroute hslot hdup
      obtain ⟨rfl,rfl⟩ : op = op' ∧ rest = rest' := by simpa [hk] using hk'
      exact hall (newLead f e) ((captures_iff hw).mpr ⟨e,hroute,hslot,hdup,rfl⟩)
    · intro hads l hc
      obtain ⟨e,hroute,hslot,hdup,rfl⟩ := (captures_iff hw).mp hc
      show Armed d.registry.db e.tenantId
      cases had : op.isLeadAd with
      | true => exact hads op rest e hk had hroute hslot hdup
      | false => exact h.licensed k _ hk op List.mem_cons_self had e hroute

/-- Over a run, every lead is captured for a tenant with an active config exactly when every
new Lead Ads form is. -/
theorem captured_armed_iff {tr : List (Transition (Deployment ι κ) (Label ι κ))}
    {d : Deployment ι κ} (h : Path (DeployStep calls jobs) .empty tr d) :
    (∀ x ∈ tr, ∀ l, Captures x.1 x.2.2 l → Armed x.1.registry.db l.tenantId) ↔
      ∀ x ∈ tr, AdsArmed x.1 x.2.1 := by
  have hstep : ∀ x ∈ tr, (∀ l, Captures x.1 x.2.2 l → Armed x.1.registry.db l.tenantId) ↔
      AdsArmed x.1 x.2.1 := by
    intro x hx
    obtain ⟨hreach,hs⟩ := h.step_of_mem hx
    have hguarded : Guarded calls x.1 := by
      apply hreach.invariant (I := Guarded calls) guarded_empty
      intro d a d' hd hs
      exact hs.guarded hd
    exact hs.armed_iff hguarded
  constructor
  · intro hall x hx
    exact (hstep x hx).mp (hall x hx)
  · intro hads x hx
    exact (hstep x hx).mpr (hads x hx)

def configSteps (w : World) (pending : κ → Option (List Op))
    (tr : List (Transition (Registry ι) (Move ι))) :
    List (Transition (Deployment ι κ) (Label ι κ)) :=
  tr.map fun x => (⟨x.1,w,pending⟩,.config x.2.1,⟨x.2.2,w,pending⟩)

theorem path_configSteps (w : World) (pending : κ → Option (List Op)) {c c' : Registry ι}
    {tr : List (Transition (Registry ι) (Move ι))} (h : Path (RegistryStep calls) c tr c') :
    Path (DeployStep calls jobs) ⟨c,w,pending⟩ (configSteps w pending tr) ⟨c',w,pending⟩ := by
  induction h with
  | nil => exact .nil
  | snoc _ hs ih =>
    rw [configSteps,List.map_append]
    exact ih.snoc (.config hs)

end Runs

def formEnv : LeadAdEnv where
  connections := [⟨7,1,.facebook,.active,some [0],none,[("page_id","p1")]⟩]
  aes := ⟨fun _ => .ok (List.replicate 32 0),fun _ _ plain => plain,fun _ _ blob => .ok blob,
    fun _ => [],fun _ => .ok [("page_access_token",.str "token")]⟩
  encryptionKey := "key"
  fetchLeadFields := fun _ _ => .ok [⟨some (.str "full_name"),some [.str "Bob"]⟩]
  locationOrder := []

def formJob (_ : Unit) : Job := .leadAd formEnv ⟨1,7,"l.1",none⟩

def formOp : Op := .runLeadAdCapture formEnv ⟨1,7,"l.1",none⟩

section Form

variable [Interpreter] [DoubleArithmetic]

def formSteps {ι : Type} (c : Registry ι) : List (Transition (Deployment ι Unit) (Label ι Unit)) :=
  [(⟨c,.empty,fun _ => none⟩,.check (),
      ⟨c,.empty,Function.update (fun _ => none) () (some [formOp])⟩),
    (⟨c,.empty,Function.update (fun _ => none) () (some [formOp])⟩,.write () (.nth 1) true,
      ⟨c,(formOp.tried .empty (.nth 1)).2,Function.update
        (Function.update (fun _ => none) () (some [formOp])) () (some [])⟩)]

theorem path_formSteps {ι : Type} [DecidableEq ι] [Fintype ι] (calls : ι → CreateCall)
    (c : Registry ι) (hcommits : (formOp.tried .empty (.nth 1)).1 = true) :
    ∃ d, Path (DeployStep calls formJob) ⟨c,.empty,fun _ => none⟩ (formSteps c) d := by
  have hw : Step .empty ⟨formOp,.nth 1,true⟩ (formOp.tried .empty (.nth 1)).2 :=
    hcommits ▸ formOp.step_tried (w:=.empty) (f:=.nth 1) ⟨by simp [World.empty,Store.empty],
      by simp [World.empty,Store.empty],by simp [World.empty,Store.empty]⟩
  have hcheck : DeployStep calls formJob ⟨c,.empty,fun _ => none⟩ (.check ()) _ := .check rfl
  have hpend : Function.update (fun _ => none) () (some ((formJob ()).writes c.db)) () =
      some [formOp] := by simp [formJob,Job.writes,formOp]
  exact ⟨_,(Path.nil.snoc hcheck).snoc (.commit hpend hw)⟩

omit [DoubleArithmetic] in
theorem formOp_route : ∃ e, formOp.route = some (.capture e) ∧ e.tenantId = 1 :=
  ⟨_,rfl,rfl⟩

end Form

/-- A form of a tenant that never had a config is captured. -/
theorem form_without_config :
    letI := Interpreter.ascii id
    letI := DoubleArithmetic.exact
    let calls : Fin 0 → CreateCall := Fin.elim0
    ∃ tr d, Path (DeployStep calls formJob) .empty tr d ∧
      ∃ x ∈ tr, ∃ l, Captures x.1 x.2.2 l ∧ ¬ Armed x.1.registry.db l.tenantId := by
  let := Interpreter.ascii id
  let := DoubleArithmetic.exact
  intro calls
  have hcommits : (formOp.tried .empty (.nth 1)).1 = true := by decide +kernel
  obtain ⟨d,hpath⟩ := path_formSteps calls .initial hcommits
  obtain ⟨e,hroute,ht⟩ := formOp_route
  refine ⟨_,d,hpath,_,List.mem_cons_of_mem _ List.mem_cons_self,newLead (.nth 1) e,?_,?_⟩
  · have hw : Step .empty ⟨formOp,.nth 1,true⟩ (formOp.tried .empty (.nth 1)).2 :=
      hcommits ▸ formOp.step_tried (w:=.empty) (f:=.nth 1) (by decide +kernel)
    refine (captures_iff ?_).mpr
      ⟨e,hroute,by simp [SlotTaken,World.empty,Store.empty],
        findDuplicate_none.mpr (by simp [World.empty,Store.empty]),rfl⟩
    dsimp only
    exact hw
  · simp [Armed,activeRows,Registry.initial]

/-- The form of a tenant whose first config is active. -/
theorem form_with_config :
    letI := Interpreter.ascii id
    letI := DoubleArithmetic.exact
    let first := List.replicate 4 (Move.advance (0 : Fin 3))
    let c := follow (registryNext threeCalls) .initial first
    ∀ x ∈ configSteps .empty (fun _ : Unit => none)
        (followed (registryNext threeCalls) .initial first) ++ formSteps c,
      ∀ l, Captures x.1 x.2.2 l → Armed x.1.registry.db l.tenantId := by
  let := Interpreter.ascii id
  let := DoubleArithmetic.exact
  intro first c
  have hcommits : (formOp.tried .empty (.nth 1)).1 = true := by decide +kernel
  obtain ⟨d,hform⟩ := path_formSteps threeCalls c hcommits
  have hfirst := path_follow (registryNext threeCalls) .initial first
  have hpath := (path_configSteps .empty (fun _ => none) hfirst).trans hform
  apply (captured_armed_iff hpath).mpr
  have harmed : ∃ r ∈ activeRows 1 c.db, r.payload.signals.length = 5 := by decide +kernel
  intro x hx
  rcases List.mem_append.mp hx with hx | hx
  · obtain ⟨y,_,rfl⟩ := List.mem_map.mp hx
    trivial
  · simp only [formSteps,List.mem_cons,List.not_mem_nil,or_false] at hx
    obtain rfl | rfl := hx
    · trivial
    · intro op rest e hk _ hroute _ _
      obtain ⟨e',hroute',ht⟩ := formOp_route
      obtain ⟨rfl,rfl⟩ : formOp = op ∧ [] = rest := by simpa using hk
      obtain rfl : e' = e := by simpa [hroute'] using hroute
      obtain ⟨r,hr,hlen⟩ := harmed
      rw [ht]
      refine ⟨r,hr,fun hnil => ?_⟩
      rw [hnil] at hlen
      cases hlen

end History
end LeadEngine
