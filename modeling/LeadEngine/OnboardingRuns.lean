import LeadEngine.Onboarding

/-! Onboarding runs in which any step may raise: what each step shows of the tenant and of the
config rows, and when a run is all or nothing. -/
namespace LeadEngine
namespace Onboarding

open Table TwoStageFilter TenantConfigs TransitionSystem

section Steps

structure Session.Shows (s : Session) (id : UUID) (t : Tenant) (configs : List TenantConfig)
    (usable : Bool) : Prop where
  tenant : s.db.tenant? id = some t
  configs : s.db.configs = configs
  usable : s.usable = usable

variable [DoubleArithmetic] {env : Env} {flush : Flush} {id : UUID} {status : OnboardingStatus}
  {s : Session} {t : Tenant} {configs : List TenantConfig}

theorem commit_ok (h : s.Shows id t configs true) (hr : env.raises flush = false)
    {change : Tenant → Tenant} (hid : ∀ t, (change t).id = t.id) :
    ∃ s', commit env flush (·.setTenant id change) s = (.ok (),s') ∧
      s'.Shows id (change t) configs true := by
  refine ⟨_,if_neg (by simp [hr]),?_,h.configs,h.usable⟩
  show (s.db.setTenant id change).tenant? id = _
  rw [Database.tenant?_setTenant _ _ hid,h.tenant]
  rfl

theorem commit_raises (h : s.Shows id t configs true) (hr : env.raises flush = true)
    (change : Database → Database) :
    ∃ s', commit env flush change s = (.error .flush,s') ∧ s'.Shows id t configs false :=
  ⟨_,if_pos hr,h.tenant,h.configs,rfl⟩

omit [DoubleArithmetic] in
theorem getTenant_ok {usable : Bool} (h : s.Shows id t configs usable) (hu : usable = true) :
    getTenant id s = (.ok t,s) := by
  simp [getTenant,h.usable,hu,h.tenant]

theorem setOnboardingStatus_ok (h : s.Shows id t configs true)
    (hw : t.onboardingStatus = status ∨ env.raises flush = false) :
    ∃ s', setOnboardingStatus env flush id status s = (.ok (),s') ∧
      s'.Shows id { t with onboardingStatus := status } configs true := by
  simp only [setOnboardingStatus,h.usable,h.tenant,if_true]
  by_cases heq : t.onboardingStatus = status
  · rw [if_pos heq,← heq]
    exact ⟨s,rfl,h⟩
  · rw [if_neg heq]
    exact commit_ok h (hw.resolve_left heq) fun _ => rfl

theorem setOnboardingStatus_raises (h : s.Shows id t configs true)
    (hne : t.onboardingStatus ≠ status) (hr : env.raises flush = true) :
    ∃ s', setOnboardingStatus env flush id status s = (.error .flush,s') ∧
      s'.Shows id t configs false := by
  simp only [setOnboardingStatus,h.usable,h.tenant,if_true,if_neg hne]
  exact commit_raises h hr _

theorem setOnboardingStatus_refused (h : s.usable = false) :
    setOnboardingStatus env flush id status s = (.error .pendingRollback,s) := by
  simp [setOnboardingStatus,h]

theorem activateTenant_ok (h : s.Shows id t configs true) (hs : t.status = .created)
    (hr : env.raises .activate = false) :
    ∃ s', activateTenant env id s = (.ok (),s') ∧
      s'.Shows id { t with status := .active, activatedAt := some env.activatedAt } configs
        true := by
  simp only [activateTenant,getTenant_ok h rfl,andThen,if_pos hs]
  exact commit_ok h hr fun _ => rfl

theorem activateTenant_conflict (h : s.Shows id t configs true) (hs : t.status ≠ .created) :
    activateTenant env id s = (.error (.conflict id t.status),s) := by
  simp only [activateTenant,getTenant_ok h rfl,andThen,if_neg hs]

theorem activateTenant_raises (h : s.Shows id t configs true) (hs : t.status = .created)
    (hr : env.raises .activate = true) :
    ∃ s', activateTenant env id s = (.error .flush,s') ∧ s'.Shows id t configs false := by
  simp only [activateTenant,getTenant_ok h rfl,andThen,if_pos hs]
  exact commit_raises h hr _

/-- The config rows as any sequence of calls leaves them. -/
structure Consistent (configs : List TenantConfig) : Prop where
  ids : (configs.map TenantConfig.id).Nodup
  registered : ∀ t, Registered (rowsOf t configs)

theorem Consistent.commits (hc : Consistent configs) {call : CreateCall}
    (hfresh : call.id ∉ configs.map TenantConfig.id) :
    ∃ configs', TenantConfigs.createActive configs call =
        .ok (configs',call.row ((rowsOf call.tenantId configs).length + 1)) ∧
      Consistent configs' ∧ activeRows call.tenantId configs' =
        [call.row ((rowsOf call.tenantId configs).length + 1)] ∧
      (rowsOf call.tenantId configs').length = (rowsOf call.tenantId configs).length + 1 := by
  obtain ⟨current,hready,hok⟩ := createActive_ok hc.ids hc.registered hfresh
  have hids : ((archived call.now current configs ++
      [call.row ((rowsOf call.tenantId configs).length + 1)]).map TenantConfig.id).Nodup :=
    nodup_commit hc.ids hfresh
  have hreg := registered_commit hc.ids hc.registered hready rfl
  refine ⟨_,hok,⟨hids,hreg⟩,?_,?_⟩
  · apply (hreg _).activeRows_eq hids
    · rw [rowsOf_append,rowsOf_row_self]
      simp
    · rfl
  · rw [rowsOf_append,rowsOf_row_self,List.length_append]
    congr 1
    cases current with
    | none => rfl
    | some r => rw [archived,rowsOf_map_archive,List.length_map]

theorem fresh_of_createActive {call : CreateCall} {configs' : List TenantConfig}
    {read : TenantConfig}
    (h : TenantConfigs.createActive configs call = .ok (configs',read)) :
    call.id ∉ configs.map TenantConfig.id := by
  simp only [TenantConfigs.createActive] at h
  split at h
  · cases h
  · rename_i current _
    split_ifs at h with hv
    intro hmem
    apply hv
    rw [← map_id_archived call.now current] at hmem
    obtain ⟨r,hr,hid⟩ := List.mem_map.mp hmem
    exact .inl ⟨r,hr,congrArg some hid,rfl⟩

theorem Consistent.createActive (hc : Consistent s.db.configs) (env : Env) (id : UUID)
    (data : TenantConfigCreate) :
    Consistent (Onboarding.createActive env id data s).2.db.configs := by
  unfold Onboarding.createActive
  split_ifs with hu
  · split
    · exact hc
    · split_ifs
      · exact hc
      · split
        · exact hc
        · rename_i configs' read hok
          obtain ⟨_,hok',hc',_⟩ := hc.commits (fresh_of_createActive hok)
          rw [hok] at hok'
          obtain rfl := congrArg Prod.fst (Except.ok.inj hok')
          exact hc'
  · exact hc

def ConfigWrites (env : Env) (id : UUID) (configs : List TenantConfig) : Prop :=
  (rowsOf id configs = [] ∨ env.raises .archive = false) ∧ env.raises .insert = false ∧
    env.configId ∉ configs.map TenantConfig.id

theorem createActive_commits (hc : Consistent configs) (h : s.Shows id t configs true)
    (hw : ConfigWrites env id configs) (data : TenantConfigCreate) :
    ∃ s' configs', createActive env id data s =
        (.ok ((env.call id data).row ((rowsOf id configs).length + 1)),s') ∧
      s'.Shows id t configs' true ∧
      activeRows id configs' = [(env.call id data).row ((rowsOf id configs).length + 1)] ∧
      (rowsOf id configs').length = (rowsOf id configs).length + 1 := by
  obtain ⟨harchive,hinsert,hid⟩ := hw
  have hfresh : (env.call id data).id ∉ configs.map TenantConfig.id := hid
  obtain ⟨current,hscalar,hnone,_,_⟩ := finds_current hc.ids hc.registered id
  obtain ⟨configs',hok,_,hactive,hlen⟩ := hc.commits hfresh
  have hflush : ¬ (current.isSome ∧ env.raises .archive ∨ env.raises .insert ∨
      s.db.tenant? id = none) := by
    rintro (⟨hsome,hr⟩ | hr | hr)
    · rcases harchive with hempty | hr'
      · rw [hnone.mpr hempty] at hsome
        cases hsome
      · rw [hr'] at hr
        cases hr
    · rw [hinsert] at hr
      cases hr
    · rw [h.tenant] at hr
      cases hr
  refine ⟨{ s with db := { s.db with configs := configs' } },configs',?_,
    ⟨h.tenant,rfl,h.usable⟩,hactive,hlen⟩
  simp only [createActive,h.usable,h.configs,if_true,hscalar,if_neg hflush,hok]
  rfl

theorem createActive_refused (hc : Consistent configs) (h : s.Shows id t configs true)
    (hw : ¬ ConfigWrites env id configs) (data : TenantConfigCreate) :
    ∃ err s', createActive env id data s = (.error err,s') ∧ s'.Shows id t configs false := by
  obtain ⟨current,hscalar,hnone,_,_⟩ := finds_current hc.ids hc.registered id
  simp only [createActive,h.usable,h.configs,if_true,hscalar]
  by_cases hflush : current.isSome ∧ env.raises .archive ∨ env.raises .insert ∨
      s.db.tenant? id = none
  · rw [if_pos hflush]
    exact ⟨_,_,rfl,h.tenant,h.configs,rfl⟩
  · rw [if_neg hflush]
    simp only [not_or,not_and,Bool.not_eq_true] at hflush
    cases hresult : TenantConfigs.createActive configs (env.call id data) with
    | error err => exact ⟨_,_,rfl,h.tenant,h.configs,rfl⟩
    | ok written =>
      exfalso
      apply hw
      refine ⟨?_,hflush.2.1,fresh_of_createActive hresult⟩
      cases current with
      | none => exact .inl (hnone.mp rfl)
      | some r => exact .inr (hflush.1 rfl)

omit [DoubleArithmetic] in
theorem andThen_keeps {P : Session → Prop} {α β : Type} {r : Except PipelineError α × Session}
    {next : α → Session → Except PipelineError β × Session} (hr : P r.2)
    (hnext : ∀ a s, P s → P (next a s).2) : P (andThen r next).2 := by
  obtain ⟨_ | a,s⟩ := r
  · exact hr
  · exact hnext a s hr

theorem commit_configs (env : Env) (flush : Flush) (id : UUID) (change : Tenant → Tenant)
    (s : Session) : (commit env flush (·.setTenant id change) s).2.db.configs = s.db.configs := by
  unfold commit
  split_ifs <;> rfl

omit [DoubleArithmetic] in
theorem getTenant_configs (id : UUID) (s : Session) :
    (getTenant id s).2.db.configs = s.db.configs := by
  unfold getTenant
  split_ifs
  · split <;> rfl
  · rfl

theorem setOnboardingStatus_configs (env : Env) (flush : Flush) (id : UUID)
    (status : OnboardingStatus) (s : Session) :
    (setOnboardingStatus env flush id status s).2.db.configs = s.db.configs := by
  unfold setOnboardingStatus
  split_ifs
  · split
    · rfl
    · split_ifs
      · rfl
      · exact commit_configs env flush id _ s
  · rfl

theorem activateTenant_configs (env : Env) (id : UUID) (s : Session) :
    (activateTenant env id s).2.db.configs = s.db.configs := by
  apply andThen_keeps (P := fun s' => s'.db.configs = s.db.configs) (getTenant_configs id s)
  intro t s' hs
  split_ifs
  · exact (commit_configs env .activate id _ s').trans hs
  · exact hs

variable [Interpreter]

theorem onboard_consistent (env : Env) (id : UUID) (hc : Consistent s.db.configs) :
    Consistent (onboard env id s).2.db.configs := by
  apply andThen_keeps (P := fun s => Consistent s.db.configs)
  · rw [getTenant_configs]
    exact hc
  intro tenant s hs
  apply andThen_keeps (P := fun s => Consistent s.db.configs) hs
  intro data s hs
  apply andThen_keeps (P := fun s => Consistent s.db.configs) (hs.createActive env id data)
  intro _ s hs
  apply andThen_keeps (P := fun s => Consistent s.db.configs)
  · rw [activateTenant_configs]
    exact hs
  intro _ s hs
  rw [setOnboardingStatus_configs]
  exact hs

theorem runPipeline_consistent (env : Env) (id : UUID) (hc : Consistent s.db.configs) :
    Consistent (runPipeline env id s).2.db.configs := by
  apply andThen_keeps (P := fun s => Consistent s.db.configs)
  · rw [setOnboardingStatus_configs]
    exact hc
  intro _ s hs
  have hbody := onboard_consistent env id hs
  show Consistent (orFailed env id (onboard env id s)).2.db.configs
  generalize onboard env id s = r at hbody ⊢
  obtain ⟨err | a,s'⟩ := r
  · apply andThen_keeps (P := fun s => Consistent s.db.configs)
    · rw [setOnboardingStatus_configs]
      exact hbody
    · intro _ s hs
      exact hs
  · exact hbody

theorem consistent_of_reachable {db : Database} (h : Reachable CallStep .empty db) :
    Consistent db.configs := by
  apply h.invariant (I := fun db => Consistent db.configs)
  · exact ⟨List.nodup_nil,fun t => Registered.nil⟩
  · rintro db call _ hc rfl
    cases call with
    | createTenant id data =>
      show Consistent (createTenant id data db).configs
      unfold createTenant
      split_ifs <;> exact hc
    | createActive env id data => exact Consistent.createActive hc env id data
    | activateTenant env id =>
      show Consistent (activateTenant env id ⟨db,true⟩).2.db.configs
      rw [activateTenant_configs]
      exact hc
    | setOnboardingStatus env flush id status =>
      show Consistent (setOnboardingStatus env flush id status ⟨db,true⟩).2.db.configs
      rw [setOnboardingStatus_configs]
      exact hc
    | runOnboardingPipeline env id => exact runPipeline_consistent env id hc

/-- The first flush of a run goes through, or has nothing to write. -/
def Starts (env : Env) (t : Tenant) : Prop :=
  t.onboardingStatus = .running ∨ env.raises .running = false

/-- The tenant can be activated and every flush from the config on goes through. -/
def WritesAll (env : Env) (t : Tenant) (configs : List TenantConfig) : Prop :=
  t.status = .created ∧ ConfigWrites env t.id configs ∧ env.raises .activate = false ∧
    env.raises .complete = false

inductive Attempt (env : Env) (t : Tenant) (configs : List TenantConfig) :
    Except PipelineError Unit × Session → Prop
  | unprepared {err : PipelineError} {s : Session} : prepare env.services t = .error err →
      s.Shows t.id t configs true → Attempt env t configs (.error err,s)
  | conflict {err : PipelineError} {s : Session} {data : TenantConfigCreate}
      {configs' : List TenantConfig} : prepare env.services t = .ok data → t.status ≠ .created →
      (rowsOf t.id configs').length = (rowsOf t.id configs).length + 1 →
      s.Shows t.id t configs' true → Attempt env t configs (.error err,s)
  | flush {err : PipelineError} {s : Session} {data : TenantConfigCreate} {t' : Tenant}
      {configs' : List TenantConfig} : prepare env.services t = .ok data →
      ¬ WritesAll env t configs → t'.onboardingStatus = t.onboardingStatus →
      s.Shows t.id t' configs' false → Attempt env t configs (.error err,s)
  | done {s : Session} {data : TenantConfigCreate} {t' : Tenant} {configs' : List TenantConfig} :
      prepare env.services t = .ok data → WritesAll env t configs →
      t'.onboardingStatus = .complete → t'.status = .active →
      activeRows t.id configs' = [(env.call t.id data).row ((rowsOf t.id configs).length + 1)] →
      s.Shows t.id t' configs' true → Attempt env t configs (.ok (),s)

theorem onboard_attempt (hc : Consistent configs) (h : s.Shows t.id t configs true)
    (hrunning : t.onboardingStatus = .running) : Attempt env t configs (onboard env t.id s) := by
  unfold onboard
  rw [getTenant_ok h rfl]
  simp only [andThen]
  cases hp : prepare env.services t with
  | error err => exact .unprepared hp h
  | ok data =>
    simp only
    by_cases hw : ConfigWrites env t.id configs
    · obtain ⟨s₁,configs',h₁,hs₁,hactive,hlen⟩ := createActive_commits hc h hw data
      rw [h₁]
      simp only
      by_cases hcreated : t.status = .created
      · cases hact : env.raises .activate with
        | true =>
          obtain ⟨s₂,h₂,hs₂⟩ := activateTenant_raises hs₁ hcreated hact
          rw [h₂]
          exact .flush hp (fun hall => by simp [hall.2.2.1] at hact) rfl hs₂
        | false =>
          obtain ⟨s₂,h₂,hs₂⟩ := activateTenant_ok hs₁ hcreated hact
          rw [h₂]
          simp only
          cases hcomplete : env.raises .complete with
          | true =>
            have hne : t.onboardingStatus ≠ .complete := by simp [hrunning]
            obtain ⟨s₃,h₃,hs₃⟩ := setOnboardingStatus_raises hs₂ hne hcomplete
            rw [h₃]
            exact .flush hp (fun hall => by simp [hall.2.2.2] at hcomplete) (by rfl) hs₃
          | false =>
            obtain ⟨s₃,h₃,hs₃⟩ := setOnboardingStatus_ok hs₂ (.inr hcomplete)
            rw [h₃]
            exact .done hp ⟨hcreated,hw,hact,hcomplete⟩ rfl rfl hactive hs₃
      · rw [activateTenant_conflict hs₁ hcreated]
        exact .conflict hp hcreated hlen hs₁
    · obtain ⟨err,s₁,h₁,hs₁⟩ := createActive_refused hc h hw data
      rw [h₁]
      exact .flush hp (fun hall => hw hall.2.1) rfl hs₁

/-- What the run does to the tenant's rows, or leaves of them, is all or nothing. -/
def AllOrNothing (env : Env) (t : Tenant) (before : Database)
    (r : Except PipelineError Unit × Database) : Prop :=
  Completed env t before r ∨ RolledBack t before r

/-- The runs that are: the first flush fails on a tenant that was marked failed before; or a
step before the config raises and the handler can write; or nothing raises at all. -/
def Clean (env : Env) (t : Tenant) (configs : List TenantConfig) : Prop :=
  (¬ Starts env t ∧ t.onboardingStatus = .failed) ∨
    (Starts env t ∧ (∃ err, prepare env.services t = .error err) ∧ env.raises .failed = false) ∨
    (Starts env t ∧ (∃ data, prepare env.services t = .ok data) ∧ WritesAll env t configs)

theorem not_allOrNothing_of_status {before : Database} {err : PipelineError} {t' : Tenant}
    {usable : Bool} (h : s.Shows t.id t' configs usable) (hne : t'.onboardingStatus ≠ .failed) :
    ¬ AllOrNothing env t before (.error err,s.db) := by
  rintro (hdone | hback)
  · cases hdone.returned
  · obtain ⟨t₁,ht₁,hfailed,_⟩ := hback.tenant
    obtain rfl : t' = t₁ := Option.some.inj (h.tenant.symm.trans ht₁)
    exact hne hfailed

theorem not_allOrNothing_of_length {before : Database} {err : PipelineError} {t' : Tenant}
    {usable : Bool} (h : s.Shows t.id t' configs usable)
    (hlen : (rowsOf t.id configs).length = (rowsOf t.id before.configs).length + 1) :
    ¬ AllOrNothing env t before (.error err,s.db) := by
  rintro (hdone | hback)
  · cases hdone.returned
  · have hsame : rowsOf t.id s.db.configs = rowsOf t.id before.configs := hback.config
    rw [h.configs] at hsame
    rw [hsame] at hlen
    omega

omit [Interpreter] in
theorem orFailed_error (env : Env) (err : PipelineError) (h : s.Shows t.id t configs true)
    (hrunning : t.onboardingStatus = .running) :
    ∃ s', s'.Shows t.id (if env.raises .failed then t else { t with onboardingStatus := .failed })
        configs (!env.raises .failed) ∧
      orFailed env t.id (.error err,s) =
        (.error (if env.raises .failed then .flush else err),s') := by
  cases hr : env.raises .failed with
  | true =>
    have hne : t.onboardingStatus ≠ .failed := by simp [hrunning]
    obtain ⟨s',hs',hshows⟩ := setOnboardingStatus_raises h hne hr
    exact ⟨s',by simpa using hshows,by simp [orFailed,hs',andThen]⟩
  | false =>
    have hwrite : t.onboardingStatus = .failed ∨ env.raises .failed = false := .inr hr
    obtain ⟨s',hs',hshows⟩ := setOnboardingStatus_ok h hwrite
    exact ⟨s',by simpa using hshows,by simp [orFailed,hs',andThen]⟩

theorem all_or_nothing_of_attempt {r : Except PipelineError Unit × Session} {before : Database}
    (hstarts : Starts env t)
    (h : Attempt env { t with onboardingStatus := .running } before.configs r) :
    AllOrNothing env t before ((orFailed env t.id r).1,(orFailed env t.id r).2.db) ↔
      Clean env t before.configs := by
  cases h with
  | @unprepared err s hp hs =>
    have hp' : prepare env.services t = .error err := hp
    obtain ⟨s',hshows,hrun⟩ := orFailed_error env err hs rfl
    rw [show orFailed env t.id (.error err,s) = _ from hrun]
    cases hr : env.raises .failed with
    | true =>
      simp only [hr,if_true] at hshows ⊢
      apply iff_of_false (not_allOrNothing_of_status hshows (by simp))
      rintro (⟨hno,_⟩ | ⟨_,_,hw⟩ | ⟨_,⟨data,hok⟩,_⟩)
      · exact hno hstarts
      · simp [hr] at hw
      · simp [hp'] at hok
    | false =>
      simp only [hr,Bool.false_eq_true,if_false] at hshows ⊢
      apply iff_of_true
      · refine .inr ⟨⟨err,rfl⟩,⟨_,hshows.tenant,rfl,rfl,rfl⟩,?_⟩
        show rowsOf t.id s'.db.configs = _
        rw [hshows.configs]
      · exact .inr (.inl ⟨hstarts,⟨err,hp'⟩,hr⟩)
  | @conflict err s data configs' hp hne hlen hs =>
    have hp' : prepare env.services t = .ok data := hp
    obtain ⟨s',hshows,hrun⟩ := orFailed_error env err hs rfl
    rw [show orFailed env t.id (.error err,s) = _ from hrun]
    apply iff_of_false (not_allOrNothing_of_length (t := t) hshows hlen)
    rintro (⟨hno,_⟩ | ⟨_,⟨err,herr⟩,_⟩ | ⟨_,_,hw⟩)
    · exact hno hstarts
    · simp [hp'] at herr
    · exact hne hw.1
  | @flush err s data t' configs' hp hw hrunning hs =>
    have hp' : prepare env.services t = .ok data := hp
    have hrun : orFailed env t.id (.error err,s) = (.error .pendingRollback,s) := by
      simp only [orFailed,setOnboardingStatus_refused hs.usable,andThen]
    rw [hrun]
    apply iff_of_false (not_allOrNothing_of_status (t := t) hs (by simp [hrunning]))
    rintro (⟨hno,_⟩ | ⟨_,⟨err,herr⟩,_⟩ | ⟨_,_,hw'⟩)
    · exact hno hstarts
    · simp [hp'] at herr
    · exact hw hw'
  | @done s data t' configs' hp hw hcomplete hactive hrows hs =>
    apply iff_of_true
    · refine .inl ⟨rfl,⟨t',hs.tenant,hcomplete,hactive⟩,data,hp,?_⟩
      show activeRows t.id s.db.configs = _
      rw [hs.configs]
      exact hrows
    · exact .inr (.inr ⟨hstarts,⟨data,hp⟩,hw⟩)

/-- A run is all or nothing exactly when it is clean. -/
theorem all_or_nothing_iff {db : Database} (h : Reachable CallStep .empty db)
    (ht : db.tenant? t.id = some t) (env : Env) :
    AllOrNothing env t db (runOnboardingPipeline env t.id db) ↔ Clean env t db.configs := by
  have hc := consistent_of_reachable h
  have hshows : Session.Shows ⟨db,true⟩ t.id t db.configs true := ⟨ht,rfl,rfl⟩
  by_cases hstarts : Starts env t
  · obtain ⟨s,hs,hshows⟩ := setOnboardingStatus_ok hshows hstarts
    have hrun : runOnboardingPipeline env t.id db =
        ((orFailed env t.id (onboard env t.id s)).1,
          (orFailed env t.id (onboard env t.id s)).2.db) := by
      simp only [runOnboardingPipeline,runPipeline,hs,andThen]
    rw [hrun]
    exact all_or_nothing_of_attempt hstarts (onboard_attempt hc hshows rfl)
  · obtain ⟨hne,hr⟩ := not_or.mp hstarts
    obtain ⟨s,hs,hshows⟩ := setOnboardingStatus_raises hshows hne (Bool.not_eq_false _ ▸ hr)
    have hrun : runOnboardingPipeline env t.id db = (.error .flush,s.db) := by
      simp only [runOnboardingPipeline,runPipeline,hs,andThen]
    rw [hrun]
    by_cases hfailed : t.onboardingStatus = .failed
    · apply iff_of_true
      · refine .inr ⟨⟨_,rfl⟩,⟨t,hshows.tenant,hfailed,rfl,rfl⟩,?_⟩
        show rowsOf t.id s.db.configs = _
        rw [hshows.configs]
      · exact .inl ⟨hstarts,hfailed⟩
    · apply iff_of_false (not_allOrNothing_of_status hshows hfailed)
      rintro (⟨_,hf⟩ | ⟨hs,_⟩ | ⟨hs,_⟩)
      · exact hfailed hf
      · exact hstarts hs
      · exact hstarts hs

end Steps

def plainServices : @Services .exact :=
  letI := DoubleArithmetic.exact
  { searchSitePages := fun _ _ => .ok []
    get := fun _ _ => .ok ⟨200,"Acme sells CRM"⟩
    persona := fun _ _ _ => .ok []
    icp := fun _ => .ok []
    signals := fun _ _ => .ok (plainConfig.signals,⟨plainConfig.weights,plainConfig.weights_valid⟩,
      ⟨plainConfig.thresholds,plainConfig.thresholds_valid⟩) }

def plainEnv (n : ℕ) (raising : List Flush) : @Env .exact :=
  letI := DoubleArithmetic.exact
  ⟨plainServices,fun flush => flush ∈ raising,n,n,n,n⟩

def acme : Tenant := ⟨1,"Acme",.b2b,"https://acme.com/",.pending,.created,none⟩

def acmeCreated : Database := createTenant 1 ⟨"Acme",.b2b,"https://acme.com/"⟩ .empty

section Runs

variable [Interpreter]

def acmeOnboarded : Database :=
  letI := DoubleArithmetic.exact
  (runOnboardingPipeline (plainEnv 1 []) 1 acmeCreated).2

theorem acmeCreated_reachable :
    letI := DoubleArithmetic.exact
    Reachable CallStep .empty acmeCreated :=
  letI := DoubleArithmetic.exact
  Reachable.refl.tail (a := .createTenant 1 ⟨"Acme",.b2b,"https://acme.com/"⟩) rfl

end Runs

/-- A second run of an onboarded tenant raises with a new config in place; in a first run the
flush of the config raises, and the tenant stays in the running state. -/
theorem failed_runs_leave_traces :
    letI := DoubleArithmetic.exact
    letI := Interpreter.ascii id
    (∃ t, Reachable CallStep .empty acmeOnboarded ∧ acmeOnboarded.tenant? 1 = some t ∧
        t.status = .active ∧
        ¬ AllOrNothing (plainEnv 2 []) t acmeOnboarded
          (runOnboardingPipeline (plainEnv 2 []) 1 acmeOnboarded)) ∧
      Reachable CallStep .empty acmeCreated ∧ acmeCreated.tenant? 1 = some acme ∧
      ¬ AllOrNothing (plainEnv 1 [.insert]) acme acmeCreated
        (runOnboardingPipeline (plainEnv 1 [.insert]) 1 acmeCreated) := by
  let := DoubleArithmetic.exact
  let := Interpreter.ascii id
  have hreach : Reachable CallStep .empty acmeOnboarded :=
    acmeCreated_reachable.tail (a := .runOnboardingPipeline (plainEnv 1 []) 1) rfl
  have hactive : (acmeOnboarded.tenant? 1).map (fun t => (t.id,t.status)) = some (1,.active) := by
    decide +kernel
  obtain ⟨t,ht,hpair⟩ := Option.map_eq_some_iff.mp hactive
  obtain ⟨hid,hs⟩ := Prod.mk.inj hpair
  refine ⟨⟨t,hreach,ht,hs,?_⟩,acmeCreated_reachable,rfl,?_⟩
  · have hraised : (runOnboardingPipeline (plainEnv 2 []) 1 acmeOnboarded).1.isOk = false := by
      decide +kernel
    have hbefore : (rowsOf 1 acmeOnboarded.configs).length = 1 := by decide +kernel
    have hafter : (rowsOf 1 (runOnboardingPipeline (plainEnv 2 []) 1
      acmeOnboarded).2.configs).length = 2 := by decide +kernel
    rintro (hdone | hback)
    · rw [hdone.returned] at hraised
      cases hraised
    · have hrows := hback.config
      rw [hid] at hrows
      rw [hrows,hbefore] at hafter
      cases hafter
  · have hraised : (runOnboardingPipeline (plainEnv 1 [.insert]) 1 acmeCreated).1.isOk = false := by
      decide +kernel
    have hrunning : ((runOnboardingPipeline (plainEnv 1 [.insert]) 1 acmeCreated).2.tenant? 1).map
      Tenant.onboardingStatus = some .running := by decide +kernel
    rintro (hdone | hback)
    · rw [hdone.returned] at hraised
      cases hraised
    · obtain ⟨t',ht',hfailed,_⟩ := hback.tenant
      have hfound : (runOnboardingPipeline (plainEnv 1 [.insert]) 1 acmeCreated).2.tenant? 1 =
        some t' := ht'
      rw [hfound,Option.map_some,hfailed] at hrunning
      cases hrunning

/-- The first run of a tenant, with nothing raised. -/
theorem first_run_completes :
    letI := DoubleArithmetic.exact
    letI := Interpreter.ascii id
    AllOrNothing (plainEnv 1 []) acme acmeCreated
      (runOnboardingPipeline (plainEnv 1 []) 1 acmeCreated) := by
  let := DoubleArithmetic.exact
  let := Interpreter.ascii id
  apply (all_or_nothing_iff acmeCreated_reachable (t := acme) rfl (plainEnv 1 [])).mpr
  have hprepared : ∃ data, prepare (plainEnv 1 []).services acme = .ok data := by
    cases hp : prepare (plainEnv 1 []).services acme with
    | ok data => exact ⟨data,rfl⟩
    | error err =>
      have hok : (prepare (plainEnv 1 []).services acme).isOk = true := by decide +kernel
      rw [hp] at hok
      cases hok
  exact .inr (.inr ⟨.inr rfl,hprepared,rfl,⟨.inl rfl,rfl,by decide⟩,rfl,rfl⟩)

end Onboarding
end LeadEngine
