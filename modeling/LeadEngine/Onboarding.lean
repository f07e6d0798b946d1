import LeadEngine.ConfigRuns
import LeadEngine.Website

/-! The onboarding run: four commits through one session, and an error handler that writes
through the same session. -/
namespace LeadEngine
namespace Onboarding

open Table TwoStageFilter TenantConfigs TransitionSystem

structure Database where
  tenants : List Tenant
  configs : List TenantConfig

namespace Database

def empty : Database := ⟨[],[]⟩

def tenant? (db : Database) (id : UUID) : Option Tenant :=
  db.tenants.find? fun t => t.id = id

def setTenant (db : Database) (id : UUID) (change : Tenant → Tenant) : Database :=
  { db with tenants := db.tenants.map fun t => if t.id = id then change t else t }

@[simp] theorem setTenant_configs (db : Database) (id : UUID) (change : Tenant → Tenant) :
    (db.setTenant id change).configs = db.configs := rfl

theorem tenant?_setTenant (db : Database) (id : UUID) {change : Tenant → Tenant}
    (hid : ∀ t, (change t).id = t.id) :
    (db.setTenant id change).tenant? id = (db.tenant? id).map change := by
  obtain ⟨tenants,configs⟩ := db
  show (tenants.map _).find? _ = (tenants.find? _).map change
  induction tenants with
  | nil => rfl
  | cons t rest ih =>
    by_cases h : t.id = id
    · simp [h,hid]
    · simpa [h] using ih

end Database

/-- A session; after a failed flush it refuses all work until it is rolled back. -/
structure Session where
  db : Database
  usable : Bool

inductive Flush
  | running | archive | insert | activate | complete | failed
  deriving DecidableEq

section Run

variable [DoubleArithmetic]

/-- What one run meets: the services, the flushes that raise, and its draws. -/
structure Env where
  services : Services
  raises : Flush → Bool
  configId : UUID
  now : Time
  createdAt : Time
  activatedAt : Time

def andThen {α β : Type} (r : Except PipelineError α × Session)
    (next : α → Session → Except PipelineError β × Session) : Except PipelineError β × Session :=
  match r with
  | (.error err,s) => (.error err,s)
  | (.ok a,s) => next a s

def commit (env : Env) (flush : Flush) (change : Database → Database) (s : Session) :
    Except PipelineError Unit × Session :=
  if env.raises flush then (.error .flush,{ s with usable := false })
  else (.ok (),{ s with db := change s.db })

def getTenant (id : UUID) (s : Session) : Except PipelineError Tenant × Session :=
  if s.usable then
    match s.db.tenant? id with
    | none => (.error (.notFound id),s)
    | some t => (.ok t,s)
  else (.error .pendingRollback,s)

/-- Assigning the status a tenant already has leaves nothing to flush. -/
def setOnboardingStatus (env : Env) (flush : Flush) (id : UUID) (status : OnboardingStatus)
    (s : Session) : Except PipelineError Unit × Session :=
  if s.usable then
    match s.db.tenant? id with
    | none => (.ok (),s)
    | some t =>
      if t.onboardingStatus = status then (.ok (),s)
      else commit env flush
        (·.setTenant id fun t => { t with onboardingStatus := status }) s
  else (.error .pendingRollback,s)

def activateTenant (env : Env) (id : UUID) (s : Session) :
    Except PipelineError Unit × Session :=
  andThen (getTenant id s) fun t s =>
    if t.status = .created then
      commit env .activate
        (·.setTenant id fun t =>
          { t with status := .active, activatedAt := some env.activatedAt }) s
    else (.error (.conflict id t.status),s)

def Env.call (env : Env) (id : UUID) (data : TenantConfigCreate) : CreateCall :=
  ⟨id,data,env.configId,env.now,env.createdAt⟩

/-- `create_active` in a session: the archived row is flushed before the new one, and both
are committed together. The new row refers to its tenant. -/
def createActive (env : Env) (id : UUID) (data : TenantConfigCreate) (s : Session) :
    Except PipelineError TenantConfig × Session :=
  if s.usable then
    match scalarOneOrNone .multipleResultsFound (activeRows id s.db.configs) with
    | .error err => (.error (.config err),s)
    | .ok current =>
      if current.isSome ∧ env.raises .archive ∨ env.raises .insert ∨ s.db.tenant? id = none then
        (.error .flush,{ s with usable := false })
      else
        match TenantConfigs.createActive s.db.configs (env.call id data) with
        | .error err => (.error (.config err),{ s with usable := false })
        | .ok (configs,read) => (.ok read,{ s with db := { s.db with configs := configs } })
  else (.error .pendingRollback,s)

variable [Interpreter]

/-- The body of the `try` statement. -/
def onboard (env : Env) (id : UUID) (s : Session) : Except PipelineError Unit × Session :=
  andThen (getTenant id s) fun tenant s =>
    andThen (prepare env.services tenant,s) fun data s =>
      andThen (createActive env id data s) fun _ s =>
        andThen (activateTenant env id s) fun _ s =>
          setOnboardingStatus env .complete id .complete s

/-- The handler of the `try` statement. -/
def orFailed (env : Env) (id : UUID) (r : Except PipelineError Unit × Session) :
    Except PipelineError Unit × Session :=
  match r with
  | (.ok a,s) => (.ok a,s)
  | (.error err,s) =>
    andThen (setOnboardingStatus env .failed id .failed s) fun _ s => (.error err,s)

def runPipeline (env : Env) (id : UUID) (s : Session) : Except PipelineError Unit × Session :=
  andThen (setOnboardingStatus env .running id .running s) fun _ s =>
    orFailed env id (onboard env id s)

/-- The job opens a session of its own for the run. -/
def runOnboardingPipeline (env : Env) (id : UUID) (db : Database) :
    Except PipelineError Unit × Database :=
  let r := runPipeline env id ⟨db,true⟩
  (r.1,r.2.db)

structure TenantCreate where
  companyName : String
  businessType : BusinessType
  websiteUrl : String

def createTenant (id : UUID) (data : TenantCreate) (db : Database) : Database :=
  if (db.tenant? id).isSome then db
  else { db with tenants := db.tenants ++
    [⟨id,data.companyName,data.businessType,data.websiteUrl,.pending,.created,none⟩] }

inductive Call
  | createTenant (id : UUID) (data : TenantCreate)
  | createActive (env : Env) (id : UUID) (data : TenantConfigCreate)
  | activateTenant (env : Env) (id : UUID)
  | setOnboardingStatus (env : Env) (flush : Flush) (id : UUID) (status : OnboardingStatus)
  | runOnboardingPipeline (env : Env) (id : UUID)

def Call.run (db : Database) : Call → Database
  | .createTenant id data => Onboarding.createTenant id data db
  | .createActive env id data => (Onboarding.createActive env id data ⟨db,true⟩).2.db
  | .activateTenant env id => (Onboarding.activateTenant env id ⟨db,true⟩).2.db
  | .setOnboardingStatus env flush id status =>
    (Onboarding.setOnboardingStatus env flush id status ⟨db,true⟩).2.db
  | .runOnboardingPipeline env id => (Onboarding.runOnboardingPipeline env id db).2

/-- One call, run to its end. -/
def CallStep (db : Database) (call : Call) (db' : Database) : Prop := call.run db = db'

end Run

/-- The run returned: the tenant is onboarded, with the config of this run. -/
structure Completed [DoubleArithmetic] [Interpreter] (env : Env) (t : Tenant)
    (before : Database) (r : Except PipelineError Unit × Database) : Prop where
  returned : r.1 = .ok ()
  tenant : ∃ t', r.2.tenant? t.id = some t' ∧ t'.onboardingStatus = .complete ∧
    t'.status = .active
  config : ∃ data, prepare env.services t = .ok data ∧ activeRows t.id r.2.configs =
    [(env.call t.id data).row ((rowsOf t.id before.configs).length + 1)]

/-- The run raised: the tenant is marked failed and nothing else of it changed. -/
structure RolledBack (t : Tenant) (before : Database)
    (r : Except PipelineError Unit × Database) : Prop where
  raised : ∃ err, r.1 = .error err
  tenant : ∃ t', r.2.tenant? t.id = some t' ∧ t'.onboardingStatus = .failed ∧
    t'.status = t.status ∧ t'.activatedAt = t.activatedAt
  config : rowsOf t.id r.2.configs = rowsOf t.id before.configs

end Onboarding
end LeadEngine
