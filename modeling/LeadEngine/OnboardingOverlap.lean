import LeadEngine.OnboardingRuns

/-! Overlapping onboarding runs: any finite number of `run_pipeline` executions, each of which
takes one step at a time, raises or is cut off anywhere, while the others go on. -/
namespace LeadEngine
namespace Onboarding

open Table TwoStageFilter TenantConfigs TransitionSystem

/-- Where a run stands, with the copy of the tenant that its session holds. -/
inductive RunPhase
  | start
  | marking (seen : Option Tenant)
  | running (seen : Option Tenant)
  | fetched (tenant : Tenant)
  | creating (tenant : Tenant)
  | created (tenant : Tenant)
  | activated (tenant : Tenant)
  | refreshed (tenant : Tenant)
  | handling (seen : Option Tenant) (usable : Bool)
  | failing (seen : Option Tenant)
  | over

def RunPhase.copy : RunPhase → Option Tenant
  | .marking seen | .running seen | .handling seen _ | .failing seen => seen
  | .fetched t | .creating t | .created t | .activated t | .refreshed t => some t
  | .start | .over => none

def RunPhase.inTry : RunPhase → Bool
  | .running _ | .fetched _ | .creating _ | .created _ | .activated _ | .refreshed _ => true
  | _ => false

/-- The committed tenants, the registry of configs with the `create_active` calls under way,
and the phase of every run. -/
structure Overlap (ι : Type) where
  tenants : List Tenant
  registry : Registry ι
  phase : ι → RunPhase

def Overlap.initial {ι : Type} : Overlap ι := ⟨[],.initial,fun _ => .start⟩

section Steps

variable {ι : Type}

def Overlap.database (w : Overlap ι) : Database := ⟨w.tenants,w.registry.db⟩

def Overlap.enter [DecidableEq ι] (w : Overlap ι) (i : ι) (p : RunPhase) : Overlap ι :=
  { w with phase := Function.update w.phase i p }

def Overlap.update (w : Overlap ι) (id : UUID) (change : Tenant → Tenant) : Overlap ι :=
  { w with tenants := (w.database.setTenant id change).tenants }

/-- `set_onboarding_status` with the session's copy: nothing to flush when it has the status. -/
def Overlap.assign (w : Overlap ι) (seen : Option Tenant) (id : UUID) (status : OnboardingStatus) :
    Overlap ι :=
  match seen with
  | none => w
  | some t =>
    if t.onboardingStatus = status then w
    else w.update id fun t => { t with onboardingStatus := status }

variable [DoubleArithmetic]

structure Run where
  tenantId : UUID
  env : Env
  data : TenantConfigCreate

def createCalls (runs : ι → Run) (i : ι) : CreateCall :=
  (runs i).env.call (runs i).tenantId (runs i).data

variable [Interpreter] [DecidableEq ι] [Fintype ι]

/-- One step of run `i`. `session.get` reads the row, or returns the copy the session holds. A
session whose flush failed refuses to commit: what a call flushed before it raised is gone. -/
inductive RunStep (runs : ι → Run) (w : Overlap ι) (i : ι) : Overlap ι → Prop
  | read (h : w.phase i = .start) :
      RunStep runs w i (w.enter i (.marking (w.database.tenant? (runs i).tenantId)))
  | mark (seen : Option Tenant) (h : w.phase i = .marking seen) :
      RunStep runs w i ((w.assign seen (runs i).tenantId .running).enter i (.running
        (seen.map fun t => { t with onboardingStatus := .running })))
  | fetch (seen : Option Tenant) (t : Tenant) (h : w.phase i = .running seen)
      (ht : seen = some t ∨ w.database.tenant? (runs i).tenantId = some t) :
      RunStep runs w i (w.enter i (.fetched t))
  | prepared (t : Tenant) (h : w.phase i = .fetched t)
      (hdata : prepare (runs i).env.services t = .ok (runs i).data) :
      RunStep runs w i (w.enter i (.creating t))
  | statement (t : Tenant) (registry : Registry ι) (h : w.phase i = .creating t)
      (hstep : RegistryStep (createCalls runs) w.registry (.advance i) registry) :
      RunStep runs w i { w with registry := registry }
  | statementFails (t : Tenant) (registry : Registry ι) (h : w.phase i = .creating t)
      (hstep : RegistryStep (createCalls runs) w.registry (.abort i) registry) :
      RunStep runs w i { w with registry := registry }
  | created (t : Tenant) (h : w.phase i = .creating t)
      (hcommitted : w.registry.phase i = .committed) :
      RunStep runs w i (w.enter i (.created t))
  | activate (t : Tenant) (h : w.phase i = .created t) (hstatus : t.status = .created) :
      RunStep runs w i ((w.update (runs i).tenantId fun t =>
        { t with status := .active, activatedAt := some (runs i).env.activatedAt }).enter i
        (.activated { t with status := .active, activatedAt := some (runs i).env.activatedAt }))
  | refresh (t t' : Tenant) (h : w.phase i = .activated t)
      (ht : w.database.tenant? (runs i).tenantId = some t') :
      RunStep runs w i (w.enter i (.refreshed t'))
  | complete (t : Tenant) (h : w.phase i = .refreshed t) :
      RunStep runs w i ((w.assign (some t) (runs i).tenantId .complete).enter i .over)
  | raise (usable : Bool) (htry : (w.phase i).inTry = true)
      (hcreate : ∀ t, w.phase i = .creating t → (w.registry.phase i).isOver = true) :
      RunStep runs w i (w.enter i (.handling (w.phase i).copy usable))
  | handle (seen seen' : Option Tenant) (h : w.phase i = .handling seen true)
      (hseen : seen' = seen ∨ seen' = w.database.tenant? (runs i).tenantId) :
      RunStep runs w i (w.enter i (.failing seen'))
  | markFailed (seen : Option Tenant) (h : w.phase i = .failing seen) :
      RunStep runs w i ((w.assign seen (runs i).tenantId .failed).enter i .over)
  | refused (seen : Option Tenant) (h : w.phase i = .handling seen false) :
      RunStep runs w i (w.enter i .over)
  | cutOff (h : w.phase i ≠ .over) :
      RunStep runs w i ({ w with
        registry := (registryNext (createCalls runs) w.registry (.abort i)).getD w.registry }.enter
          i .over)

inductive OverlapStep (runs : ι → Run) (w : Overlap ι) : Option ι → Overlap ι → Prop
  | run (i : ι) {w' : Overlap ι} (h : RunStep runs w i w') : OverlapStep runs w (some i) w'
  | createTenant (id : UUID) (data : TenantCreate) :
      OverlapStep runs w none { w with tenants := (createTenant id data w.database).tenants }

end Steps

section Invariant

variable {ι : Type} {w w' : Overlap ι}

/-- The tenant has a config version. -/
def Configured (w : Overlap ι) (id : UUID) : Prop := rowsOf id w.registry.db ≠ []

theorem rowsOf_ne_nil {db : List TenantConfig} {id : UUID} :
    rowsOf id db ≠ [] ↔ ∃ r ∈ db, r.tenantId = id := by
  constructor
  · intro h
    obtain ⟨r,hr⟩ := List.exists_mem_of_ne_nil _ h
    exact ⟨r,mem_rowsOf.mp hr⟩
  · rintro ⟨r,hr⟩
    exact List.ne_nil_of_mem (mem_rowsOf.mpr hr)

/-- What a run knows of the committed rows in each phase: the tenant it has read exists, a config
it has created is there, and a tenant it has activated is active. -/
structure KnownBy (w : Overlap ι) (id : UUID) (p : RunPhase) : Prop where
  exists_tenant : p.copy.isSome → ∃ t ∈ w.tenants, t.id = id
  configured : ∀ t, p = .created t ∨ p = .activated t ∨ p = .refreshed t → Configured w id
  active : ∀ t, p = .activated t ∨ p = .refreshed t →
    ∀ t' ∈ w.tenants, t'.id = id → t'.status = .active

/-- The statuses of the committed tenants say no more than what is there. -/
structure Truthful (w : Overlap ι) : Prop where
  complete : ∀ t ∈ w.tenants, t.onboardingStatus = .complete → t.status = .active
  active : ∀ t ∈ w.tenants, t.status = .active → t.activatedAt.isSome ∧ Configured w t.id

theorem mem_tenant? {id : UUID} {t : Tenant} (h : w.database.tenant? id = some t) :
    t ∈ w.tenants ∧ t.id = id :=
  ⟨List.mem_of_find?_eq_some h,by simpa using List.find?_some h⟩

theorem mem_update {id : UUID} {change : Tenant → Tenant} {t : Tenant} :
    t ∈ (w.update id change).tenants ↔
      (t ∈ w.tenants ∧ t.id ≠ id) ∨ ∃ x ∈ w.tenants, x.id = id ∧ t = change x := by
  simp only [Overlap.update,Database.setTenant,Overlap.database,List.mem_map]
  constructor
  · rintro ⟨x,hx,rfl⟩
    by_cases hid : x.id = id
    · exact Or.inr ⟨x,hx,hid,by rw [if_pos hid]⟩
    · rw [if_neg hid]
      exact Or.inl ⟨hx,hid⟩
  · rintro (⟨ht,hid⟩ | ⟨x,hx,hid,rfl⟩)
    · exact ⟨t,ht,if_neg hid⟩
    · exact ⟨x,hx,if_pos hid⟩

structure Kept (w w' : Overlap ι) : Prop where
  exists_tenant : ∀ id, (∃ t ∈ w.tenants, t.id = id) → ∃ t ∈ w'.tenants, t.id = id
  configured : ∀ id, Configured w id → Configured w' id
  active : ∀ id, (∃ t ∈ w.tenants, t.id = id) → (∀ t ∈ w.tenants, t.id = id → t.status = .active) →
    ∀ t ∈ w'.tenants, t.id = id → t.status = .active

theorem Kept.refl (w : Overlap ι) : Kept w w := ⟨fun _ h => h,fun _ h => h,fun _ _ h => h⟩

theorem KnownBy.mono {id : UUID} {p : RunPhase} (h : KnownBy w id p) (hkept : Kept w w') :
    KnownBy w' id p where
  exists_tenant := fun hp => hkept.exists_tenant id (h.exists_tenant hp)
  configured := fun t hp => hkept.configured id (h.configured t hp)
  active := fun t hp => hkept.active id
    (h.exists_tenant (by obtain rfl | rfl := hp <;> rfl)) (h.active t hp)

theorem kept_update (w : Overlap ι) (id : UUID) {change : Tenant → Tenant}
    (hid : ∀ t, (change t).id = t.id)
    (hstatus : ∀ t, t.status = .active → (change t).status = .active) :
    Kept w (w.update id change) where
  exists_tenant := by
    rintro i ⟨t,ht,rfl⟩
    by_cases htid : t.id = id
    · exact ⟨change t,mem_update.mpr (Or.inr ⟨t,ht,htid,rfl⟩),hid t⟩
    · exact ⟨t,mem_update.mpr (Or.inl ⟨ht,htid⟩),rfl⟩
  configured := fun _ h => h
  active := by
    intro i _ hall t ht hti
    obtain ⟨ht,_⟩ | ⟨x,hx,_,rfl⟩ := mem_update.mp ht
    · exact hall t ht hti
    · exact hstatus x (hall x hx ((hid x).symm.trans hti))

theorem kept_assign (w : Overlap ι) (seen : Option Tenant) (id : UUID) (status : OnboardingStatus) :
    Kept w (w.assign seen id status) := by
  unfold Overlap.assign
  split
  · exact .refl w
  · split_ifs
    · exact .refl w
    · exact kept_update w id (fun _ => rfl) fun _ h => h

theorem kept_createTenant (w : Overlap ι) (id : UUID) (data : TenantCreate) :
    Kept w { w with tenants := (createTenant id data w.database).tenants } := by
  unfold createTenant
  split_ifs with hold
  · exact .refl w
  · refine ⟨?_,fun _ h => h,?_⟩
    · rintro i ⟨t,ht,rfl⟩
      exact ⟨t,List.mem_append_left _ ht,rfl⟩
    · rintro i ⟨t₀,ht₀,rfl⟩ hall t ht hti
      rcases List.mem_append.mp ht with ht | ht
      · exact hall t ht hti
      · -- the new tenant has an id of its own
        obtain rfl := List.mem_singleton.mp ht
        have hsome : (w.database.tenant? id).isSome := by
          rw [Database.tenant?,List.find?_isSome]
          exact ⟨t₀,ht₀,by simpa using hti.symm⟩
        exact absurd hsome hold

theorem Truthful.assign (h : Truthful w) {seen : Option Tenant} {id : UUID}
    {status : OnboardingStatus}
    (hstatus : status = .complete → ∀ t ∈ w.tenants, t.id = id → t.status = .active) :
    Truthful (w.assign seen id status) := by
  unfold Overlap.assign
  split
  · exact h
  · split_ifs
    · exact h
    · constructor
      · intro t ht hcomplete
        obtain ⟨ht,_⟩ | ⟨x,hx,hxid,rfl⟩ := mem_update.mp ht
        · exact h.complete t ht hcomplete
        · exact hstatus hcomplete x hx hxid
      · intro t ht hactive
        obtain ⟨ht,_⟩ | ⟨x,hx,_,rfl⟩ := mem_update.mp ht
        · exact h.active t ht hactive
        · exact h.active x hx hactive

theorem Truthful.activate (h : Truthful w) {id : UUID} (hconfigured : Configured w id)
    (activatedAt : Time) : Truthful (w.update id fun t =>
      { t with status := .active, activatedAt := some activatedAt }) := by
  constructor
  · intro t ht hcomplete
    obtain ⟨ht,_⟩ | ⟨x,_,_,rfl⟩ := mem_update.mp ht
    · exact h.complete t ht hcomplete
    · rfl
  · intro t ht hactive
    obtain ⟨ht,_⟩ | ⟨x,_,hxid,rfl⟩ := mem_update.mp ht
    · exact h.active t ht hactive
    · exact ⟨rfl,by rw [← hxid] at hconfigured; exact hconfigured⟩

theorem Truthful.createTenant (h : Truthful w) (id : UUID) (data : TenantCreate) :
    Truthful { w with tenants := (createTenant id data w.database).tenants } := by
  unfold Onboarding.createTenant
  split_ifs
  · exact h
  · constructor
    · intro t ht hcomplete
      rcases List.mem_append.mp ht with ht | ht
      · exact h.complete t ht hcomplete
      · obtain rfl := List.mem_singleton.mp ht
        cases hcomplete
    · intro t ht hactive
      rcases List.mem_append.mp ht with ht | ht
      · exact h.active t ht hactive
      · obtain rfl := List.mem_singleton.mp ht
        cases hactive

section Registry

variable [DoubleArithmetic] [DecidableEq ι] [Fintype ι] {calls : ι → CreateCall}

theorem kept_registry {c' : Registry ι} (h : Reachable (RegistryStep calls) w.registry c') :
    Kept w { w with registry := c' } where
  exists_tenant := fun _ h => h
  configured := by
    intro id hid
    obtain ⟨r,hr,ht⟩ := rowsOf_ne_nil.mp hid
    obtain ⟨r',hr',_,ht',_⟩ := keeps_row_of_reachable h hr
    exact rowsOf_ne_nil.mpr ⟨r',hr',ht'.trans ht⟩
  active := fun _ _ h => h

theorem Truthful.registry {c' : Registry ι} (h : Truthful w)
    (hrun : Reachable (RegistryStep calls) w.registry c') :
    Truthful { w with registry := c' } where
  complete := h.complete
  active := fun t ht hactive => ⟨(h.active t ht hactive).1,
    (kept_registry hrun).configured t.id (h.active t ht hactive).2⟩

/-- A call that has committed has left a version. -/
theorem committed_configured {c : Registry ι} (h : Reachable (RegistryStep calls) .initial c)
    {i : ι} (hi : c.phase i = .committed) : rowsOf (calls i).tenantId c.db ≠ [] := by
  revert i
  refine h.invariant (I := fun c => ∀ {i}, c.phase i = .committed →
    rowsOf (calls i).tenantId c.db ≠ []) ?_ ?_
  · intro i hi
    cases hi
  · intro c m c' hall hs i hi
    have hkeeps : rowsOf (calls i).tenantId c.db ≠ [] → rowsOf (calls i).tenantId c'.db ≠ [] := by
      intro hold
      obtain ⟨r,hr,ht⟩ := rowsOf_ne_nil.mp hold
      obtain ⟨r',hr',_,ht',_⟩ := keeps_row_of_reachable (Reachable.refl.tail hs) hr
      exact rowsOf_ne_nil.mpr ⟨r',hr',ht'.trans ht⟩
    obtain ⟨j,hm⟩ := RegistryStep.moved hs
    by_cases hij : i = j
    · subst hij
      cases hm with
      | commit current version =>
        exact rowsOf_ne_nil.mpr ⟨_,List.mem_append_right _ (List.mem_singleton_self _),rfl⟩
      | _ =>
        rw [moveTo_phase_self] at hi
        cases hi
    · refine hkeeps (hall ?_)
      cases hm with
      | _ => rwa [moveTo_phase_ne _ _ _ _ hij] at hi

end Registry

structure Overlap.Sound [DoubleArithmetic] [DecidableEq ι] [Fintype ι] (runs : ι → Run)
    (w : Overlap ι) : Prop where
  registry : Reachable (RegistryStep (createCalls runs)) .initial w.registry
  truthful : Truthful w
  known : ∀ i, KnownBy w (runs i).tenantId (w.phase i)

theorem KnownBy.of_exists {id : UUID} {p : RunPhase}
    (hexists : p.copy.isSome → ∃ t ∈ w.tenants, t.id = id)
    (hp : ∀ t, p ≠ .created t ∧ p ≠ .activated t ∧ p ≠ .refreshed t) : KnownBy w id p where
  exists_tenant := hexists
  configured := by
    rintro t (hc | ha | hr)
    · exact absurd hc (hp t).1
    · exact absurd ha (hp t).2.1
    · exact absurd hr (hp t).2.2
  active := by
    rintro t (ha | hr)
    · exact absurd ha (hp t).2.1
    · exact absurd hr (hp t).2.2

theorem KnownBy.over {id : UUID} : KnownBy w id .over :=
  .of_exists (fun h => by cases h) fun _ => by simp

theorem assign_phase (w : Overlap ι) (seen : Option Tenant) (id : UUID)
    (status : OnboardingStatus) : (w.assign seen id status).phase = w.phase := by
  unfold Overlap.assign
  split
  · rfl
  · split_ifs <;> rfl

theorem assign_registry (w : Overlap ι) (seen : Option Tenant) (id : UUID)
    (status : OnboardingStatus) : (w.assign seen id status).registry = w.registry := by
  unfold Overlap.assign
  split
  · rfl
  · split_ifs <;> rfl

section Runs

variable [DoubleArithmetic] [DecidableEq ι] [Fintype ι] {runs : ι → Run} {w₁ : Overlap ι}

theorem Overlap.sound_initial : (Overlap.initial : Overlap ι).Sound runs where
  registry := .refl
  truthful := ⟨fun t ht => absurd ht List.not_mem_nil,fun t ht => absurd ht List.not_mem_nil⟩
  known := fun _ => .of_exists (fun h => by cases h) fun _ => by simp [Overlap.initial]

theorem Overlap.Sound.enter (h : w.Sound runs) (hkept : Kept w w₁) (hphase : w₁.phase = w.phase)
    (hregistry : Reachable (RegistryStep (createCalls runs)) .initial w₁.registry)
    (htruthful : Truthful w₁) {i : ι} {p : RunPhase} (hp : KnownBy w₁ (runs i).tenantId p) :
    (w₁.enter i p).Sound runs := by
  have henter : Kept w₁ (w₁.enter i p) := ⟨fun _ h => h,fun _ h => h,fun _ _ h => h⟩
  refine ⟨hregistry,⟨htruthful.complete,htruthful.active⟩,fun j => ?_⟩
  show KnownBy _ _ (Function.update w₁.phase i p j)
  by_cases hj : j = i
  · subst hj
    rw [Function.update_self]
    exact hp.mono henter
  · rw [Function.update_of_ne hj,hphase]
    exact ((h.known j).mono hkept).mono henter

theorem Overlap.Sound.enter_same (h : w.Sound runs) {i : ι} {p : RunPhase}
    (hp : KnownBy w (runs i).tenantId p) : (w.enter i p).Sound runs :=
  h.enter (.refl w) rfl h.registry h.truthful hp

theorem Overlap.Sound.registryStep (h : w.Sound runs) {m : Move ι} {registry : Registry ι}
    (hs : RegistryStep (createCalls runs) w.registry m registry) :
    ({ w with registry := registry } : Overlap ι).Sound runs :=
  have hrun := Reachable.refl.tail hs
  ⟨h.registry.tail hs,h.truthful.registry hrun,fun i => (h.known i).mono (kept_registry hrun)⟩

theorem Overlap.Sound.enter_assign (h : w.Sound runs) {i : ι} {p : RunPhase}
    {seen : Option Tenant} {status : OnboardingStatus}
    (hstatus : status = .complete → ∀ t ∈ w.tenants, t.id = (runs i).tenantId →
      t.status = .active)
    (hp : KnownBy w (runs i).tenantId p) :
    ((w.assign seen (runs i).tenantId status).enter i p).Sound runs := by
  have hkept := kept_assign w seen (runs i).tenantId status
  apply h.enter hkept (assign_phase ..) _ (h.truthful.assign hstatus) (hp.mono hkept)
  rw [assign_registry]
  exact h.registry

variable [Interpreter]

/-- One step of one run. -/
theorem RunStep.sound {i : ι} (hs : RunStep runs w i w') (h : w.Sound runs) : w'.Sound runs := by
  have hknown := h.known i
  cases hs with
  | read hp =>
    refine h.enter_same (.of_exists (fun hsome => ?_) fun _ => by simp)
    obtain ⟨t,ht⟩ := Option.isSome_iff_exists.mp hsome
    exact ⟨t,mem_tenant? ht⟩
  | mark seen hp =>
    rw [hp] at hknown
    refine h.enter_assign (fun hc => by cases hc) (.of_exists (fun hsome => ?_) fun _ => by simp)
    exact hknown.exists_tenant (by simpa [RunPhase.copy] using hsome)
  | fetch seen t hp ht =>
    rw [hp] at hknown
    refine h.enter_same (.of_exists (fun _ => ?_) fun _ => by simp)
    obtain rfl | ht := ht
    · exact hknown.exists_tenant rfl
    · exact ⟨t,mem_tenant? ht⟩
  | prepared t hp hdata =>
    rw [hp] at hknown
    exact h.enter_same (.of_exists (fun _ => hknown.exists_tenant rfl) fun _ => by simp)
  | statement t registry hp hstep => exact h.registryStep hstep
  | statementFails t registry hp hstep => exact h.registryStep hstep
  | created t hp hcommitted =>
    rw [hp] at hknown
    refine h.enter_same ⟨fun _ => hknown.exists_tenant rfl,fun _ _ => ?_,by simp⟩
    exact committed_configured h.registry hcommitted
  | activate t hp hstatus =>
    rw [hp] at hknown
    have hconfigured := hknown.configured t (.inl rfl)
    have hkept : Kept w (w.update (runs i).tenantId fun t =>
        { t with status := .active, activatedAt := some (runs i).env.activatedAt }) :=
      kept_update w _ (fun _ => rfl) fun _ _ => rfl
    refine h.enter hkept rfl h.registry (h.truthful.activate hconfigured _)
      ⟨fun _ => hkept.exists_tenant _ (hknown.exists_tenant rfl),fun _ _ => hconfigured,
        fun _ _ t' ht' hid => ?_⟩
    obtain ⟨_,hne⟩ | ⟨x,_,_,rfl⟩ := mem_update.mp ht'
    · exact absurd hid hne
    · rfl
  | refresh t t' hp ht =>
    rw [hp] at hknown
    exact h.enter_same ⟨fun _ => ⟨t',mem_tenant? ht⟩,
      fun _ _ => hknown.configured t (.inr (.inl rfl)),fun _ _ => hknown.active t (.inl rfl)⟩
  | complete t hp =>
    rw [hp] at hknown
    exact h.enter_assign (fun _ => hknown.active t (.inr rfl)) .over
  | raise usable htry hcreate =>
    exact h.enter_same (.of_exists hknown.exists_tenant fun _ => by simp)
  | handle seen seen' hp hseen =>
    rw [hp] at hknown
    refine h.enter_same (.of_exists (fun hsome => ?_) fun _ => by simp)
    obtain rfl | rfl := hseen
    · exact hknown.exists_tenant hsome
    · obtain ⟨t,ht⟩ := Option.isSome_iff_exists.mp hsome
      exact ⟨t,mem_tenant? ht⟩
  | markFailed seen hp => exact h.enter_assign (fun hc => by cases hc) .over
  | refused seen hp => exact h.enter_same .over
  | cutOff hp =>
    cases hn : registryNext (createCalls runs) w.registry (.abort i) with
    | none => exact h.enter_same .over
    | some registry =>
      exact (h.registryStep (m := .abort i) hn).enter_same .over

/-- What holds of the rows and of the runs holds after every interleaving. -/
theorem Overlap.sound_of_reachable (h : Reachable (OverlapStep runs) .initial w) :
    w.Sound runs := by
  apply h.invariant (I := Overlap.Sound runs) Overlap.sound_initial
  intro w a w' hw hs
  cases hs with
  | run i hstep => exact hstep.sound hw
  | createTenant id data =>
    have hkept := kept_createTenant w id data
    exact ⟨hw.registry,hw.truthful.createTenant id data,fun i => (hw.known i).mono hkept⟩

/-- In every interleaving of onboarding runs, each raising or cut off anywhere, a tenant whose
onboarding is complete is active, and an active tenant has its activation time and exactly one
active config. -/
theorem onboarding_never_overstates (h : Reachable (OverlapStep runs) .initial w) :
    ∀ t ∈ w.tenants, (t.onboardingStatus = .complete → t.status = .active) ∧
      (t.status = .active →
        t.activatedAt.isSome ∧ ∃ r, activeRows t.id w.registry.db = [r]) := by
  intro t ht
  have hsound := Overlap.sound_of_reachable h
  refine ⟨hsound.truthful.complete t ht,fun hactive => ?_⟩
  obtain ⟨hactivated,hconfigured⟩ := hsound.truthful.active t ht hactive
  have hconfigs := TenantConfigs.sound_of_reachable hsound.registry
  obtain ⟨r,hr,hrs,_⟩ := (hconfigs.registered t.id).exists_active hconfigured
  exact ⟨hactivated,r,(hconfigs.registered t.id).activeRows_eq hconfigs.ids hr hrs⟩

end Runs

end Invariant

/-- Two runs of one tenant overlap: both prepare a config before either creates one, the second
archives that of the first, and both complete the onboarding. -/
theorem overlapping_runs_complete :
    letI := DoubleArithmetic.exact
    letI := Interpreter.ascii id
    ∃ (runs : Bool → Run) (w : Overlap Bool), Reachable (OverlapStep runs) .initial w ∧
      w.registry.db.length = 2 ∧ ∃ t ∈ w.tenants, t.onboardingStatus = .complete ∧
        t.status = .active ∧ t.activatedAt.isSome ∧
        ∃ r, activeRows t.id w.registry.db = [r] := by
  let := DoubleArithmetic.exact
  let := Interpreter.ascii id
  obtain ⟨data,hdata⟩ : ∃ data, prepare (plainEnv 1 []).services
      { acme with onboardingStatus := .running } = .ok data := by
    cases hp : prepare (plainEnv 1 []).services { acme with onboardingStatus := .running } with
    | ok data => exact ⟨data,rfl⟩
    | error err =>
      have hok : (prepare (plainEnv 1 []).services
        { acme with onboardingStatus := .running }).isOk = true := by decide +kernel
      rw [hp] at hok
      cases hok
  let runs : Bool → Run := fun i => ⟨1,plainEnv (i.toNat+1) [],data⟩
  have hcreated : Reachable (OverlapStep runs) .initial _ :=
    Reachable.refl.tail (.createTenant 1 ⟨"Acme",.b2b,"https://acme.com/"⟩)
  -- both runs mark the tenant and prepare a config
  have hmarked := (hcreated.tail (.run false (.read rfl))).tail (.run false (.mark _ rfl))
  have hfetched := hmarked.tail (.run false (.fetch _ _ rfl (.inl rfl)))
  have hmarked' := (hfetched.tail (.run true (.read rfl))).tail (.run true (.mark _ rfl))
  have hfetched' := hmarked'.tail (.run true (.fetch _ _ rfl (.inl rfl)))
  have hprepared := (hfetched'.tail (.run false (.prepared _ rfl hdata))).tail
    (.run true (.prepared _ rfl hdata))
  -- the first version
  have hselected := hprepared.tail (.run false (.statement _ _ rfl rfl))
  have hnumbered := hselected.tail (.run false (.statement _ _ rfl rfl))
  have hinserted := hnumbered.tail (.run false (.statement _ _ rfl rfl))
  have hcommitted := hinserted.tail (.run false (.statement _ _ rfl rfl))
  -- the second version
  have hselected' := hcommitted.tail (.run true (.statement _ _ rfl rfl))
  have hflushed' := hselected'.tail (.run true (.statement _ _ rfl rfl))
  have hnumbered' := hflushed'.tail (.run true (.statement _ _ rfl rfl))
  have hinserted' := hnumbered'.tail (.run true (.statement _ _ rfl rfl))
  have hcommitted' := hinserted'.tail (.run true (.statement _ _ rfl rfl))
  have hactivated := (hcommitted'.tail (.run false (.created _ rfl rfl))).tail
    (.run false (.activate _ rfl rfl))
  have hcomplete := (hactivated.tail (.run false (.refresh _ _ rfl rfl))).tail
    (.run false (.complete _ rfl))
  have hactivated' := (hcomplete.tail (.run true (.created _ rfl rfl))).tail
    (.run true (.activate _ rfl rfl))
  have hcomplete' := (hactivated'.tail (.run true (.refresh _ _ rfl rfl))).tail
    (.run true (.complete _ rfl))
  obtain ⟨w,hw,hversions,t,ht,hdone⟩ : ∃ w, Reachable (OverlapStep runs) .initial w ∧
      w.registry.db.length = 2 ∧ ∃ t ∈ w.tenants, t.onboardingStatus = .complete :=
    ⟨_,hcomplete',rfl,_,.head _,rfl⟩
  obtain ⟨hactive,hconfig⟩ := onboarding_never_overstates hw t ht
  exact ⟨runs,w,hw,hversions,t,ht,hdone,hactive hdone,hconfig (hactive hdone)⟩

end Onboarding
end LeadEngine
