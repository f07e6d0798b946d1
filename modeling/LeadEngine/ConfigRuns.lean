import LeadEngine.ConfigHistory

/-! Runs of interleaved `create_active` calls: what holds of the calls in flight, and from it
what holds of the committed versions at any time. -/
namespace LeadEngine
namespace TenantConfigs

open Table TwoStageFilter TransitionSystem

section Invariant

variable [DoubleArithmetic] {ι : Type} {calls : ι → CreateCall} {c : Registry ι}

def WrittenBy (calls : ι → CreateCall) (c : Registry ι) (r : TenantConfig) (i : ι) : Prop :=
  c.phase i = .committed ∧ r.id = (calls i).id ∧ r.tenantId = (calls i).tenantId ∧
    r.payload = (calls i).data.toConfigPayload ∧ r.activatedAt = some (calls i).now

def Known (calls : ι → CreateCall) (db : List TenantConfig) (i : ι) (p : CallPhase) : Prop :=
  ∀ r, p.current = some r → ∃ x ∈ db, x.id = r.id ∧ x.tenantId = (calls i).tenantId

/-- What holds of a call in each phase, given the committed rows. A call that overtakes nobody
has the right number; one that was overtaken is no longer ready. -/
structure Standing (calls : ι → CreateCall) (db : List TenantConfig) (i : ι) (p : CallPhase) :
    Prop where
  known : Known calls db i p
  numbered : ∀ current version, p = .numbered current version →
    Ready db (calls i).tenantId current → version = (rowsOf (calls i).tenantId db).length + 1
  inserted : ∀ current version, p = .inserted current version →
    Ready db (calls i).tenantId current ∧ version = (rowsOf (calls i).tenantId db).length + 1 ∧
      (calls i).id ∉ db.map TenantConfig.id

structure Sound (calls : ι → CreateCall) (c : Registry ι) : Prop where
  ids : (c.db.map TenantConfig.id).Nodup
  registered : ∀ t, Registered (rowsOf t c.db)
  written : ∀ r ∈ c.db, ∃ i, WrittenBy calls c r i
  standing : ∀ i, Standing calls c.db i (c.phase i)
  exclusive : ∀ i j current version current' version',
    c.phase i = .inserted current version → c.phase j = .inserted current' version' →
    (calls i).tenantId = (calls j).tenantId ∨ (calls i).id = (calls j).id → i = j

theorem Standing.of_reading {db : List TenantConfig} {i : ι} {p : CallPhase}
    (hknown : Known calls db i p) (hn : ∀ current version, p ≠ .numbered current version)
    (hi : ∀ current version, p ≠ .inserted current version) : Standing calls db i p where
  known := hknown
  numbered := fun current version h => absurd h (hn current version)
  inserted := fun current version h => absurd h (hi current version)

theorem sound_initial : Sound calls Registry.initial where
  ids := List.nodup_nil
  registered := fun _ => Registered.nil
  written := fun r hr => absurd hr List.not_mem_nil
  standing := fun i => .of_reading (fun r hr => by simp [Registry.initial,CallPhase.current] at hr)
    (by simp [Registry.initial]) (by simp [Registry.initial])
  exclusive := fun i j current version current' version' h => by simp [Registry.initial] at h

variable [DecidableEq ι]

/-- A step that commits nothing keeps the invariant when the new phase has its standing. -/
theorem Sound.quiet (h : Sound calls c) {i : ι} {p : CallPhase}
    (hover : c.phase i ≠ .committed) (hp : Standing calls c.db i p)
    (hexcl : ∀ current version, p = .inserted current version →
      ¬ InsertHeld calls c i ((calls i).row version)) : Sound calls (c.moveTo i c.db p) where
  ids := h.ids
  registered := h.registered
  written := by
    intro r hr
    obtain ⟨j,hj,hfields⟩ := h.written r hr
    have hne : j ≠ i := fun heq => hover (heq ▸ hj)
    exact ⟨j,by rw [moveTo_phase_ne _ _ _ _ hne]; exact hj,hfields⟩
  standing := by
    intro j
    by_cases hj : j = i
    · subst hj
      rw [moveTo_phase_self]
      exact hp
    · rw [moveTo_phase_ne _ _ _ _ hj]
      exact h.standing j
  exclusive := by
    have hheld : ∀ j current version current' version', j ≠ i → p = .inserted current version →
        c.phase j = .inserted current' version' →
        ¬ ((calls j).tenantId = (calls i).tenantId ∨ (calls j).id = (calls i).id) := by
      intro j current version current' version' hj hins hpj hsame
      apply hexcl current version hins
      refine ⟨j,hj,version',by simp [hpj,CallPhase.pending],?_⟩
      obtain ht | hid := hsame
      · exact Or.inr (Or.inr ⟨_,List.mem_singleton_self _,by
          simp [TenantConfig.activeKey,CreateCall.row,ht]⟩)
      · exact Or.inl ⟨_,List.mem_singleton_self _,by
          simp [TenantConfig.idKey,CreateCall.row,hid]⟩
    intro j k current version current' version' hj hk hsame
    by_cases hji : j = i <;> by_cases hki : k = i
    · rw [hji,hki]
    · subst hji
      rw [moveTo_phase_self] at hj
      rw [moveTo_phase_ne _ _ _ _ hki] at hk
      exact absurd (hsame.imp Eq.symm Eq.symm) (hheld k _ _ _ _ hki hj hk)
    · subst hki
      rw [moveTo_phase_self] at hk
      rw [moveTo_phase_ne _ _ _ _ hji] at hj
      exact absurd hsame (hheld j _ _ _ _ hji hk hj)
    · rw [moveTo_phase_ne _ _ _ _ hji] at hj
      rw [moveTo_phase_ne _ _ _ _ hki] at hk
      exact h.exclusive j k _ _ _ _ hj hk hsame

omit [DecidableEq ι] in
/-- A commit of one call leaves every other call with its standing. -/
theorem Sound.standing_commit (h : Sound calls c) {i j : ι} {current : Option TenantConfig}
    {version : ℕ} (hi : c.phase i = .inserted current version) (hj : j ≠ i) :
    Standing calls (archived (calls i).now current c.db ++ [(calls i).row version]) j
      (c.phase j) := by
  obtain ⟨hready,hversion,hfresh⟩ := (h.standing i).inserted current version hi
  have hreg := registered_commit h.ids h.registered hready hversion
  constructor
  · intro r hr
    obtain ⟨x,hx,hid,ht⟩ := (h.standing j).known r hr
    obtain ⟨x',hx',hid',ht',_⟩ := mem_archived (calls i).now current hx
    exact ⟨x',List.mem_append_left _ hx',hid'.trans hid,ht'.trans ht⟩
  · intro current' version' hp hready'
    by_cases ht : (calls j).tenantId = (calls i).tenantId
    · exfalso
      rw [ht] at hready'
      cases current' with
      | none =>
        have hempty : rowsOf (calls i).tenantId
            (archived (calls i).now current c.db ++ [(calls i).row version]) = [] := hready'
        rw [rowsOf_append,rowsOf_row_self] at hempty
        simp at hempty
      | some r =>
        obtain ⟨a,ha,hactive,hid⟩ := hready'
        have hnew : (calls i).row version ∈ rowsOf (calls i).tenantId
            (archived (calls i).now current c.db ++ [(calls i).row version]) := by
          rw [rowsOf_append,rowsOf_row_self]
          simp
        have hsame := (hreg (calls i).tenantId).eq_of_active ha hnew hactive rfl
        obtain ⟨x,hx,hxid,_⟩ := (h.standing j).known r (by simp [hp,CallPhase.current])
        apply hfresh
        rw [show (calls i).id = x.id from (congrArg TenantConfig.id hsame).symm.trans
          (hid.trans hxid.symm)]
        exact List.mem_map_of_mem hx
    · have hrows := rowsOf_commit_ne h.ids hready ht version
      rw [hrows]
      exact (h.standing j).numbered current' version' hp ((Ready.congr hrows).mp hready')
  · intro current' version' hp
    have hne : ¬ ((calls i).tenantId = (calls j).tenantId ∨ (calls i).id = (calls j).id) :=
      fun hsame => hj (h.exclusive i j _ _ _ _ hi hp hsame).symm
    obtain ⟨ht,hid⟩ := not_or.mp hne
    obtain ⟨hready',hversion',hfresh'⟩ := (h.standing j).inserted current' version' hp
    have hrows := rowsOf_commit_ne h.ids hready (Ne.symm ht) version
    rw [hrows]
    refine ⟨(Ready.congr hrows).mpr hready',hversion',?_⟩
    rw [List.map_append,map_id_archived]
    simp only [List.mem_append,not_or]
    refine ⟨hfresh',?_⟩
    simpa [CreateCall.row] using Ne.symm hid

theorem Sound.commit (h : Sound calls c) {i : ι} {current : Option TenantConfig} {version : ℕ}
    (hi : c.phase i = .inserted current version) :
    Sound calls (c.moveTo i (archived (calls i).now current c.db ++ [(calls i).row version])
      .committed) where
  ids := nodup_commit h.ids ((h.standing i).inserted current version hi).2.2
  registered := by
    obtain ⟨hready,hversion,_⟩ := (h.standing i).inserted current version hi
    exact registered_commit h.ids h.registered hready hversion
  written := by
    intro r hr
    rcases List.mem_append.mp hr with hr | hr
    · obtain ⟨r',hr',hid,ht,_,hpayload,hactivated⟩ := of_mem_archived hr
      obtain ⟨j,hj,hfields⟩ := h.written r' hr'
      have hne : j ≠ i := by
        rintro rfl
        rw [hi] at hj
        cases hj
      refine ⟨j,by rw [moveTo_phase_ne _ _ _ _ hne]; exact hj,?_⟩
      rw [hid,ht,hpayload,hactivated]
      exact hfields
    · rw [List.mem_singleton.mp hr]
      exact ⟨i,moveTo_phase_self ..,rfl,rfl,rfl,rfl⟩
  standing := by
    intro j
    by_cases hj : j = i
    · subst hj
      rw [moveTo_phase_self]
      exact .of_reading (by simp [Known,CallPhase.current]) (by simp) (by simp)
    · rw [moveTo_phase_ne _ _ _ _ hj]
      exact h.standing_commit hi hj
  exclusive := by
    intro j k current₁ version₁ current₂ version₂ hj hk hsame
    have hji : j ≠ i := by
      rintro rfl
      rw [moveTo_phase_self] at hj
      cases hj
    have hki : k ≠ i := by
      rintro rfl
      rw [moveTo_phase_self] at hk
      cases hk
    rw [moveTo_phase_ne _ _ _ _ hji] at hj
    rw [moveTo_phase_ne _ _ _ _ hki] at hk
    exact h.exclusive j k _ _ _ _ hj hk hsame

omit [DecidableEq ι] in
/-- An insert that violates no index: the call has read the newest version as active, or
there is none. -/
theorem Sound.ready_of_free (h : Sound calls c) {i : ι} {current : Option TenantConfig}
    {version : ℕ} (hp : c.phase i = .numbered current version)
    (hfree : ¬ Violates (archived (calls i).now current c.db) ((calls i).row version)) :
    Ready c.db (calls i).tenantId current ∧ (calls i).id ∉ c.db.map TenantConfig.id := by
  simp only [Violates,not_or] at hfree
  obtain ⟨hid,_,hactive⟩ := hfree
  have hno : ∀ x ∈ archived (calls i).now current c.db, x.tenantId = (calls i).tenantId →
      x.status ≠ .active := by
    intro x hx ht hs
    apply hactive
    exact ⟨x,hx,by simp [TenantConfig.activeKey,CreateCall.row,ht,hs],
      by simp [TenantConfig.activeKey,CreateCall.row]⟩
  constructor
  · cases current with
    | none =>
      show rowsOf (calls i).tenantId c.db = []
      by_contra hne
      obtain ⟨a,ha,hs,_⟩ := (h.registered (calls i).tenantId).exists_active hne
      obtain ⟨hmem,ht⟩ := mem_rowsOf.mp ha
      exact hno a hmem ht hs
    | some r =>
      obtain ⟨x,hx,_,hxt⟩ := (h.standing i).known r (by simp [hp,CallPhase.current])
      have hne : rowsOf (calls i).tenantId c.db ≠ [] :=
        List.ne_nil_of_mem (mem_rowsOf.mpr ⟨hx,hxt⟩)
      obtain ⟨a,ha,hs,_⟩ := (h.registered (calls i).tenantId).exists_active hne
      refine ⟨a,ha,hs,?_⟩
      by_contra hother
      obtain ⟨hmem,ht⟩ := mem_rowsOf.mp ha
      have hstored : a ∈ archived (calls i).now (some r) c.db :=
        List.mem_map.mpr ⟨a,hmem,archive_of_ne hother⟩
      exact hno a hstored ht hs
  · intro hstored
    rw [← map_id_archived (calls i).now current] at hstored
    obtain ⟨x,hx,hxid⟩ := List.mem_map.mp hstored
    apply hid
    exact ⟨x,hx,by simp [TenantConfig.idKey,CreateCall.row,hxid],by simp [TenantConfig.idKey]⟩

variable [Fintype ι] {c' : Registry ι}

omit [Fintype ι] in
theorem Moved.sound {i : ι} (h : Sound calls c) (hm : Moved calls c i c') : Sound calls c' := by
  have hreading : ∀ p q, c.phase i = p → p.current = q.current → Known calls c.db i q := by
    intro p q hp hq r hr
    exact (h.standing i).known r (by rw [hp,hq]; exact hr)
  cases hm with
  | raise hover =>
    refine h.quiet ?_ (.of_reading (by simp [Known,CallPhase.current]) (by simp) (by simp))
      (by simp)
    intro hp
    simp [hp,CallPhase.isOver] at hover
  | select current hp hcurrent =>
    refine h.quiet (by simp [hp]) (.of_reading ?_ (by simp) (by simp)) (by simp)
    intro r hr
    have hmem := (scalarOneOrNone_mem hcurrent r).mp hr
    simp only [activeRows,List.mem_filter,decide_eq_true_eq] at hmem
    exact ⟨r,hmem.1,rfl,hmem.2.1⟩
  | flush r hp =>
    exact h.quiet (by simp [hp]) (.of_reading (hreading _ _ hp rfl) (by simp) (by simp)) (by simp)
  | numberFirst hp =>
    refine h.quiet (by simp [hp]) ⟨hreading _ _ hp rfl,?_,by simp⟩ (by simp)
    rintro current version ⟨⟩ _
    exact (h.registered _).nextVersion
  | number r hp =>
    refine h.quiet (by simp [hp]) ⟨hreading _ _ hp rfl,?_,by simp⟩ (by simp)
    rintro current version ⟨⟩ _
    rw [nextVersion_archived]
    exact (h.registered _).nextVersion
  | insert current version hp hfree hheld =>
    obtain ⟨hready,hfresh⟩ := h.ready_of_free hp hfree
    refine h.quiet (by simp [hp]) ⟨hreading _ _ hp rfl,by simp,?_⟩ ?_
    · rintro current' version' ⟨⟩
      exact ⟨hready,(h.standing i).numbered current version hp hready,hfresh⟩
    · rintro current' version' ⟨⟩
      exact hheld
  | commit current version hp => exact h.commit hp

/-- Every interleaving keeps the registry sound. -/
theorem sound_of_reachable (h : Reachable (RegistryStep calls) .initial c) : Sound calls c := by
  apply h.invariant (I := Sound calls) sound_initial
  intro c m c' hc hs
  obtain ⟨i,hm⟩ := RegistryStep.moved hs
  exact hm.sound hc

omit [Fintype ι] in
theorem Moved.keeps_row {i : ι} (hm : Moved calls c i c') {r : TenantConfig} (hr : r ∈ c.db) :
    ∃ r' ∈ c'.db, r'.id = r.id ∧ r'.tenantId = r.tenantId ∧ r'.version = r.version ∧
      r'.payload = r.payload ∧ r'.activatedAt = r.activatedAt := by
  cases hm with
  | commit current version =>
    obtain ⟨r',hr',hfields⟩ := mem_archived (calls i).now current hr
    exact ⟨r',List.mem_append_left _ hr',hfields⟩
  | _ => exact ⟨r,hr,rfl,rfl,rfl,rfl,rfl⟩

theorem keeps_row_of_reachable (h : Reachable (RegistryStep calls) c c') {r : TenantConfig}
    (hr : r ∈ c.db) : ∃ r' ∈ c'.db, r'.id = r.id ∧ r'.tenantId = r.tenantId ∧
      r'.version = r.version ∧ r'.payload = r.payload ∧ r'.activatedAt = r.activatedAt := by
  apply h.invariant (I := fun c' => ∃ r' ∈ c'.db, r'.id = r.id ∧ r'.tenantId = r.tenantId ∧
    r'.version = r.version ∧ r'.payload = r.payload ∧ r'.activatedAt = r.activatedAt)
  · exact ⟨r,hr,rfl,rfl,rfl,rfl,rfl⟩
  · rintro d m d' ⟨x,hx,hid,ht,hv,hpayload,hactivated⟩ hs
    obtain ⟨i,hm⟩ := RegistryStep.moved hs
    obtain ⟨x',hx',hid',ht',hv',hpayload',hactivated'⟩ := hm.keeps_row hx
    exact ⟨x',hx',hid'.trans hid,ht'.trans ht,hv'.trans hv,hpayload'.trans hpayload,
      hactivated'.trans hactivated⟩

omit [DecidableEq ι] [Fintype ι] in
theorem Sound.getActiveConfig (h : Sound calls c) {t : UUID} {a : TenantConfig}
    (ha : a ∈ rowsOf t c.db) (hs : a.status = .active) :
    getActiveConfig c.db t = .ok (some a) := by
  obtain ⟨hmem,ht⟩ := mem_rowsOf.mp ha
  have hsingle := (h.registered t).activeRows_eq h.ids ha hs
  obtain ⟨i,_,_,_,hpayload,_⟩ := h.written a hmem
  have hvalid : modelValidate a = .ok a := by
    apply if_pos
    rw [hpayload]
    exact ⟨(calls i).data.weights_valid,(calls i).data.thresholds_valid⟩
  simp only [TenantConfigs.getActiveConfig,hsingle,scalarOneOrNone,hvalid]
  rfl

/-- In every interleaving of `create_active` calls the committed versions of a tenant are
numbered without gaps, only the newest is active, each other was archived when its successor
was activated, no payload ever changes, and the active config is the payload of the call that
wrote the newest version. -/
theorem config_registry (h : Reachable (RegistryStep calls) .initial c) (t : UUID) :
    Registered (rowsOf t c.db) ∧
      (∀ c', Reachable (RegistryStep calls) c c' → ∀ r ∈ rowsOf t c.db, ∃ r' ∈ rowsOf t c'.db,
        r'.version = r.version ∧ r'.payload = r.payload) ∧
      (rowsOf t c.db = [] → getActiveConfig c.db t = .ok none) ∧
      (rowsOf t c.db ≠ [] → ∃ read i, getActiveConfig c.db t = .ok (some read) ∧
        read.version = (rowsOf t c.db).length ∧ WrittenBy calls c read i ∧
        (read.payload.signals.map Signal.id).Nodup ∧
        ∀ d, ∃ signal ∈ read.payload.signals, signal.dimension = d) := by
  have hsound := sound_of_reachable h
  refine ⟨hsound.registered t,?_,?_,?_⟩
  · intro c' hrun r hr
    obtain ⟨hmem,ht⟩ := mem_rowsOf.mp hr
    obtain ⟨r',hr',_,ht',hv,hpayload,_⟩ := keeps_row_of_reachable hrun hmem
    exact ⟨r',mem_rowsOf.mpr ⟨hr',ht'.trans ht⟩,hv,hpayload⟩
  · intro hempty
    simp [TenantConfigs.getActiveConfig,activeRows_nil hempty,scalarOneOrNone]
  · intro hne
    obtain ⟨a,ha,hs,hv⟩ := (hsound.registered t).exists_active hne
    obtain ⟨i,hi⟩ := hsound.written a (mem_rowsOf.mp ha).1
    refine ⟨a,i,hsound.getActiveConfig ha hs,hv,hi,?_,?_⟩
    · rw [hi.2.2.2.1]
      exact (calls i).data.uniqueIds
    · intro d
      rw [hi.2.2.2.1]
      exact List.mem_map.mp ((calls i).data.covers d (mem_dimensions d))

end Invariant

def plainConfig : @TenantConfigCreate .exact :=
  letI := DoubleArithmetic.exact
  { businessProfile := []
    icp := []
    signals := [⟨"s1",.fit,"?"⟩,⟨"s2",.intent,"?"⟩,⟨"s3",.engagement,"?"⟩,⟨"s4",.behaviour,"?"⟩,
      ⟨"s5",.context,"?"⟩]
    weights := ⟨1/4,1/4,1/4,1/8,1/8⟩
    thresholds := ⟨70,40⟩
    nonempty := by simp
    uniqueIds := by decide
    covers := by decide
    weights_valid := by decide +kernel
    thresholds_valid := by decide }

def threeCalls (i : Fin 3) : @CreateCall .exact :=
  letI := DoubleArithmetic.exact
  ⟨1,plainConfig,i,i,i⟩

/-- The first call is alone. The others both read its version as active and archive it one
after the other; the second of them fails at its insert. -/
def overlapping {ι : Type} (first second third : ι) : List (Move ι) :=
  List.replicate 5 (.advance first) ++
    [.advance second,.advance third,.advance second,.advance third,.advance second,
      .advance second,.advance second,.advance third,.advance third,.advance third]

theorem overlapping_registered :
    letI := DoubleArithmetic.exact
    let c := follow (registryNext threeCalls) .initial (overlapping 0 1 2)
    (rowsOf 1 c.db).map TenantConfig.archivedAt = [some 1,none] ∧ Registered (rowsOf 1 c.db) := by
  let := DoubleArithmetic.exact
  intro c
  have hpath : Reachable (RegistryStep threeCalls) .initial c := (path_follow _ _ _).reachable
  exact ⟨by decide +kernel,(config_registry hpath 1).1⟩

end TenantConfigs
end LeadEngine
