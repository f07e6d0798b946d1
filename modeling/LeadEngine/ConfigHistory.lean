import Mathlib.Data.List.Range
import LeadEngine.ConfigRegistry

/-! The versions of a tenant as the committed rows show them, and the invariant that keeps
them in order through every interleaving of `create_active`. -/
namespace LeadEngine
namespace TenantConfigs

open Table TwoStageFilter TransitionSystem

/-- The versions of one tenant: numbered without gaps, the last one active, each of the
others archived at the moment its successor was activated. -/
structure Registered (rows : List TenantConfig) : Prop where
  versions : rows.map TenantConfig.version = List.range' 1 rows.length
  active : ∀ r ∈ rows, r.status = .active ↔ r.version = rows.length
  archivedAt : ∀ r ∈ rows, ∀ r' ∈ rows, r'.version = r.version + 1 → r.archivedAt = r'.activatedAt
  activatedAt : ∀ r ∈ rows, r.activatedAt.isSome
  current : ∀ r ∈ rows, r.status = .active → r.archivedAt = none

@[simp] theorem archive_id (now : Time) (id : UUID) (r : TenantConfig) :
    (archive now id r).id = r.id := by unfold archive; split_ifs <;> rfl
@[simp] theorem archive_tenantId (now : Time) (id : UUID) (r : TenantConfig) :
    (archive now id r).tenantId = r.tenantId := by unfold archive; split_ifs <;> rfl
@[simp] theorem archive_version (now : Time) (id : UUID) (r : TenantConfig) :
    (archive now id r).version = r.version := by unfold archive; split_ifs <;> rfl
@[simp] theorem archive_payload (now : Time) (id : UUID) (r : TenantConfig) :
    (archive now id r).payload = r.payload := by unfold archive; split_ifs <;> rfl
@[simp] theorem archive_activatedAt (now : Time) (id : UUID) (r : TenantConfig) :
    (archive now id r).activatedAt = r.activatedAt := by unfold archive; split_ifs <;> rfl

theorem archive_of_ne {now : Time} {id : UUID} {r : TenantConfig} (h : r.id ≠ id) :
    archive now id r = r := if_neg h

section Versions

variable {rows : List TenantConfig} (h : Registered rows)
include h

theorem Registered.mem_version {r : TenantConfig} (hr : r ∈ rows) :
    1 ≤ r.version ∧ r.version ≤ rows.length := by
  have hm : r.version ∈ rows.map TenantConfig.version := List.mem_map_of_mem hr
  rw [h.versions,List.mem_range'_1] at hm
  omega

theorem Registered.eq_of_version {r r' : TenantConfig} (hr : r ∈ rows) (hr' : r' ∈ rows)
    (hv : r.version = r'.version) : r = r' := by
  have hnodup : (rows.map TenantConfig.version).Nodup := by
    rw [h.versions]
    exact List.nodup_range'
  exact List.inj_on_of_nodup_map hnodup hr hr' hv

theorem Registered.exists_active (hne : rows ≠ []) :
    ∃ r ∈ rows, r.status = .active ∧ r.version = rows.length := by
  have hlen : 0 < rows.length := List.length_pos_of_ne_nil hne
  have hm : rows.length ∈ rows.map TenantConfig.version := by
    rw [h.versions,List.mem_range'_1]
    omega
  obtain ⟨r,hr,hv⟩ := List.mem_map.mp hm
  exact ⟨r,hr,(h.active r hr).mpr hv,hv⟩

theorem Registered.eq_of_active {r r' : TenantConfig} (hr : r ∈ rows) (hr' : r' ∈ rows)
    (ha : r.status = .active) (ha' : r'.status = .active) : r = r' :=
  h.eq_of_version hr hr' (((h.active r hr).mp ha).trans ((h.active r' hr').mp ha').symm)

end Versions

theorem Registered.nil : Registered [] := by
  constructor <;> simp

theorem Registered.first {r : TenantConfig} (hv : r.version = 1) (ha : r.status = .active)
    (hactivated : r.activatedAt.isSome) (hopen : r.archivedAt = none) : Registered [r] where
  versions := by simp [hv]
  active := by simp [hv,ha]
  archivedAt := by simp [hv]
  activatedAt := by simpa using hactivated
  current := by simpa using fun _ => hopen

section Next

variable {rows : List TenantConfig} {a : TenantConfig} (h : Registered rows)
  (hids : (rows.map TenantConfig.id).Nodup) (ha : a ∈ rows) (hactive : a.status = .active)
  (now : Time)
include h ha hactive

theorem Registered.status_archive {x : TenantConfig} (hx : x ∈ rows) :
    (archive now a.id x).status = .archived := by
  by_cases hid : x.id = a.id
  · simp [archive,hid]
  · rw [archive_of_ne hid]
    cases hs : x.status with
    | archived => rfl
    | active => exact absurd (congrArg _ (h.eq_of_active hx ha hs hactive)) hid

include hids

theorem Registered.archive_eq_self {x x' : TenantConfig} (hx : x ∈ rows) (hx' : x' ∈ rows)
    (hsucc : x'.version = x.version + 1) : archive now a.id x = x := by
  have hlast : a.version = rows.length := (h.active a ha).mp hactive
  have hle := (h.mem_version hx').2
  apply archive_of_ne
  intro hid
  have hxa : x = a := List.inj_on_of_nodup_map hids hx ha hid
  rw [hxa] at hsucc
  omega

/-- The next version of a tenant, with the active one archived at the same moment. -/
theorem Registered.next {r : TenantConfig} (hv : r.version = rows.length + 1)
    (hr : r.status = .active) (hactivated : r.activatedAt = some now)
    (hopen : r.archivedAt = none) : Registered (rows.map (archive now a.id) ++ [r]) := by
  have hlast : a.version = rows.length := (h.active a ha).mp hactive
  have hmem : ∀ y ∈ rows.map (archive now a.id) ++ [r],
      (∃ x ∈ rows, y = archive now a.id x) ∨ y = r := by
    intro y hy
    rcases List.mem_append.mp hy with hy | hy
    · obtain ⟨x,hx,rfl⟩ := List.mem_map.mp hy
      exact Or.inl ⟨x,hx,rfl⟩
    · exact Or.inr (List.mem_singleton.mp hy)
  constructor
  · have hversion : (TenantConfig.version ∘ archive now a.id) = TenantConfig.version := by
      funext x
      simp
    rw [List.map_append,List.map_map,hversion,h.versions]
    simp [hv,List.range'_1_concat,Nat.add_comm]
  · intro y hy
    simp only [List.length_append,List.length_map,List.length_singleton]
    rcases hmem y hy with ⟨x,hx,rfl⟩ | rfl
    · have hle := (h.mem_version hx).2
      rw [h.status_archive ha hactive now hx,archive_version]
      constructor
      · simp
      · omega
    · simp [hr,hv]
  · intro y hy y' hy' hsucc
    rcases hmem y hy with ⟨x,hx,rfl⟩ | rfl <;> rcases hmem y' hy' with ⟨x',hx',rfl⟩ | rfl
    · rw [archive_version,archive_version] at hsucc
      rw [h.archive_eq_self hids ha hactive now hx hx' hsucc,archive_activatedAt]
      exact h.archivedAt x hx x' hx' hsucc
    · rw [archive_version] at hsucc
      have hxa : x = a := h.eq_of_version hx ha (by omega)
      rw [hxa,hactivated]
      simp [archive]
    · have hle := (h.mem_version hx').2
      rw [archive_version] at hsucc
      omega
    · omega
  · intro y hy
    rcases hmem y hy with ⟨x,hx,rfl⟩ | rfl
    · rw [archive_activatedAt]
      exact h.activatedAt x hx
    · simp [hactivated]
  · intro y hy hs
    rcases hmem y hy with ⟨x,hx,rfl⟩ | rfl
    · rw [h.status_archive ha hactive now hx] at hs
      cases hs
    · exact hopen

end Next

section Rows

variable {db : List TenantConfig} {t : UUID}

theorem mem_rowsOf {r : TenantConfig} : r ∈ rowsOf t db ↔ r ∈ db ∧ r.tenantId = t := by
  simp [rowsOf]

theorem rowsOf_append (xs ys : List TenantConfig) :
    rowsOf t (xs ++ ys) = rowsOf t xs ++ rowsOf t ys := by
  simp [rowsOf]

theorem rowsOf_map_archive (now : Time) (id : UUID) :
    rowsOf t (db.map (archive now id)) = (rowsOf t db).map (archive now id) := by
  have hcomp : (fun r => decide (r.tenantId = t)) ∘ archive now id =
      fun r => decide (r.tenantId = t) := by
    funext r
    simp
  rw [rowsOf,List.filter_map,hcomp]
  rfl

theorem nodup_rowsOf (hids : (db.map TenantConfig.id).Nodup) :
    ((rowsOf t db).map TenantConfig.id).Nodup :=
  hids.sublist ((List.filter_sublist).map _)

theorem activeRows_eq_filter (t : UUID) (db : List TenantConfig) :
    activeRows t db = (rowsOf t db).filter fun r => r.status = .active := by
  rw [activeRows,rowsOf,List.filter_filter]
  apply List.filter_congr
  intro r _
  by_cases hr : r.status = .active <;> simp [hr]

theorem activeRows_nil (h : rowsOf t db = []) : activeRows t db = [] := by
  rw [activeRows_eq_filter,h]
  rfl

theorem Registered.activeRows_eq (h : Registered (rowsOf t db))
    (hids : (db.map TenantConfig.id).Nodup) {a : TenantConfig} (ha : a ∈ rowsOf t db)
    (hs : a.status = .active) : activeRows t db = [a] := by
  have hnodup : (activeRows t db).Nodup := by
    apply List.Nodup.of_map TenantConfig.id
    rw [activeRows_eq_filter]
    exact (nodup_rowsOf hids).sublist ((List.filter_sublist).map _)
  have hmem : ∀ r, r ∈ activeRows t db ↔ r ∈ [a] := by
    intro r
    rw [activeRows_eq_filter,List.mem_filter,decide_eq_true_eq,List.mem_singleton]
    constructor
    · rintro ⟨hr,hrs⟩
      exact h.eq_of_active hr ha hrs hs
    · rintro rfl
      exact ⟨ha,hs⟩
  exact List.perm_singleton.mp
    ((List.perm_ext_iff_of_nodup hnodup (List.nodup_singleton a)).mpr hmem)

/-- The active version a call has read is still the tenant's newest one; a call that read none
is the first. -/
def Ready (db : List TenantConfig) (t : UUID) : Option TenantConfig → Prop
  | none => rowsOf t db = []
  | some r => ∃ a ∈ rowsOf t db, a.status = .active ∧ a.id = r.id

theorem Ready.congr {db' : List TenantConfig} {current : Option TenantConfig}
    (h : rowsOf t db' = rowsOf t db) : Ready db' t current ↔ Ready db t current := by
  cases current <;> simp [Ready,h]

theorem Registered.nextVersion (h : Registered (rowsOf t db)) :
    nextVersion db t = (rowsOf t db).length + 1 := by
  rw [TenantConfigs.nextVersion,h.versions]
  by_cases hlen : (rowsOf t db).length = 0
  · simp [hlen]
  · have hmax : (List.range' 1 (rowsOf t db).length).max? = some (rowsOf t db).length := by
      rw [List.max?_eq_some_iff]
      constructor
      · rw [List.mem_range'_1]
        omega
      · intro b hb
        rw [List.mem_range'_1] at hb
        omega
    simp [hmax]

theorem nextVersion_archived (now : Time) (current : Option TenantConfig) :
    nextVersion (archived now current db) t = nextVersion db t := by
  cases current with
  | none => rfl
  | some r =>
    have hversion : TenantConfig.version ∘ archive now r.id = TenantConfig.version := by
      funext x
      simp
    rw [TenantConfigs.nextVersion,archived,rowsOf_map_archive,List.map_map,hversion]
    rfl

theorem mem_archived (now : Time) (current : Option TenantConfig) {db : List TenantConfig}
    {r : TenantConfig} (hr : r ∈ db) : ∃ r' ∈ archived now current db, r'.id = r.id ∧
      r'.tenantId = r.tenantId ∧ r'.version = r.version ∧ r'.payload = r.payload ∧
      r'.activatedAt = r.activatedAt := by
  cases current with
  | none => exact ⟨r,hr,rfl,rfl,rfl,rfl,rfl⟩
  | some a => exact ⟨archive now a.id r,List.mem_map_of_mem hr,by simp⟩

theorem of_mem_archived {now : Time} {current : Option TenantConfig} {db : List TenantConfig}
    {r : TenantConfig} (hr : r ∈ archived now current db) : ∃ r' ∈ db, r.id = r'.id ∧
      r.tenantId = r'.tenantId ∧ r.version = r'.version ∧ r.payload = r'.payload ∧
      r.activatedAt = r'.activatedAt := by
  cases current with
  | none => exact ⟨r,hr,rfl,rfl,rfl,rfl,rfl⟩
  | some a =>
    obtain ⟨r',hr',rfl⟩ := List.mem_map.mp hr
    exact ⟨r',hr',by simp⟩

end Rows

section Commit

variable [DoubleArithmetic] {db : List TenantConfig} {call : CreateCall}
  {current : Option TenantConfig} {version : ℕ}

theorem rowsOf_row_self (version : ℕ) :
    rowsOf call.tenantId [call.row version] = [call.row version] := by
  simp [rowsOf,CreateCall.row]

theorem rowsOf_row_ne {t : UUID} (h : t ≠ call.tenantId) (version : ℕ) :
    rowsOf t [call.row version] = [] := by
  simp [rowsOf,CreateCall.row,Ne.symm h]

theorem rowsOf_commit_ne (hids : (db.map TenantConfig.id).Nodup)
    (hready : Ready db call.tenantId current) {t : UUID} (h : t ≠ call.tenantId) (version : ℕ) :
    rowsOf t (archived call.now current db ++ [call.row version]) = rowsOf t db := by
  rw [rowsOf_append,rowsOf_row_ne h,List.append_nil]
  cases current with
  | none => rfl
  | some r =>
    obtain ⟨a,ha,_,hid⟩ := hready
    obtain ⟨hmem,ht⟩ := mem_rowsOf.mp ha
    rw [archived,rowsOf_map_archive]
    conv_rhs => rw [← List.map_id (rowsOf t db)]
    apply List.map_congr_left
    intro x hx
    obtain ⟨hx,hxt⟩ := mem_rowsOf.mp hx
    apply archive_of_ne
    intro hsame
    have heq : x = a := List.inj_on_of_nodup_map hids hx hmem (hsame.trans hid.symm)
    exact h (hxt.symm.trans (heq ▸ ht))

/-- A call that is ready commits the next version of its tenant. -/
theorem registered_commit (hids : (db.map TenantConfig.id).Nodup)
    (hreg : ∀ t, Registered (rowsOf t db)) (hready : Ready db call.tenantId current)
    (hv : version = (rowsOf call.tenantId db).length + 1) (t : UUID) :
    Registered (rowsOf t (archived call.now current db ++ [call.row version])) := by
  by_cases ht : t = call.tenantId
  · rw [ht,rowsOf_append,rowsOf_row_self]
    cases current with
    | none =>
      have hempty : rowsOf call.tenantId db = [] := hready
      rw [archived,hempty,List.nil_append]
      apply Registered.first
      · show version = 1
        rw [hv,hempty]
        rfl
      · rfl
      · rfl
      · rfl
    | some r =>
      obtain ⟨a,ha,hactive,hid⟩ := hready
      rw [archived,rowsOf_map_archive,← hid]
      exact (hreg call.tenantId).next (nodup_rowsOf hids) ha hactive call.now hv rfl rfl rfl
  · rw [rowsOf_commit_ne hids hready ht version]
    exact hreg t

omit [DoubleArithmetic] in
theorem map_id_archived (now : Time) (current : Option TenantConfig) (db : List TenantConfig) :
    (archived now current db).map TenantConfig.id = db.map TenantConfig.id := by
  cases current with
  | none => rfl
  | some r =>
    have hid : TenantConfig.id ∘ archive now r.id = TenantConfig.id := by
      funext x
      simp
    rw [archived,List.map_map,hid]

theorem nodup_commit (hids : (db.map TenantConfig.id).Nodup)
    (hfresh : call.id ∉ db.map TenantConfig.id) :
    ((archived call.now current db ++ [call.row version]).map TenantConfig.id).Nodup := by
  rw [List.map_append,map_id_archived]
  refine List.nodup_append.mpr ⟨hids,List.nodup_singleton _,?_⟩
  intro x hx y hy hxy
  have hid : y = call.id := List.mem_singleton.mp hy
  rw [hxy,hid] at hx
  exact hfresh hx

omit [DoubleArithmetic] in
theorem finds_current (hids : (db.map TenantConfig.id).Nodup)
    (hreg : ∀ t, Registered (rowsOf t db)) (t : UUID) :
    ∃ current, scalarOneOrNone ConfigError.multipleResultsFound (activeRows t db) = .ok current ∧
      (current = none ↔ rowsOf t db = []) ∧ Ready db t current ∧
      ∀ now, ∀ r ∈ archived now current db, r.tenantId = t → r.status = .archived := by
  by_cases hempty : rowsOf t db = []
  · refine ⟨none,by rw [activeRows_nil hempty]; rfl,by simp [hempty],hempty,?_⟩
    intro now r hr ht
    have hmem : r ∈ rowsOf t db := mem_rowsOf.mpr ⟨hr,ht⟩
    simp [hempty] at hmem
  · obtain ⟨a,ha,hs,_⟩ := (hreg t).exists_active hempty
    refine ⟨some a,?_,by simp [hempty],⟨a,ha,hs,rfl⟩,?_⟩
    · rw [(hreg t).activeRows_eq hids ha hs]
      rfl
    · intro now r hr ht
      obtain ⟨x,hx,rfl⟩ := List.mem_map.mp hr
      rw [archive_tenantId] at ht
      exact (hreg t).status_archive ha hs now (mem_rowsOf.mpr ⟨hx,ht⟩)

/-- A call with no other under way finds the newest version, and commits the next one. -/
theorem createActive_ok (hids : (db.map TenantConfig.id).Nodup)
    (hreg : ∀ t, Registered (rowsOf t db)) (hfresh : call.id ∉ db.map TenantConfig.id) :
    ∃ current, Ready db call.tenantId current ∧
      createActive db call = .ok (archived call.now current db ++
        [call.row ((rowsOf call.tenantId db).length + 1)],
        call.row ((rowsOf call.tenantId db).length + 1)) := by
  obtain ⟨current,hscalar,hnone,hready,harchived⟩ := finds_current hids hreg call.tenantId
  refine ⟨current,hready,?_⟩
  have hversion : nextVersion (archived call.now current db) call.tenantId =
      (rowsOf call.tenantId db).length + 1 := by
    rw [nextVersion_archived,(hreg call.tenantId).nextVersion]
  have hfree : ¬ Violates (archived call.now current db)
      (call.row ((rowsOf call.tenantId db).length + 1)) := by
    simp only [Violates,not_or]
    refine ⟨?_,?_,?_⟩
    · rintro ⟨r,hr,hkey,_⟩
      apply hfresh
      rw [← map_id_archived call.now current]
      exact List.mem_map.mpr ⟨r,hr,Option.some.inj hkey⟩
    · rintro ⟨r,hr,hkey,_⟩
      obtain ⟨r',hr',_,ht',hv',_⟩ := of_mem_archived hr
      have hpair := Prod.mk.inj (Option.some.inj hkey)
      have hmem : r' ∈ rowsOf call.tenantId db := mem_rowsOf.mpr ⟨hr',ht'.symm.trans hpair.1⟩
      have hle := ((hreg call.tenantId).mem_version hmem).2
      have hlast : r.version = (rowsOf call.tenantId db).length + 1 := hpair.2
      omega
    · rintro ⟨r,hr,hkey,_⟩
      have hactive : r.activeKey = some call.tenantId := by
        rw [hkey]
        simp [TenantConfig.activeKey,CreateCall.row]
      obtain ⟨ht,hs⟩ := TenantConfig.activeKey_eq_some.mp hactive
      rw [harchived call.now r hr ht] at hs
      cases hs
  simp only [createActive,hscalar,hversion,if_neg hfree,modelValidate_row]
  rfl

end Commit

end TenantConfigs
end LeadEngine
