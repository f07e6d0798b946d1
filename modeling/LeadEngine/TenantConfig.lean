import Mathlib.Algebra.Order.Group.Unbundled.Abs
import Mathlib.Algebra.Order.Ring.Unbundled.Rat
import LeadEngine.TwoStageFilter
import LeadEngine.Table

/-! The tenant config registry: validated payloads, the stored versions and the two
service functions that read and replace a tenant's active version. -/
namespace LeadEngine
namespace TenantConfigs

open Fallible Table TwoStageFilter

/-- Addition and subtraction of doubles, on the rationals they stand for. -/
class DoubleArithmetic where
  add : ℚ → ℚ → ℚ
  sub : ℚ → ℚ → ℚ

@[reducible] def DoubleArithmetic.exact : DoubleArithmetic := ⟨fun a b => a + b,fun a b => a - b⟩

structure Weights where
  fit : ℚ
  intent : ℚ
  engagement : ℚ
  behaviour : ℚ
  context : ℚ

def Weights.values (w : Weights) : List ℚ :=
  [w.fit,w.intent,w.engagement,w.behaviour,w.context]

/-- The double nearest to 1e-6. -/
def sumTolerance : ℚ := 4722366482869645 / 4722366482869645213696

section Arithmetic

variable [DoubleArithmetic]

open DoubleArithmetic in
def Weights.total (w : Weights) : ℚ :=
  add (add (add (add w.fit w.intent) w.engagement) w.behaviour) w.context

def Weights.Valid (w : Weights) : Prop :=
  (∀ x ∈ w.values, 0 ≤ x ∧ x ≤ 1) ∧ |DoubleArithmetic.sub w.total 1| ≤ sumTolerance

instance (w : Weights) : Decidable w.Valid := by unfold Weights.Valid; infer_instance

end Arithmetic

structure Thresholds where
  hot : ℤ
  warm : ℤ

def Thresholds.Valid (t : Thresholds) : Prop :=
  0 ≤ t.hot ∧ t.hot ≤ 100 ∧ 0 ≤ t.warm ∧ t.warm ≤ 100 ∧ t.warm < t.hot

instance (t : Thresholds) : Decidable t.Valid := by unfold Thresholds.Valid; infer_instance

structure ConfigPayload where
  businessProfile : List (String × Json)
  icp : List (String × Json)
  signals : List Signal
  weights : Weights
  thresholds : Thresholds

def dimensions : List Dimension := [.fit,.intent,.engagement,.behaviour,.context]

theorem mem_dimensions (d : Dimension) : d ∈ dimensions := by
  cases d <;> simp [dimensions]

structure TenantConfigCreate [DoubleArithmetic] extends ConfigPayload where
  nonempty : signals ≠ []
  uniqueIds : (signals.map Signal.id).Nodup
  covers : ∀ d ∈ dimensions, d ∈ signals.map Signal.dimension
  weights_valid : weights.Valid
  thresholds_valid : thresholds.Valid

inductive ConfigStatus
  | active | archived
  deriving DecidableEq

structure TenantConfig where
  id : UUID
  tenantId : UUID
  version : ℕ
  status : ConfigStatus
  payload : ConfigPayload
  createdAt : Time
  activatedAt : Option Time
  archivedAt : Option Time

inductive ConfigError
  | multipleResultsFound | validationError | integrityError
  deriving DecidableEq

namespace TenantConfig

def idKey (r : TenantConfig) : Option UUID := some r.id

def versionKey (r : TenantConfig) : Option (UUID × ℕ) := some (r.tenantId,r.version)

def activeKey (r : TenantConfig) : Option UUID :=
  if r.status = .active then some r.tenantId else none

@[simp] theorem activeKey_eq_some {r : TenantConfig} {t : UUID} :
    r.activeKey = some t ↔ r.tenantId = t ∧ r.status = .active := by
  unfold activeKey
  split_ifs with h <;> simp [h]

end TenantConfig

def rowsOf (tenantId : UUID) (table : List TenantConfig) : List TenantConfig :=
  table.filter fun r => r.tenantId = tenantId

def activeRows (tenantId : UUID) (table : List TenantConfig) : List TenantConfig :=
  table.filter fun r => r.tenantId = tenantId ∧ r.status = .active

/-- `UPDATE … SET status = 'ARCHIVED', archived_at = now` on one row. -/
def archive (now : Time) (id : UUID) (r : TenantConfig) : TenantConfig :=
  if r.id = id then { r with status := .archived, archivedAt := some now } else r

/-- The table after the archive statement; there is none without an active version. -/
def archived (now : Time) (current : Option TenantConfig) (table : List TenantConfig) :
    List TenantConfig :=
  match current with
  | none => table
  | some r => table.map (archive now r.id)

/-- `(max(version) or 0) + 1`. -/
def nextVersion (table : List TenantConfig) (tenantId : UUID) : ℕ :=
  ((rowsOf tenantId table).map TenantConfig.version).max?.getD 0 + 1

section Service

variable [DoubleArithmetic]

/-- `TenantConfigRead.model_validate`: the row itself, once weights and thresholds are
checked again. -/
def modelValidate (r : TenantConfig) : Except ConfigError TenantConfig :=
  if r.payload.weights.Valid ∧ r.payload.thresholds.Valid then .ok r else .error .validationError

def getActiveConfig (table : List TenantConfig) (tenantId : UUID) :
    Except ConfigError (Option TenantConfig) :=
  match scalarOneOrNone .multipleResultsFound (activeRows tenantId table) with
  | .error err => .error err
  | .ok none => .ok none
  | .ok (some r) => (modelValidate r).map some

theorem mem_of_getActiveConfig {table : List TenantConfig} {tenantId : UUID} {r : TenantConfig}
    (h : getActiveConfig table tenantId = .ok (some r)) : r ∈ activeRows tenantId table := by
  unfold getActiveConfig at h
  split at h
  · cases h
  · cases h
  · rename_i found hfound
    obtain ⟨read,hread,hr⟩ := map_eq_ok.mp h
    obtain rfl := Option.some.inj hr
    unfold modelValidate at hread
    split_ifs at hread
    obtain rfl := Except.ok.inj hread
    exact (scalarOneOrNone_mem hfound _).mp rfl

/-- One call of `create_active`, with the id and the two clock readings it draws. -/
structure CreateCall where
  tenantId : UUID
  data : TenantConfigCreate
  id : UUID
  now : Time
  createdAt : Time

def CreateCall.row (call : CreateCall) (version : ℕ) : TenantConfig where
  id := call.id
  tenantId := call.tenantId
  version := version
  status := .active
  payload := call.data.toConfigPayload
  createdAt := call.createdAt
  activatedAt := some call.now
  archivedAt := none

def Violates (table : List TenantConfig) (r : TenantConfig) : Prop :=
  Conflicts TenantConfig.idKey table r ∨ Conflicts TenantConfig.versionKey table r ∨
    Conflicts TenantConfig.activeKey table r

instance (table : List TenantConfig) (r : TenantConfig) : Decidable (Violates table r) := by
  unfold Violates; infer_instance

def createActive (table : List TenantConfig) (call : CreateCall) :
    Except ConfigError (List TenantConfig × TenantConfig) :=
  match scalarOneOrNone .multipleResultsFound (activeRows call.tenantId table) with
  | .error err => .error err
  | .ok current =>
    let flushed := archived call.now current table
    let config := call.row (nextVersion flushed call.tenantId)
    if Violates flushed config then .error .integrityError
    else (modelValidate config).map fun read => (flushed ++ [config],read)

theorem modelValidate_row (call : CreateCall) (version : ℕ) :
    modelValidate (call.row version) = .ok (call.row version) :=
  if_pos ⟨call.data.weights_valid,call.data.thresholds_valid⟩

end Service

end TenantConfigs
end LeadEngine
