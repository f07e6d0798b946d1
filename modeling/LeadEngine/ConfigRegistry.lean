import Mathlib.Data.Fintype.Basic
import Mathlib.Logic.Function.Basic
import LeadEngine.TenantConfig
import LeadEngine.TransitionSystem

/-! Interleaved calls of `create_active`, any finite number of them. Each call runs one database
statement at a time; under READ COMMITTED a statement sees the committed rows and the call's own
writes, an update waits for the row lock and an insert for the conflicting rows of calls in
flight. -/
namespace LeadEngine
namespace TenantConfigs

open Table TransitionSystem

inductive CallPhase
  | start
  | selected (current : Option TenantConfig)
  | flushed (current : TenantConfig)
  | numbered (current : Option TenantConfig) (version : ℕ)
  | inserted (current : Option TenantConfig) (version : ℕ)
  | committed
  | raised

def CallPhase.locks : CallPhase → Option UUID
  | .flushed current => some current.id
  | .numbered current _ | .inserted current _ => current.map TenantConfig.id
  | _ => none

def CallPhase.pending : CallPhase → Option ℕ
  | .inserted _ version => some version
  | _ => none

def CallPhase.current : CallPhase → Option TenantConfig
  | .selected current | .numbered current _ | .inserted current _ => current
  | .flushed current => some current
  | _ => none

def CallPhase.isOver : CallPhase → Bool
  | .committed | .raised => true
  | _ => false

structure Registry (ι : Type) where
  db : List TenantConfig
  phase : ι → CallPhase

def Registry.initial {ι : Type} : Registry ι := ⟨[],fun _ => .start⟩

def Registry.moveTo {ι : Type} [DecidableEq ι] (c : Registry ι) (i : ι) (db : List TenantConfig)
    (p : CallPhase) : Registry ι :=
  ⟨db,Function.update c.phase i p⟩

section MoveTo

variable {ι : Type} [DecidableEq ι] (c : Registry ι) (i : ι) (db : List TenantConfig)
  (p : CallPhase)

@[simp] theorem moveTo_db : (c.moveTo i db p).db = db := rfl

@[simp] theorem moveTo_phase_self : (c.moveTo i db p).phase i = p := by simp [Registry.moveTo]

theorem moveTo_phase_ne {j : ι} (h : j ≠ i) : (c.moveTo i db p).phase j = c.phase j := by
  simp [Registry.moveTo,h]

end MoveTo

section Steps

variable [DoubleArithmetic] {ι : Type}

def RowLocked (c : Registry ι) (i : ι) (id : UUID) : Prop :=
  ∃ j, j ≠ i ∧ (c.phase j).locks = some id

/-- Another call in flight has inserted a row that the insert would conflict with. -/
def InsertHeld (calls : ι → CreateCall) (c : Registry ι) (i : ι) (r : TenantConfig) : Prop :=
  ∃ j, j ≠ i ∧ ∃ version ∈ (c.phase j).pending, Violates [(calls j).row version] r

/-- An active row of the tenant is being archived by another call in flight. -/
def ActiveLocked (c : Registry ι) (i : ι) (tenantId : UUID) : Prop :=
  ∃ r ∈ activeRows tenantId c.db, RowLocked c i r.id

variable [DecidableEq ι] [Fintype ι]

omit [DoubleArithmetic] in
instance (c : Registry ι) (i : ι) (id : UUID) : Decidable (RowLocked c i id) := by
  unfold RowLocked; infer_instance

instance (calls : ι → CreateCall) (c : Registry ι) (i : ι) (r : TenantConfig) :
    Decidable (InsertHeld calls c i r) := by
  unfold InsertHeld; infer_instance

omit [DoubleArithmetic] in
instance (c : Registry ι) (i : ι) (tenantId : UUID) : Decidable (ActiveLocked c i tenantId) := by
  unfold ActiveLocked; infer_instance

/-- The next statement of a call, or the end of a call that fails on its own: cut off, or
chosen to break a deadlock. -/
inductive Move (ι : Type)
  | advance (i : ι)
  | abort (i : ι)

/-- The next statement of call `i`; `none` while it waits and once it is over. -/
def advance (calls : ι → CreateCall) (c : Registry ι) (i : ι) : Option (Registry ι) :=
  let call := calls i
  match c.phase i with
  | .start =>
    match scalarOneOrNone ConfigError.multipleResultsFound (activeRows call.tenantId c.db) with
    | .error _ => some (c.moveTo i c.db .raised)
    | .ok current => some (c.moveTo i c.db (.selected current))
  | .selected none =>
    some (c.moveTo i c.db (.numbered none (nextVersion c.db call.tenantId)))
  | .selected (some current) =>
    if RowLocked c i current.id then none else some (c.moveTo i c.db (.flushed current))
  | .flushed current =>
    let seen := archived call.now (some current) c.db
    some (c.moveTo i c.db (.numbered (some current) (nextVersion seen call.tenantId)))
  | .numbered current version =>
    if Violates (archived call.now current c.db) (call.row version) then
      if ActiveLocked c i call.tenantId then none else some (c.moveTo i c.db .raised)
    else if InsertHeld calls c i (call.row version) then none
    else some (c.moveTo i c.db (.inserted current version))
  | .inserted current version =>
    some (c.moveTo i (archived call.now current c.db ++ [call.row version]) .committed)
  | .committed | .raised => none

def registryNext (calls : ι → CreateCall) (c : Registry ι) : Move ι → Option (Registry ι)
  | .advance i => advance calls c i
  | .abort i => if (c.phase i).isOver then none else some (c.moveTo i c.db .raised)

def RegistryStep (calls : ι → CreateCall) (c : Registry ι) (m : Move ι) (c' : Registry ι) : Prop :=
  registryNext calls c m = some c'

/-- What one step does: a call moves to a phase that follows the committed rows, or commits. -/
inductive Moved (calls : ι → CreateCall) (c : Registry ι) (i : ι) : Registry ι → Prop
  | raise (h : (c.phase i).isOver = false) : Moved calls c i (c.moveTo i c.db .raised)
  | select (current : Option TenantConfig) (h : c.phase i = .start)
      (hcurrent : scalarOneOrNone ConfigError.multipleResultsFound
        (activeRows (calls i).tenantId c.db) = .ok current) :
      Moved calls c i (c.moveTo i c.db (.selected current))
  | flush (current : TenantConfig) (h : c.phase i = .selected (some current))
      (hfree : ¬ RowLocked c i current.id) :
      Moved calls c i (c.moveTo i c.db (.flushed current))
  | numberFirst (h : c.phase i = .selected none) :
      Moved calls c i (c.moveTo i c.db (.numbered none (nextVersion c.db (calls i).tenantId)))
  | number (current : TenantConfig) (h : c.phase i = .flushed current) :
      Moved calls c i (c.moveTo i c.db (.numbered (some current)
        (nextVersion (archived (calls i).now (some current) c.db) (calls i).tenantId)))
  | insert (current : Option TenantConfig) (version : ℕ)
      (h : c.phase i = .numbered current version)
      (hfree : ¬ Violates (archived (calls i).now current c.db) ((calls i).row version))
      (hheld : ¬ InsertHeld calls c i ((calls i).row version)) :
      Moved calls c i (c.moveTo i c.db (.inserted current version))
  | commit (current : Option TenantConfig) (version : ℕ)
      (h : c.phase i = .inserted current version) :
      Moved calls c i (c.moveTo i
        (archived (calls i).now current c.db ++ [(calls i).row version]) .committed)

theorem moved_of_advance {calls : ι → CreateCall} {c c' : Registry ι} {i : ι}
    (h : advance calls c i = some c') : Moved calls c i c' := by
  unfold advance at h
  cases hp : c.phase i with
  | start =>
    simp only [hp] at h
    split at h
    · obtain rfl := Option.some.inj h
      exact .raise (by simp [hp,CallPhase.isOver])
    · rename_i current hcurrent
      obtain rfl := Option.some.inj h
      exact .select current hp hcurrent
  | selected current =>
    cases current with
    | none =>
      simp only [hp] at h
      obtain rfl := Option.some.inj h
      exact .numberFirst hp
    | some r =>
      simp only [hp] at h
      split_ifs at h with hlocked
      obtain rfl := Option.some.inj h
      exact .flush r hp hlocked
  | flushed r =>
    simp only [hp] at h
    obtain rfl := Option.some.inj h
    exact .number r hp
  | numbered current version =>
    simp only [hp] at h
    split_ifs at h with hviolates hlocked hheld
    · obtain rfl := Option.some.inj h
      exact .raise (by simp [hp,CallPhase.isOver])
    · obtain rfl := Option.some.inj h
      exact .insert current version hp hviolates hheld
  | inserted current version =>
    simp only [hp] at h
    obtain rfl := Option.some.inj h
    exact .commit current version hp
  | committed => simp [hp] at h
  | raised => simp [hp] at h

theorem RegistryStep.moved {calls : ι → CreateCall} {c c' : Registry ι} {m : Move ι}
    (h : RegistryStep calls c m c') : ∃ i, Moved calls c i c' := by
  cases m with
  | advance i => exact ⟨i,moved_of_advance h⟩
  | abort i =>
    simp only [RegistryStep,registryNext] at h
    split_ifs at h with hover
    obtain rfl := Option.some.inj h
    exact ⟨i,.raise (by simpa using hover)⟩

end Steps

end TenantConfigs
end LeadEngine
