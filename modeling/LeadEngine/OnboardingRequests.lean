import LeadEngine.LoginRuns
import LeadEngine.Onboarding
import LeadEngine.SingleEntry

/-! Interleaved requests to the onboarding endpoint. Each request loads its user, checks it, and
commits the tenant and the link to it one after the other before it enqueues the pipeline. -/
namespace LeadEngine
namespace OnboardingRequests

open Accounts Onboarding Table TransitionSystem SingleEntry
open Logins (overwritten)

structure Onboard where
  userId : UUID
  tenantId : UUID
  principal : Principal
  data : TenantCreate

def Onboard.tenant (r : Onboard) : Tenant where
  id := r.tenantId
  companyName := r.data.companyName
  businessType := r.data.businessType
  websiteUrl := r.data.websiteUrl
  onboardingStatus := .pending
  status := .created
  activatedAt := none

inductive OnboardError
  | user (err : UserError)
  | integrityError
  deriving DecidableEq

inductive Phase
  | start
  | loaded (user : User)
  | checked (user : User)
  | created (user : User)
  | linked
  | succeeded
  | conflict
  | raised (err : OnboardError)
  deriving DecidableEq

namespace Phase

/-- A request that has read its user without a tenant is inside until its link is committed. -/
def place : Phase → Place
  | .start => .outside
  | .loaded user => if user.tenantId = none then .inside else .refused
  | .checked _ | .created _ => .inside
  | .linked | .succeeded => .through
  | .conflict | .raised _ => .refused

def user? : Phase → Option User
  | .loaded user | .checked user | .created user => some user
  | _ => none

def hasCreated : Phase → Bool
  | .created _ | .linked | .succeeded => true
  | _ => false

def isOver : Phase → Bool
  | .succeeded | .conflict | .raised _ => true
  | _ => false

def rank : Phase → ℕ
  | .start => 0
  | .loaded _ => 1
  | .checked _ => 2
  | .created _ => 3
  | .linked => 4
  | .succeeded | .conflict | .raised _ => 5

end Phase

structure Desk (ι : Type) where
  db : Database
  users : List User
  queue : List UUID
  phase : ι → Phase

def Desk.initial {ι : Type} (db : Database) (users : List User) (queue : List UUID) : Desk ι :=
  ⟨db,users,queue,fun _ => .start⟩

def Desk.directory {ι : Type} (c : Desk ι) : Directory := ⟨c.db.tenants.map Tenant.id,c.users⟩

def Desk.place {ι : Type} (c : Desk ι) (i : ι) : Place := (c.phase i).place

section Steps

variable {ι : Type} [DecidableEq ι]

def Desk.moveTo (c : Desk ι) (i : ι) (p : Phase) : Desk ι :=
  { c with phase := Function.update c.phase i p }

@[simp] theorem moveTo_phase_self (c : Desk ι) (i : ι) (p : Phase) :
    (c.moveTo i p).phase i = p := by simp [Desk.moveTo]

theorem moveTo_phase_ne (c : Desk ι) (i : ι) (p : Phase) {j : ι} (h : j ≠ i) :
    (c.moveTo i p).phase j = c.phase j := by simp [Desk.moveTo,h]

theorem place_moveTo (c : Desk ι) (i : ι) (p : Phase) :
    (c.moveTo i p).place = Function.update c.place i p.place := by
  funext j
  by_cases hj : j = i
  · rw [hj,Function.update_self,Desk.place,moveTo_phase_self]
  · rw [Function.update_of_ne hj,Desk.place,moveTo_phase_ne _ _ _ hj,Desk.place]

/-- The next step of request `i`; `none` once it is over. -/
def onboardNext (calls : ι → Onboard) (c : Desk ι) (i : ι) : Option (Desk ι) :=
  match c.phase i with
  | .start =>
    -- one step: its commit does not write the tenant, and the row is read again after it
    match getOrCreateUser c.directory (calls i).userId (calls i).principal with
    | .error err => some (c.moveTo i (.raised (.user err)))
    | .ok (directory,user) => some ({ c with users := directory.users }.moveTo i (.loaded user))
  | .loaded user =>
    if user.tenantId ≠ none then some (c.moveTo i .conflict)
    else some (c.moveTo i (.checked user))
  | .checked user =>
    if (c.db.tenant? (calls i).tenantId).isSome then some (c.moveTo i (.raised .integrityError))
    else
      some ({ c with db := createTenant (calls i).tenantId (calls i).data c.db }.moveTo i
        (.created user))
  | .created user =>
    -- the user is not looked at again
    match setUserTenant c.directory user.id (calls i).tenantId with
    | .error err => some (c.moveTo i (.raised (.user err)))
    | .ok (directory,_) => some ({ c with users := directory.users }.moveTo i .linked)
  | .linked =>
    -- the update of the Auth0 metadata that follows is logged when it fails
    some ({ c with queue := c.queue ++ [(calls i).tenantId] }.moveTo i .succeeded)
  | .succeeded | .conflict | .raised _ => none

def OnboardStep (calls : ι → Onboard) (c : Desk ι) (i : ι) (c' : Desk ι) : Prop :=
  onboardNext calls c i = some c'

inductive Advanced (calls : ι → Onboard) (c : Desk ι) (i : ι) : Desk ι → Prop
  | refuseLoad (err : UserError) (h : c.phase i = .start)
      (hrun : getOrCreateUser c.directory (calls i).userId (calls i).principal = .error err) :
      Advanced calls c i (c.moveTo i (.raised (.user err)))
  | load (directory : Directory) (user : User) (h : c.phase i = .start)
      (hrun : getOrCreateUser c.directory (calls i).userId (calls i).principal =
        .ok (directory,user)) :
      Advanced calls c i ({ c with users := directory.users }.moveTo i (.loaded user))
  | refuse (user : User) (h : c.phase i = .loaded user) (htenant : user.tenantId ≠ none) :
      Advanced calls c i (c.moveTo i .conflict)
  | check (user : User) (h : c.phase i = .loaded user) (htenant : user.tenantId = none) :
      Advanced calls c i (c.moveTo i (.checked user))
  | refuseCreate (user : User) (h : c.phase i = .checked user)
      (hclash : c.db.tenant? (calls i).tenantId ≠ none) :
      Advanced calls c i (c.moveTo i (.raised .integrityError))
  | create (user : User) (h : c.phase i = .checked user)
      (hfree : c.db.tenant? (calls i).tenantId = none) :
      Advanced calls c i
        ({ c with db := { c.db with tenants := c.db.tenants ++ [(calls i).tenant] } }.moveTo i
          (.created user))
  | refuseLink (user : User) (err : UserError) (h : c.phase i = .created user)
      (hrun : setUserTenant c.directory user.id (calls i).tenantId = .error err) :
      Advanced calls c i (c.moveTo i (.raised (.user err)))
  | link (user user' : User) (directory : Directory) (h : c.phase i = .created user)
      (hrun : setUserTenant c.directory user.id (calls i).tenantId = .ok (directory,user')) :
      Advanced calls c i ({ c with users := directory.users }.moveTo i .linked)
  | enqueue (h : c.phase i = .linked) :
      Advanced calls c i
        ({ c with queue := c.queue ++ [(calls i).tenantId] }.moveTo i .succeeded)

variable {calls : ι → Onboard} {c c' : Desk ι} {i : ι}

theorem OnboardStep.advanced (h : OnboardStep calls c i c') : Advanced calls c i c' := by
  unfold OnboardStep onboardNext at h
  cases hp : c.phase i with
  | start =>
    simp only [hp] at h
    split at h
    · rename_i err hrun
      obtain rfl := Option.some.inj h
      exact .refuseLoad err hp hrun
    · rename_i directory user hrun
      obtain rfl := Option.some.inj h
      exact .load directory user hp hrun
  | loaded user =>
    simp only [hp] at h
    split_ifs at h with htenant
    · obtain rfl := Option.some.inj h
      exact .refuse user hp htenant
    · obtain rfl := Option.some.inj h
      exact .check user hp (not_not.mp htenant)
  | checked user =>
    simp only [hp] at h
    split_ifs at h with hclash
    · obtain rfl := Option.some.inj h
      exact .refuseCreate user hp (Option.isSome_iff_ne_none.mp hclash)
    · obtain rfl := Option.some.inj h
      rw [createTenant,if_neg hclash]
      exact .create user hp (by simpa using hclash)
  | created user =>
    simp only [hp] at h
    split at h
    · rename_i err hrun
      obtain rfl := Option.some.inj h
      exact .refuseLink user err hp hrun
    · rename_i directory user' hrun
      obtain rfl := Option.some.inj h
      exact .link user user' directory hp hrun
  | linked =>
    simp only [hp] at h
    obtain rfl := Option.some.inj h
    exact .enqueue hp
  | succeeded => simp [hp] at h
  | conflict => simp [hp] at h
  | raised err => simp [hp] at h

theorem Advanced.rank_lt (h : Advanced calls c i c') : (c.phase i).rank < (c'.phase i).rank := by
  cases h with
  | refuseLoad _ h | load _ _ h | refuse _ h | check _ h => simp [h,Phase.rank]
  | refuseCreate _ h | create _ h | enqueue h => simp [h,Phase.rank]
  | refuseLink _ _ h | link _ _ _ h => simp [h,Phase.rank]

theorem Advanced.phase_ne (h : Advanced calls c i c') {j : ι} (hj : j ≠ i) :
    c'.phase j = c.phase j := by
  cases h <;> exact moveTo_phase_ne _ _ _ hj

theorem length_le_of_path [Fintype ι] {tr : List (Transition (Desk ι) ι)}
    (h : Path (OnboardStep calls) c tr c') : tr.length ≤ 5 * Fintype.card ι := by
  refine h.length_le_of_threads (fun c i => (c.phase i).rank) (fun c i => ?_) fun c i c' hs => ?_
  · cases c.phase i <;> simp [Phase.rank]
  · have hadv := OnboardStep.advanced hs
    exact ⟨hadv.rank_lt,fun j hj => by rw [hadv.phase_ne hj]⟩

theorem over_of_next_none (h : onboardNext calls c i = none) : (c.phase i).isOver = true := by
  unfold onboardNext at h
  cases hp : c.phase i with
  | start | created =>
    simp only [hp] at h
    split at h <;> cases h
  | loaded | checked =>
    simp only [hp] at h
    split_ifs at h
  | linked => simp [hp] at h
  | succeeded | conflict | raised => rfl

end Steps

end OnboardingRequests
end LeadEngine
