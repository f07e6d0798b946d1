import Mathlib.Data.Fintype.Basic
import Mathlib.Logic.Function.Basic
import LeadEngine.Accounts

/-! Interleaved calls of `get_or_create_user`, any finite number of them. Each call runs one
database statement at a time. A statement sees the committed rows; an insert or an update waits
for the calls in flight whose rows it would clash with. -/
namespace LeadEngine
namespace Logins

open Accounts Table TransitionSystem

structure Login where
  id : UUID
  principal : Principal

def Login.row (l : Login) : User := newUser l.id l.principal

inductive LoginError
  | multipleResultsFound | integrityError | staleData | invalidRequest
  deriving DecidableEq

inductive LoginPhase
  | start
  | missed
  | found (user : User)
  | inserted (row : User)
  | updated (row : User)
  | committed (id : UUID)
  | returned (user : User)
  | raised (err : LoginError)
  deriving DecidableEq

namespace LoginPhase

def pending : LoginPhase → Option User
  | .inserted row | .updated row => some row
  | _ => none

def isCreating : LoginPhase → Bool
  | .missed | .inserted _ => true
  | _ => false

def isOver : LoginPhase → Bool
  | .returned _ | .raised _ => true
  | _ => false

def knows : LoginPhase → Option UUID
  | .found user | .returned user => some user.id
  | .updated row => some row.id
  | .committed id => some id
  | _ => none

def rank : LoginPhase → ℕ
  | .start => 0
  | .missed | .found _ => 1
  | .inserted _ | .updated _ => 2
  | .committed _ => 3
  | .returned _ | .raised _ => 4

end LoginPhase

structure Desk (ι : Type) where
  db : Directory
  phase : ι → LoginPhase

def Desk.initial {ι : Type} (db : Directory) : Desk ι := ⟨db,fun _ => .start⟩

def Desk.moveTo {ι : Type} [DecidableEq ι] (c : Desk ι) (i : ι) (db : Directory)
    (p : LoginPhase) : Desk ι :=
  ⟨db,Function.update c.phase i p⟩

section MoveTo

variable {ι : Type} [DecidableEq ι] (c : Desk ι) (i : ι) (db : Directory) (p : LoginPhase)

@[simp] theorem moveTo_db : (c.moveTo i db p).db = db := rfl

@[simp] theorem moveTo_phase_self : (c.moveTo i db p).phase i = p := by simp [Desk.moveTo]

theorem moveTo_phase_ne {j : ι} (h : j ≠ i) : (c.moveTo i db p).phase j = c.phase j := by
  simp [Desk.moveTo,h]

@[simp] theorem moveTo_moveTo (db' : Directory) (p' : LoginPhase) :
    (c.moveTo i db p).moveTo i db' p' = c.moveTo i db' p' := by simp [Desk.moveTo]

end MoveTo

/-- The columns that a call changed since it read the row, over the row as it is now. -/
def merged (read target current : User) : User :=
  { current with
    email := if target.email = read.email then current.email else target.email
    role := if target.role = read.role then current.role else target.role
    tenantId := if target.tenantId = read.tenantId then current.tenantId else target.tenantId }

def Clash (r row : User) : Prop :=
  Conflicts User.idKey [r] row ∨ Conflicts User.subKey [r] row ∨ Conflicts User.tenantId [r] row

instance (r row : User) : Decidable (Clash r row) := by unfold Clash; infer_instance

section Steps

variable {ι : Type}

/-- A call in flight has written a row that clashes with this one, or over one that does. -/
def Waits (c : Desk ι) (i : ι) (row : User) : Prop :=
  ∃ j, j ≠ i ∧ ∃ r ∈ (c.phase j).pending,
    Clash r row ∨ ∃ old ∈ c.db.users, old.id = r.id ∧ Clash old row

def findUser (db : Directory) (id : UUID) : Option User := db.users.find? fun r => r.id = id

def overwritten (users : List User) (row : User) : List User :=
  users.map fun r => if r.id = row.id then row else r

variable [DecidableEq ι] [Fintype ι]

instance (c : Desk ι) (i : ι) (row : User) : Decidable (Waits c i row) := by
  unfold Waits; infer_instance

/-- The next statement of call `i`; `none` while it waits and once it is over. -/
def loginNext (calls : ι → Login) (c : Desk ι) (i : ι) : Option (Desk ι) :=
  let principal := (calls i).principal
  match c.phase i with
  | .start =>
    match scalarOneOrNone LoginError.multipleResultsFound
        (c.db.users.filter fun u => u.auth0Sub = principal.subject) with
    | .error err => some (c.moveTo i c.db (.raised err))
    | .ok none => some (c.moveTo i c.db .missed)
    | .ok (some user) => some (c.moveTo i c.db (.found user))
  | .missed =>
    let row := (calls i).row
    if Waits c i row then none
    else if Violates c.db.tenants c.db.users row then
      some (c.moveTo i c.db (.raised .integrityError))
    else some (c.moveTo i c.db (.inserted row))
  | .found user =>
    -- only changed columns are written, and none is when the claims repeat the row
    if refreshed user principal = user then some (c.moveTo i c.db (.committed user.id))
    else
      match findUser c.db user.id with
      | none => some (c.moveTo i c.db (.raised .staleData))
      | some current =>
        let row := merged user (refreshed user principal) current
        if Waits c i row then none
        else if Violates c.db.tenants (c.db.users.filter fun r => r.id ≠ row.id) row then
          some (c.moveTo i c.db (.raised .integrityError))
        else some (c.moveTo i c.db (.updated row))
  | .inserted row =>
    some (c.moveTo i { c.db with users := c.db.users ++ [row] } (.committed row.id))
  | .updated row =>
    some (c.moveTo i { c.db with users := overwritten c.db.users row } (.committed row.id))
  | .committed id =>
    match findUser c.db id with
    | none => some (c.moveTo i c.db (.raised .invalidRequest))
    | some user => some (c.moveTo i c.db (.returned user))
  | .returned _ | .raised _ => none

def LoginStep (calls : ι → Login) (c : Desk ι) (i : ι) (c' : Desk ι) : Prop :=
  loginNext calls c i = some c'

end Steps

variable {ι : Type} [DecidableEq ι]

inductive Advanced (calls : ι → Login) (c : Desk ι) (i : ι) : Desk ι → Prop
  | ambiguous (h : c.phase i = .start)
      (hrows : 2 ≤ (c.db.users.filter fun u => u.auth0Sub = (calls i).principal.subject).length) :
      Advanced calls c i (c.moveTo i c.db (.raised .multipleResultsFound))
  | miss (h : c.phase i = .start)
      (hnone : ∀ u ∈ c.db.users, u.auth0Sub ≠ (calls i).principal.subject) :
      Advanced calls c i (c.moveTo i c.db .missed)
  | find (user : User) (h : c.phase i = .start) (hmem : user ∈ c.db.users)
      (hsubject : user.auth0Sub = (calls i).principal.subject) :
      Advanced calls c i (c.moveTo i c.db (.found user))
  | insert (h : c.phase i = .missed) (hwaits : ¬ Waits c i (calls i).row)
      (hfree : ¬ Violates c.db.tenants c.db.users (calls i).row) :
      Advanced calls c i (c.moveTo i c.db (.inserted (calls i).row))
  | refuseInsert (h : c.phase i = .missed)
      (hviolates : Violates c.db.tenants c.db.users (calls i).row) :
      Advanced calls c i (c.moveTo i c.db (.raised .integrityError))
  | unchanged (user : User) (h : c.phase i = .found user)
      (hsame : refreshed user (calls i).principal = user) :
      Advanced calls c i (c.moveTo i c.db (.committed user.id))
  | gone (user : User) (h : c.phase i = .found user) (hgone : findUser c.db user.id = none) :
      Advanced calls c i (c.moveTo i c.db (.raised .staleData))
  | update (user current row : User) (h : c.phase i = .found user)
      (hchanged : refreshed user (calls i).principal ≠ user)
      (hcurrent : findUser c.db user.id = some current)
      (hrow : row = merged user (refreshed user (calls i).principal) current)
      (hfree : ¬ Violates c.db.tenants (c.db.users.filter fun r => r.id ≠ row.id) row) :
      Advanced calls c i (c.moveTo i c.db (.updated row))
  | refuseUpdate (user current row : User) (h : c.phase i = .found user)
      (hchanged : refreshed user (calls i).principal ≠ user)
      (hcurrent : findUser c.db user.id = some current)
      (hrow : row = merged user (refreshed user (calls i).principal) current)
      (hviolates : Violates c.db.tenants (c.db.users.filter fun r => r.id ≠ row.id) row) :
      Advanced calls c i (c.moveTo i c.db (.raised .integrityError))
  | commitInsert (row : User) (h : c.phase i = .inserted row) :
      Advanced calls c i
        (c.moveTo i { c.db with users := c.db.users ++ [row] } (.committed row.id))
  | commitUpdate (row : User) (h : c.phase i = .updated row) :
      Advanced calls c i (c.moveTo i
        { c.db with users := overwritten c.db.users row }
        (.committed row.id))
  | reread (id : UUID) (user : User) (h : c.phase i = .committed id)
      (hfind : findUser c.db id = some user) :
      Advanced calls c i (c.moveTo i c.db (.returned user))
  | lost (id : UUID) (h : c.phase i = .committed id) (hlost : findUser c.db id = none) :
      Advanced calls c i (c.moveTo i c.db (.raised .invalidRequest))

section Advance

variable {calls : ι → Login} {c c' : Desk ι} {i : ι}

theorem LoginStep.advanced [Fintype ι] (h : LoginStep calls c i c') : Advanced calls c i c' := by
  unfold LoginStep loginNext at h
  cases hp : c.phase i with
  | start =>
    simp only [hp] at h
    split at h
    · rename_i err hrows
      obtain rfl := Option.some.inj h
      obtain ⟨rfl,hlength⟩ := scalarOneOrNone_error hrows
      exact .ambiguous hp hlength
    · rename_i hrows
      obtain rfl := Option.some.inj h
      have hempty := List.filter_eq_nil_iff.mp (scalarOneOrNone_none.mp hrows)
      exact .miss hp fun u hu => by simpa using hempty u hu
    · rename_i user hrows
      obtain rfl := Option.some.inj h
      have hmem := (scalarOneOrNone_mem hrows user).mp rfl
      rw [List.mem_filter,decide_eq_true_eq] at hmem
      exact .find user hp hmem.1 hmem.2
  | missed =>
    simp only [hp] at h
    split_ifs at h with hwaits hviolates
    · obtain rfl := Option.some.inj h
      exact .refuseInsert hp hviolates
    · obtain rfl := Option.some.inj h
      exact .insert hp hwaits hviolates
  | found user =>
    simp only [hp] at h
    split_ifs at h with hsame
    · obtain rfl := Option.some.inj h
      exact .unchanged user hp hsame
    · split at h
      · rename_i hgone
        obtain rfl := Option.some.inj h
        exact .gone user hp hgone
      · rename_i current hcurrent
        split_ifs at h with hwaits hviolates
        · obtain rfl := Option.some.inj h
          exact .refuseUpdate user current _ hp hsame hcurrent rfl hviolates
        · obtain rfl := Option.some.inj h
          exact .update user current _ hp hsame hcurrent rfl hviolates
  | inserted row =>
    simp only [hp] at h
    obtain rfl := Option.some.inj h
    exact .commitInsert row hp
  | updated row =>
    simp only [hp] at h
    obtain rfl := Option.some.inj h
    exact .commitUpdate row hp
  | committed id =>
    simp only [hp] at h
    split at h
    · rename_i hlost
      obtain rfl := Option.some.inj h
      exact .lost id hp hlost
    · rename_i user hfind
      obtain rfl := Option.some.inj h
      exact .reread id user hp hfind
  | returned user => simp [hp] at h
  | raised err => simp [hp] at h

theorem Advanced.rank_lt (h : Advanced calls c i c') :
    (c.phase i).rank < (c'.phase i).rank := by
  cases h with
  | ambiguous h | miss h | insert h | refuseInsert h => simp [h,LoginPhase.rank]
  | find _ h | unchanged _ h | gone _ h | commitInsert _ h | commitUpdate _ h | lost _ h =>
    simp [h,LoginPhase.rank]
  | reread _ _ h => simp [h,LoginPhase.rank]
  | update _ _ _ h | refuseUpdate _ _ _ h => simp [h,LoginPhase.rank]

theorem Advanced.phase_ne (h : Advanced calls c i c') {j : ι} (hj : j ≠ i) :
    c'.phase j = c.phase j := by
  cases h <;> exact moveTo_phase_ne _ _ _ _ hj

end Advance

section Progress

variable [Fintype ι] {calls : ι → Login} {c : Desk ι}

theorem length_le_of_path {c' : Desk ι} {tr : List (Transition (Desk ι) ι)}
    (h : Path (LoginStep calls) c tr c') : tr.length ≤ 4 * Fintype.card ι := by
  refine h.length_le_of_threads (fun c i => (c.phase i).rank) (fun c i => ?_) fun c i c' hs => ?_
  · cases c.phase i <;> simp [LoginPhase.rank]
  · have hadv := LoginStep.advanced hs
    exact ⟨hadv.rank_lt,fun j hj => by rw [hadv.phase_ne hj]⟩

/-- A call that cannot go on waits for a row in flight. -/
theorem waits_of_next_none {i : ι} (h : loginNext calls c i = none)
    (hover : (c.phase i).isOver = false) : ∃ row, Waits c i row := by
  unfold loginNext at h
  cases hp : c.phase i with
  | start =>
    simp only [hp] at h
    split at h <;> cases h
  | missed =>
    simp only [hp] at h
    split_ifs at h with hwaits
    exact ⟨_,hwaits⟩
  | found user =>
    simp only [hp] at h
    split_ifs at h
    split at h
    · cases h
    · split_ifs at h with hwaits
      exact ⟨_,hwaits⟩
  | inserted row => simp [hp] at h
  | updated row => simp [hp] at h
  | committed id =>
    simp only [hp] at h
    split at h <;> cases h
  | returned user => simp [hp,LoginPhase.isOver] at hover
  | raised err => simp [hp,LoginPhase.isOver] at hover

theorem next_of_pending {i : ι} {r : User} (h : r ∈ (c.phase i).pending) :
    loginNext calls c i ≠ none := by
  unfold loginNext
  cases hp : c.phase i with
  | inserted row | updated row => simp
  | _ => simp [hp,LoginPhase.pending] at h

theorem over_of_stuck (h : ∀ i, loginNext calls c i = none) (i : ι) :
    (c.phase i).isOver = true := by
  by_contra hover
  obtain ⟨row,j,_,r,hr,_⟩ := waits_of_next_none (h i) (by simpa using hover)
  exact next_of_pending hr (h j)

end Progress

theorem mem_of_findUser {db : Directory} {id : UUID} {u : User} (h : findUser db id = some u) :
    u ∈ db.users ∧ u.id = id :=
  ⟨List.mem_of_find?_eq_some h,by simpa using List.find?_some h⟩

theorem findUser_of_mem {db : Directory} (hids : UniqueOn User.idKey db.users) {u : User}
    (hu : u ∈ db.users) : findUser db u.id = some u := by
  cases hfind : findUser db u.id with
  | none => simpa using List.find?_eq_none.mp hfind u hu
  | some r =>
    obtain ⟨hr,hid⟩ := mem_of_findUser hfind
    rw [hids.eq_of_key hr hu (congrArg some hid) rfl]

theorem merged_self (u : User) (principal : Principal) :
    merged u (refreshed u principal) u = refreshed u principal := by
  have hkeep : ∀ {α : Type} (a b : α) [Decidable (b = a)], (if b = a then a else b) = b := by
    intro α a b _
    split_ifs with h
    · exact h.symm
    · rfl
  unfold merged refreshed
  congr 1
  · exact hkeep _ _
  · exact hkeep _ _
  · exact hkeep _ _

theorem overwritten_self {users : List User} (hids : UniqueOn User.idKey users) {u : User}
    (hu : u ∈ users) : overwritten users u = users := by
  refine (List.map_congr_left fun r hr => ?_).trans (List.map_id users)
  split_ifs with hid
  · exact hids.eq_of_key hu hr rfl (congrArg some hid)
  · rfl

theorem uniqueOn_overwritten {users : List User} (hids : UniqueOn User.idKey users)
    (row : User) : UniqueOn User.idKey (overwritten users row) := by
  refine hids.map fun r _ k hk => ?_
  split_ifs at hk with hid
  · rwa [User.idKey,hid]
  · exact hk

theorem mem_overwritten {users : List User} {u row : User} (hu : u ∈ users)
    (hid : u.id = row.id) : row ∈ overwritten users row :=
  List.mem_map.mpr ⟨u,hu,if_pos hid⟩

section Alone

variable [Fintype ι] {calls : ι → Login} {c : Desk ι} {i : ι}

def LoginError.ofUser : UserError → LoginError
  | .multipleResultsFound => .multipleResultsFound
  | .integrityError => .integrityError
  | .staleData => .staleData

def ranAlone (calls : ι → Login) (c : Desk ι) (i : ι) : Desk ι :=
  match getOrCreateUser c.db (calls i).id (calls i).principal with
  | .error err => c.moveTo i c.db (.raised (.ofUser err))
  | .ok (db,user) => c.moveTo i db (.returned user)

theorem step_moveTo {db : Directory} {p : LoginPhase} {c' : Desk ι}
    (h : Reachable (LoginStep calls) c (c.moveTo i db p))
    (hn : loginNext calls (c.moveTo i db p) i = some c') :
    Reachable (LoginStep calls) c c' := h.tail hn

omit [Fintype ι] in
theorem not_waits_alone (halone : ∀ j, j ≠ i → (c.phase j).pending = none) (p : LoginPhase)
    (row : User) : ¬ Waits (c.moveTo i c.db p) i row := by
  rintro ⟨j,hj,r,hr,-⟩
  rw [moveTo_phase_ne _ _ _ _ hj,halone j hj] at hr
  cases hr

/-- The two statements after the commit of a row. -/
theorem returned_alone {db : Directory} {row : User} (hids : UniqueOn User.idKey db.users)
    (hrow : row ∈ db.users)
    (h : Reachable (LoginStep calls) c (c.moveTo i db (.committed row.id))) :
    Reachable (LoginStep calls) c (c.moveTo i db (.returned row)) :=
  step_moveTo h (by simp [loginNext,findUser_of_mem hids hrow])

/-- The statements after a lookup that found nothing. -/
theorem created_alone (halone : ∀ j, j ≠ i → (c.phase j).pending = none)
    (hids : UniqueOn User.idKey c.db.users)
    (hfound : (c.db.users.filter fun u => u.auth0Sub = (calls i).principal.subject) = [])
    (hmissed : Reachable (LoginStep calls) c (c.moveTo i c.db .missed)) :
    Reachable (LoginStep calls) c (ranAlone calls c i) := by
  have hwaits := not_waits_alone halone
  by_cases hviolates : Violates c.db.tenants c.db.users (calls i).row
  · have hraised : ranAlone calls c i = c.moveTo i c.db (.raised .integrityError) := by
      rw [Login.row] at hviolates
      simp [ranAlone,getOrCreateUser,hfound,scalarOneOrNone,insertUser,hviolates,
        LoginError.ofUser,Except.map]
    rw [hraised]
    exact step_moveTo hmissed (by simp [loginNext,hwaits,hviolates])
  · have hreturned : ranAlone calls c i = c.moveTo i
        { c.db with users := c.db.users ++ [(calls i).row] } (.returned (calls i).row) := by
      rw [Login.row] at hviolates
      simp [ranAlone,getOrCreateUser,hfound,scalarOneOrNone,insertUser,hviolates,
        Except.map,Login.row]
    rw [hreturned]
    have hinserted : Reachable (LoginStep calls) c (c.moveTo i c.db (.inserted (calls i).row)) :=
      step_moveTo hmissed (by simp [loginNext,hwaits,hviolates])
    refine returned_alone (hids.append_singleton fun h => hviolates (.inl h)) (by simp) ?_
    exact step_moveTo hinserted (by simp [loginNext])

/-- The statements after a lookup that found the row of the person. -/
theorem refreshed_alone (halone : ∀ j, j ≠ i → (c.phase j).pending = none)
    (hids : UniqueOn User.idKey c.db.users) {u : User} (hu : u ∈ c.db.users)
    (hrow : ¬ Violates c.db.tenants (c.db.users.filter fun r => r.id ≠ u.id) u)
    (hfound : (c.db.users.filter fun u => u.auth0Sub = (calls i).principal.subject) = [u])
    (hread : Reachable (LoginStep calls) c (c.moveTo i c.db (.found u))) :
    Reachable (LoginStep calls) c (ranAlone calls c i) := by
  have hwaits := not_waits_alone halone
  have hcurrent : findUser c.db u.id = some u := findUser_of_mem hids hu
  have hself := merged_self u (calls i).principal
  by_cases hsame : refreshed u (calls i).principal = u
  · have hupdate : updateUser c.db u = .ok c.db := by
      rw [updateUser,if_neg hrow]
      exact congrArg (fun users => Except.ok { c.db with users := users })
        (overwritten_self hids hu)
    have hreturned : ranAlone calls c i = c.moveTo i c.db (.returned u) := by
      simp [ranAlone,getOrCreateUser,hfound,scalarOneOrNone,hsame,hupdate,Except.map]
    rw [hreturned]
    exact returned_alone hids hu (step_moveTo hread (by simp [loginNext,hsame]))
  by_cases hviolates : Violates c.db.tenants
      (c.db.users.filter fun r => r.id ≠ (refreshed u (calls i).principal).id)
      (refreshed u (calls i).principal)
  · have hraised : ranAlone calls c i = c.moveTo i c.db (.raised .integrityError) := by
      simp only [ranAlone,getOrCreateUser,hfound,scalarOneOrNone,updateUser,if_pos hviolates]
      rfl
    rw [hraised]
    refine step_moveTo hread ?_
    simp only [loginNext,moveTo_phase_self,moveTo_db,moveTo_moveTo,if_neg hsame,hcurrent,hself,
      if_neg (hwaits _ _),if_pos hviolates]
  · have hreturned : ranAlone calls c i = c.moveTo i
        { c.db with users := overwritten c.db.users (refreshed u (calls i).principal) }
        (.returned (refreshed u (calls i).principal)) := by
      simp only [ranAlone,getOrCreateUser,hfound,scalarOneOrNone,updateUser,if_neg hviolates]
      rfl
    rw [hreturned]
    have hupdated : Reachable (LoginStep calls) c
        (c.moveTo i c.db (.updated (refreshed u (calls i).principal))) := by
      refine step_moveTo hread ?_
      simp only [loginNext,moveTo_phase_self,moveTo_db,moveTo_moveTo,if_neg hsame,hcurrent,hself,
        if_neg (hwaits _ _),if_neg hviolates]
    refine returned_alone (uniqueOn_overwritten hids _) (mem_overwritten hu rfl) ?_
    exact step_moveTo hupdated (by simp [loginNext])

/-- Run without interruption over a table that satisfies its constraints, the statements of a
call are `get_or_create_user`. -/
theorem login_alone (hstart : c.phase i = .start)
    (halone : ∀ j, j ≠ i → (c.phase j).pending = none)
    (hids : UniqueOn User.idKey c.db.users)
    (hrows : ∀ u ∈ c.db.users,
      ¬ Violates c.db.tenants (c.db.users.filter fun r => r.id ≠ u.id) u) :
    Reachable (LoginStep calls) c (ranAlone calls c i) := by
  have hlook : ∀ c', loginNext calls c i = some c' → Reachable (LoginStep calls) c c' :=
    fun c' h => Reachable.refl.tail h
  cases hfound : c.db.users.filter fun u => u.auth0Sub = (calls i).principal.subject with
  | nil =>
    exact created_alone halone hids hfound
      (hlook _ (by simp [loginNext,hstart,hfound,scalarOneOrNone]))
  | cons u rest =>
    have hu : u ∈ c.db.users := List.mem_of_mem_filter (by rw [hfound]; exact .head rest)
    cases rest with
    | nil =>
      exact refreshed_alone halone hids hu (hrows u hu) hfound
        (hlook _ (by simp [loginNext,hstart,hfound,scalarOneOrNone]))
    | cons u' rest =>
      have hraised : ranAlone calls c i = c.moveTo i c.db (.raised .multipleResultsFound) := by
        simp [ranAlone,getOrCreateUser,hfound,scalarOneOrNone,LoginError.ofUser]
      rw [hraised]
      exact hlook _ (by simp [loginNext,hstart,hfound,scalarOneOrNone])

end Alone

end Logins
end LeadEngine
