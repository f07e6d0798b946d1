import LeadEngine.OnboardingRequests

/-! Concurrent onboarding of one user: when exactly one of its requests onboards it, and the run
in which two requests have both read it without a tenant. -/
namespace LeadEngine
namespace OnboardingRequests

open Accounts Onboarding Table TransitionSystem SingleEntry
open Logins (overwritten Keyed uniqueOn_overwritten mem_overwritten)

section Statement

variable {ι : Type}

/-- Requests of one user that has no tenant, over tables that keep their constraints. The tokens
carry no tenant, and the tenant ids that would be drawn are new and distinct. -/
structure Setup (calls : ι → Onboard) (subject : String) (c : Desk ι) : Prop where
  start : ∀ i, c.phase i = .start
  keyed : Keyed c.directory
  refers : ∀ u ∈ c.users, ∀ t, u.tenantId = some t → t ∈ c.db.tenants.map Tenant.id
  newcomer : ∃ u ∈ c.users, u.auth0Sub = subject ∧ u.tenantId = none
  subject : ∀ i, (calls i).principal.subject = subject
  noClaim : ∀ i, (calls i).principal.tenantId = none
  fresh : ∀ i, (calls i).tenantId ∉ c.db.tenants.map Tenant.id
  distinct : ∀ i j, (calls i).tenantId = (calls j).tenantId → i = j

def LinkedTo (subject : String) (c : Desk ι) (t : UUID) : Prop :=
  ∃ user, (c.users.filter fun u => u.auth0Sub = subject) = [user] ∧ user.tenantId = some t

/-- One request has succeeded and every other one met the conflict. One tenant was created, the
user is linked to it, and one job is enqueued, for that tenant. -/
def OnboardedOnce (calls : ι → Onboard) (subject : String) (c₀ c : Desk ι) : Prop :=
  ∃ i, c.phase i = .succeeded ∧ (∀ j, j ≠ i → c.phase j = .conflict) ∧
    c.db.tenants = c₀.db.tenants ++ [(calls i).tenant] ∧
    LinkedTo subject c (calls i).tenantId ∧ c.queue = c₀.queue ++ [(calls i).tenantId]

/-- At no moment more than that: no request has raised, and at most one succeeded, one tenant was
created and one job enqueued, for the tenant of the user. -/
structure AtMostOnce (calls : ι → Onboard) (subject : String) (c₀ c : Desk ι) : Prop where
  noneRaised : ∀ i err, c.phase i ≠ .raised err
  oneSucceeded : ∀ i j, c.phase i = .succeeded → c.phase j = .succeeded → i = j
  oneTenant : c.db.tenants = c₀.db.tenants ∨
    ∃ i, c.db.tenants = c₀.db.tenants ++ [(calls i).tenant]
  oneJob : c.queue = c₀.queue ∨
    ∃ i, c.queue = c₀.queue ++ [(calls i).tenantId] ∧ LinkedTo subject c (calls i).tenantId

/-- The request does not read its user without a tenant while another one that did so has not
committed its link. -/
def Undisturbed (subject : String) (c : Desk ι) (i : ι) : Prop :=
  c.phase i = .start → (∃ u ∈ c.users, u.auth0Sub = subject ∧ u.tenantId = none) →
    ∀ j, j ≠ i → c.place j ≠ .inside

instance [Fintype ι] [DecidableEq ι] (subject : String) (c : Desk ι) (i : ι) :
    Decidable (Undisturbed subject c i) := by
  unfold Undisturbed; infer_instance

end Statement

section Users

variable {users : List User} {u row row' : User}

theorem overwritten_overwritten (hid : row'.id = row.id) :
    overwritten (overwritten users row) row' = overwritten users row' := by
  simp only [overwritten,List.map_map]
  refine List.map_congr_left fun r _ => ?_
  by_cases hr : r.id = row.id
  · simp [hr,hid]
  · simp [hr,hid]

theorem filter_overwritten (row : User) :
    (overwritten users row).filter (fun r => r.id ≠ row.id) =
      users.filter fun r => r.id ≠ row.id := by
  induction users with
  | nil => rfl
  | cons r rest ih =>
    simp only [overwritten] at ih ⊢
    by_cases hr : r.id = row.id
    · simpa [hr] using ih
    · simpa [hr] using ih

structure Known (tenants : List UUID) (users : List User) (u row : User) : Prop where
  keyed : Keyed ⟨tenants,users⟩
  mem : u ∈ users
  sameId : row.id = u.id
  sameSub : row.auth0Sub = u.auth0Sub

variable {tenants : List UUID} (h : Known tenants users u row)

include h

theorem Known.keyed_overwritten : Keyed ⟨tenants,overwritten users row⟩ :=
  h.keyed.overwritten h.mem h.sameId.symm h.sameSub.symm

theorem Known.row_mem : row ∈ overwritten users row :=
  mem_overwritten h.mem h.sameId.symm

theorem Known.lookup : ((overwritten users row).filter fun r => r.auth0Sub = u.auth0Sub) =
    [row] := by
  have hrows := h.keyed_overwritten.subs.rowsAt_eq h.row_mem (congrArg some h.sameSub)
  simpa [rowsAt,User.subKey] using hrows

theorem Known.find : ((overwritten users row).find? fun r => r.id = u.id) = some row := by
  have hfind := Logins.findUser_of_mem h.keyed_overwritten.ids h.row_mem
  rwa [h.sameId] at hfind

theorem Known.not_violates {tenants' : List UUID}
    (htenant : ∀ t, row.tenantId = some t → t ∈ tenants' ∧ ∀ r ∈ users, r.tenantId ≠ some t) :
    ¬ Violates tenants' (users.filter fun r => r.id ≠ row.id) row := by
  have hother : ∀ r ∈ users.filter (fun r => r.id ≠ row.id), r ∈ users ∧ r.id ≠ row.id :=
    fun r hr => by simpa using hr
  rintro (⟨r,hr,hkey,_⟩ | ⟨r,hr,hkey,_⟩ | ⟨r,hr,hkey,hsome⟩ | ⟨t,ht,hno⟩)
  · exact (hother r hr).2 (Option.some.inj hkey)
  · have hsame : r = u := h.keyed.subs.eq_of_key (hother r hr).1 h.mem hkey
      (congrArg some h.sameSub.symm)
    exact (hother r hr).2 (by rw [hsame,h.sameId])
  · obtain ⟨t,ht⟩ := Option.isSome_iff_exists.mp hsome
    exact (htenant t ht).2 r (hother r hr).1 (hkey.trans ht)
  · exact hno (htenant t ht).1

omit h in
theorem Known.write {row' : User} (h : Known tenants users u row) (h' : Known tenants users u row')
    {tenants' : List UUID}
    (htenant : ∀ t, row'.tenantId = some t → t ∈ tenants' ∧ ∀ r ∈ users, r.tenantId ≠ some t) :
    updateUser ⟨tenants',overwritten users row⟩ row' =
      .ok ⟨tenants',overwritten users row'⟩ := by
  have hid : row'.id = row.id := h'.sameId.trans h.sameId.symm
  have hrest : (overwritten users row).filter (fun r => r.id ≠ row'.id) =
      users.filter fun r => r.id ≠ row'.id := by
    rw [hid]
    exact filter_overwritten row
  rw [updateUser,hrest,if_neg (h'.not_violates htenant)]
  exact congrArg (fun rows => (Except.ok ⟨tenants',rows⟩ : Except UserError Directory))
    (overwritten_overwritten hid)

theorem Known.with_tenant (t : UUID) :
    Known tenants users u { row with tenantId := some t } :=
  ⟨h.keyed,h.mem,h.sameId,h.sameSub⟩

theorem Known.login {id : UUID} {principal : Principal} {tenants' : List UUID}
    (hsubject : principal.subject = u.auth0Sub) (hclaim : principal.tenantId = none)
    (htenant : ∀ t, row.tenantId = some t → t ∈ tenants' ∧ ∀ r ∈ users, r.tenantId ≠ some t) :
    getOrCreateUser ⟨tenants',overwritten users row⟩ id principal =
      .ok (⟨tenants',overwritten users (refreshed row principal)⟩,refreshed row principal) := by
  have hrefreshed : Known tenants users u (refreshed row principal) :=
    ⟨h.keyed,h.mem,h.sameId,h.sameSub⟩
  have hallowed : ∀ t, (refreshed row principal).tenantId = some t →
      t ∈ tenants' ∧ ∀ r ∈ users, r.tenantId ≠ some t := by
    simpa [refreshed,hclaim] using htenant
  have hwrite := h.write hrefreshed hallowed
  simp only [getOrCreateUser,hsubject,h.lookup,scalarOneOrNone,hwrite]
  rfl

theorem Known.link {t : UUID} {tenants' : List UUID}
    (htenant : t ∈ tenants' ∧ ∀ r ∈ users, r.tenantId ≠ some t) :
    setUserTenant ⟨tenants',overwritten users row⟩ u.id t =
      .ok (⟨tenants',overwritten users { row with tenantId := some t }⟩,
        { row with tenantId := some t }) := by
  have hallowed : ∀ t', some t = some t' → t' ∈ tenants' ∧ ∀ r ∈ users, r.tenantId ≠ some t' := by
    rintro t' ⟨⟩
    exact htenant
  have hwrite := h.write (h.with_tenant t) hallowed
  simp only [setUserTenant,h.find,hwrite]
  rfl

end Users

section Invariant

variable {ι : Type}

structure RowOf (calls : ι → Onboard) (c₀ : Desk ι) (u : User) (users : List User)
    (place : ι → Place) (row : User) : Prop where
  users : users = overwritten c₀.users row
  known : Known (c₀.db.tenants.map Tenant.id) c₀.users u row
  linked : ∀ t, row.tenantId = some t → ∃ k, place k = .through ∧ t = (calls k).tenantId
  unlinked : row.tenantId = none → ¬ Closed place

structure Sound (calls : ι → Onboard) (c₀ : Desk ι) (u : User) (c : Desk ι) : Prop where
  row : ∃ row, RowOf calls c₀ u c.users c.place row
  tenants : Appended c₀.db.tenants c.db.tenants (fun k => (calls k).tenant)
    fun k => (c.phase k).hasCreated = true
  queue : Appended c₀.queue c.queue (fun k => (calls k).tenantId)
    fun k => c.phase k = .succeeded
  held : ∀ k user, (c.phase k).user? = some user → user.id = u.id
  noneRaised : ∀ k err, c.phase k ≠ .raised err

variable {calls : ι → Onboard} {subject : String} {c₀ c c' : Desk ι} {u : User}

theorem hasCreated_of_through {p : Phase} (h : p.place = .through) : p.hasCreated = true := by
  cases p with
  | loaded user =>
    simp only [Phase.place] at h
    split_ifs at h
  | linked | succeeded => rfl
  | _ => cases h

theorem sound_initial (h : Setup calls subject c₀) (hu : u ∈ c₀.users)
    (hnone : u.tenantId = none) : Sound calls c₀ u c₀ := by
  refine ⟨⟨u,?_⟩,appended_none fun k => ?_,appended_none fun k => ?_,fun k user hk => ?_,
    fun k err hk => ?_⟩
  · refine ⟨(Logins.overwritten_self h.keyed.ids hu).symm,⟨h.keyed,hu,rfl,rfl⟩,?_,?_⟩
    · simp [hnone]
    · rintro - ⟨k,hk⟩
      rw [Desk.place,h.start k] at hk
      cases hk
  · simp [h.start k,Phase.hasCreated]
  · simp [h.start k]
  · simp [h.start k,Phase.user?] at hk
  · simp [h.start k] at hk

theorem Sound.allowed (h : Sound calls c₀ u c) (hsetup : Setup calls subject c₀) {k : ι}
    (hk : (c.phase k).hasCreated = true) :
    (calls k).tenantId ∈ c.db.tenants.map Tenant.id ∧
      ∀ r ∈ c₀.users, r.tenantId ≠ some (calls k).tenantId :=
  ⟨List.mem_map_of_mem (h.tenants.item_mem hk),fun r hr hlink =>
    hsetup.fresh k (hsetup.refers r hr _ hlink)⟩

theorem Sound.allowed_row (h : Sound calls c₀ u c) (hsetup : Setup calls subject c₀) {row : User}
    (hrow : RowOf calls c₀ u c.users c.place row) :
    ∀ t, row.tenantId = some t → t ∈ c.db.tenants.map Tenant.id ∧
      ∀ r ∈ c₀.users, r.tenantId ≠ some t := by
  intro t ht
  obtain ⟨k,hk,rfl⟩ := hrow.linked t ht
  exact h.allowed hsetup (hasCreated_of_through hk)

theorem Sound.free (h : Sound calls c₀ u c) (hsetup : Setup calls subject c₀) {i : ι}
    (hi : (c.phase i).hasCreated = false) : c.db.tenant? (calls i).tenantId = none := by
  refine List.find?_eq_none.mpr fun t ht hid => ?_
  rw [decide_eq_true_eq] at hid
  obtain hold | ⟨k,hk,rfl⟩ := h.tenants.mem ht
  · exact hsetup.fresh i (hid ▸ List.mem_map_of_mem hold)
  · rw [hsetup.distinct k i hid,hi] at hk
    cases hk

variable {i : ι}

theorem Sound.load (h : Sound calls c₀ u c) (hsetup : Setup calls subject c₀)
    (hsubject : u.auth0Sub = subject) {row : User} (hrow : RowOf calls c₀ u c.users c.place row) :
    getOrCreateUser c.directory (calls i).userId (calls i).principal =
      .ok (⟨c.db.tenants.map Tenant.id,
        overwritten c₀.users (refreshed row (calls i).principal)⟩,
        refreshed row (calls i).principal) := by
  rw [Desk.directory,hrow.users]
  exact hrow.known.login ((hsetup.subject i).trans hsubject.symm) (hsetup.noClaim i)
    (h.allowed_row hsetup hrow)

theorem Sound.link (h : Sound calls c₀ u c) (hsetup : Setup calls subject c₀) {user row : User}
    (hp : c.phase i = .created user) (hrow : RowOf calls c₀ u c.users c.place row) :
    setUserTenant c.directory user.id (calls i).tenantId =
      .ok (⟨c.db.tenants.map Tenant.id,
        overwritten c₀.users { row with tenantId := some (calls i).tenantId }⟩,
        { row with tenantId := some (calls i).tenantId }) := by
  have hheld : user.id = u.id := h.held i user (by simp [hp,Phase.user?])
  rw [Desk.directory,hrow.users,hheld]
  exact hrow.known.link (h.allowed hsetup (by simp [hp,Phase.hasCreated]))

variable [DecidableEq ι]

/-- What a step does where the tables keep their constraints: none of the calls raises. -/
inductive Goes (calls : ι → Onboard) (c₀ c : Desk ι) (row : User) (i : ι) : Desk ι → Prop
  | load (row' : User) (h : c.phase i = .start) (hrow : row' = refreshed row (calls i).principal) :
      Goes calls c₀ c row i ({ c with users := overwritten c₀.users row' }.moveTo i (.loaded row'))
  | refuse (user : User) (h : c.phase i = .loaded user) (htenant : user.tenantId ≠ none) :
      Goes calls c₀ c row i (c.moveTo i .conflict)
  | check (user : User) (h : c.phase i = .loaded user) (htenant : user.tenantId = none) :
      Goes calls c₀ c row i (c.moveTo i (.checked user))
  | create (user : User) (h : c.phase i = .checked user) :
      Goes calls c₀ c row i
        ({ c with db := { c.db with tenants := c.db.tenants ++ [(calls i).tenant] } }.moveTo i
          (.created user))
  | link (row' user : User) (h : c.phase i = .created user)
      (hrow : row' = { row with tenantId := some (calls i).tenantId }) :
      Goes calls c₀ c row i ({ c with users := overwritten c₀.users row' }.moveTo i .linked)
  | enqueue (h : c.phase i = .linked) :
      Goes calls c₀ c row i
        ({ c with queue := c.queue ++ [(calls i).tenantId] }.moveTo i .succeeded)

theorem Advanced.goes (hsetup : Setup calls subject c₀) (hsubject : u.auth0Sub = subject)
    (h : Sound calls c₀ u c) {row : User} (hrow : RowOf calls c₀ u c.users c.place row)
    (hadv : Advanced calls c i c') : Goes calls c₀ c row i c' := by
  cases hadv with
  | refuseLoad err _ hrun =>
    rw [h.load hsetup hsubject hrow] at hrun
    cases hrun
  | load directory user hp hrun =>
    rw [h.load hsetup hsubject hrow] at hrun
    obtain ⟨rfl,rfl⟩ := Prod.mk.inj (Except.ok.inj hrun)
    exact .load _ hp rfl
  | refuse user hp htenant => exact .refuse user hp htenant
  | check user hp htenant => exact .check user hp htenant
  | refuseCreate user hp hclash =>
    exact absurd (h.free hsetup (by simp [hp,Phase.hasCreated])) hclash
  | create user hp => exact .create user hp
  | refuseLink user err hp hrun =>
    rw [h.link hsetup hp hrow] at hrun
    cases hrun
  | link user user' directory hp hrun =>
    rw [h.link hsetup hp hrow] at hrun
    obtain ⟨rfl,rfl⟩ := Prod.mk.inj (Except.ok.inj hrun)
    exact .link _ user hp rfl
  | enqueue hp => exact .enqueue hp

/-- In every run the requests go through the gate that their user without a tenant is. -/
theorem Goes.gate (hsetup : Setup calls subject c₀) {row : User}
    (hrow : RowOf calls c₀ u c.users c.place row) (hgoes : Goes calls c₀ c row i c') :
    GateStep c.place i c'.place := by
  have hplace : ∀ {p}, c.phase i = p → c.place i = p.place := fun hp => by rw [Desk.place,hp]
  have hstay : ∀ {p q : Phase}, c.phase i = p → q.place = p.place → p.place ≠ .outside →
      GateStep c.place i (c.moveTo i q).place := by
    intro p q hp hq hout
    rw [place_moveTo,hq,← hplace hp,Function.update_eq_self]
    exact .stay (by rwa [hplace hp])
  cases hgoes with
  | load row' hp hrow' =>
    have htenant : row'.tenantId = row.tenantId := by
      simp [hrow',refreshed,hsetup.noClaim i]
    show GateStep c.place i (c.moveTo i (.loaded row')).place
    rw [place_moveTo,Phase.place,htenant]
    split_ifs with hnone
    · exact .enter (hplace hp) (hrow.unlinked hnone)
    · obtain ⟨t,ht⟩ := Option.ne_none_iff_exists'.mp hnone
      obtain ⟨k,hk,-⟩ := hrow.linked t ht
      exact .refuse (hplace hp) ⟨k,hk⟩
  | refuse user hp htenant =>
    exact hstay hp (by simp [Phase.place,htenant]) (by simp [Phase.place,htenant])
  | check user hp htenant =>
    exact hstay hp (by simp [Phase.place,htenant]) (by simp [Phase.place,htenant])
  | create user hp => exact hstay hp rfl (by simp [Phase.place])
  | link row' user hp =>
    show GateStep c.place i (c.moveTo i .linked).place
    rw [place_moveTo]
    exact .pass (hplace hp)
  | enqueue hp => exact hstay hp rfl (by simp [Phase.place])

theorem iff_moveTo {f : Phase → Prop} {d : Desk ι} {p : Phase} (h : f p ↔ f (d.phase i)) (k : ι) :
    f ((d.moveTo i p).phase k) ↔ f (d.phase k) := by
  by_cases hk : k = i
  · rw [hk,moveTo_phase_self,h]
  · rw [moveTo_phase_ne _ _ _ hk]

theorem gain_moveTo {f : Phase → Prop} {d : Desk ι} {p : Phase} (h : f p) (k : ι) :
    f ((d.moveTo i p).phase k) ↔ f (d.phase k) ∨ k = i := by
  by_cases hk : k = i
  · simp [hk,h]
  · simp [moveTo_phase_ne _ _ _ hk,hk]

omit [DecidableEq ι] in
theorem RowOf.congr {users : List User} {place place' : ι → Place} {row : User}
    (h : RowOf calls c₀ u users place row)
    (hplace : ∀ k, place' k = .through ↔ place k = .through) :
    RowOf calls c₀ u users place' row where
  users := h.users
  known := h.known
  linked := by
    intro t ht
    obtain ⟨k,hk,rfl⟩ := h.linked t ht
    exact ⟨k,(hplace k).mpr hk,rfl⟩
  unlinked := by
    rintro hnone ⟨k,hk⟩
    exact h.unlinked hnone ⟨k,(hplace k).mp hk⟩

/-- A step that changes the tables as its new phase tells. -/
theorem Sound.move (h : Sound calls c₀ u c) (d : Desk ι) (p : Phase) (hd : d.phase = c.phase)
    (hrow : ∃ row, RowOf calls c₀ u d.users (d.moveTo i p).place row)
    (htenants : Appended c₀.db.tenants d.db.tenants (fun k => (calls k).tenant)
      fun k => ((d.moveTo i p).phase k).hasCreated = true)
    (hqueue : Appended c₀.queue d.queue (fun k => (calls k).tenantId)
      fun k => (d.moveTo i p).phase k = .succeeded)
    (hheld : ∀ user, p.user? = some user → user.id = u.id) (hraised : ∀ err, p ≠ .raised err) :
    Sound calls c₀ u (d.moveTo i p) where
  row := hrow
  tenants := htenants
  queue := hqueue
  held := by
    intro k user hk
    by_cases hki : k = i
    · rw [hki,moveTo_phase_self] at hk
      exact hheld user hk
    · rw [moveTo_phase_ne _ _ _ hki,hd] at hk
      exact h.held k user hk
  noneRaised := by
    intro k err
    by_cases hki : k = i
    · rw [hki,moveTo_phase_self]
      exact hraised err
    · rw [moveTo_phase_ne _ _ _ hki,hd]
      exact h.noneRaised k err

theorem Sound.quiet (h : Sound calls c₀ u c) {p : Phase}
    (hthrough : p.place = .through ↔ (c.phase i).place = .through)
    (hcreated : p.hasCreated = (c.phase i).hasCreated)
    (hsucceeded : p = .succeeded ↔ c.phase i = .succeeded)
    (hheld : ∀ user, p.user? = some user → user.id = u.id) (hraised : ∀ err, p ≠ .raised err) :
    Sound calls c₀ u (c.moveTo i p) := by
  obtain ⟨row,hrow⟩ := h.row
  refine h.move c p rfl ⟨row,hrow.congr fun k => ?_⟩ (h.tenants.congr fun k => ?_)
    (h.queue.congr fun k => ?_) hheld hraised
  · exact iff_moveTo (f := fun q => q.place = .through) hthrough k
  · exact iff_moveTo (f := fun q => q.hasCreated = true) (by rw [hcreated]) k
  · exact iff_moveTo (f := fun q => q = .succeeded) hsucceeded k

theorem Goes.sound (hsetup : Setup calls subject c₀) (h : Sound calls c₀ u c) {row : User}
    (hrow : RowOf calls c₀ u c.users c.place row) (hgoes : Goes calls c₀ c row i c') :
    Sound calls c₀ u c' := by
  have hheld : ∀ user, (c.phase i).user? = some user → user.id = u.id := h.held i
  cases hgoes with
  | load row' hp hrow' =>
    have htenant : row'.tenantId = row.tenantId := by
      simp [hrow',refreshed,hsetup.noClaim i]
    have hknown : Known (c₀.db.tenants.map Tenant.id) c₀.users u row' := by
      rw [hrow']
      exact ⟨hrow.known.keyed,hrow.known.mem,hrow.known.sameId,hrow.known.sameSub⟩
    have hthrough : ∀ k, (c.moveTo i (.loaded row')).place k = .through ↔
        c.place k = .through := by
      refine iff_moveTo (f := fun q => q.place = .through) ?_
      rw [hp]
      simp only [Phase.place]
      split_ifs <;> simp
    refine h.move { c with users := overwritten c₀.users row' } _ rfl ⟨row',rfl,hknown,?_,?_⟩
      (h.tenants.congr fun k => ?_) (h.queue.congr fun k => ?_) ?_ (by simp)
    · rw [htenant]
      exact (hrow.congr hthrough).linked
    · rw [htenant]
      exact (hrow.congr hthrough).unlinked
    · exact iff_moveTo (f := fun q => q.hasCreated = true) (by simp [hp,Phase.hasCreated]) k
    · exact iff_moveTo (f := fun q => q = .succeeded) (by simp [hp]) k
    · rintro user ⟨⟩
      exact hknown.sameId
  | refuse user hp htenant =>
    exact h.quiet (by simp [hp,Phase.place,htenant]) (by simp [hp,Phase.hasCreated])
      (by simp [hp]) (by simp [Phase.user?]) (by simp)
  | check user hp htenant =>
    rw [hp] at hheld
    exact h.quiet (by simp [hp,Phase.place,htenant]) (by simp [hp,Phase.hasCreated])
      (by simp [hp]) hheld (by simp)
  | create user hp =>
    rw [hp] at hheld
    refine h.move { c with db := { c.db with tenants := c.db.tenants ++ [(calls i).tenant] } } _
      rfl ⟨row,hrow.congr fun k => ?_⟩ (h.tenants.snoc (i:=i) ?_ fun k => ?_)
      (h.queue.congr fun k => ?_) hheld (by simp)
    · exact iff_moveTo (f := fun q => q.place = .through) (by simp [hp,Phase.place]) k
    · simp [hp,Phase.hasCreated]
    · exact gain_moveTo (f := fun q => q.hasCreated = true) rfl k
    · exact iff_moveTo (f := fun q => q = .succeeded) (by simp [hp]) k
  | link row' user hp hrow' =>
    have hself : (c.moveTo i .linked).place i = .through := by
      rw [Desk.place,moveTo_phase_self]
      rfl
    subst hrow'
    refine h.move { c with users := overwritten c₀.users _ } _ rfl
      ⟨{ row with tenantId := some (calls i).tenantId },rfl,hrow.known.with_tenant _,?_,?_⟩
      (h.tenants.congr fun k => ?_) (h.queue.congr fun k => ?_) (by simp [Phase.user?]) (by simp)
    · rintro t ⟨⟩
      exact ⟨i,hself,rfl⟩
    · rintro ⟨⟩
    · exact iff_moveTo (f := fun q => q.hasCreated = true) (by simp [hp,Phase.hasCreated]) k
    · exact iff_moveTo (f := fun q => q = .succeeded) (by simp [hp]) k
  | enqueue hp =>
    refine h.move { c with queue := c.queue ++ [(calls i).tenantId] } _ rfl
      ⟨row,hrow.congr fun k => ?_⟩ (h.tenants.congr fun k => ?_)
      (h.queue.snoc (i:=i) ?_ fun k => ?_) (by simp [Phase.user?]) (by simp)
    · exact iff_moveTo (f := fun q => q.place = .through) (by simp [hp,Phase.place]) k
    · exact iff_moveTo (f := fun q => q.hasCreated = true) (by simp [hp,Phase.hasCreated]) k
    · simp [hp]
    · exact gain_moveTo (f := fun q => q = .succeeded) rfl k

theorem OnboardStep.sound (hsetup : Setup calls subject c₀) (hsubject : u.auth0Sub = subject)
    (h : Sound calls c₀ u c) (hstep : OnboardStep calls c i c') :
    GateStep c.place i c'.place ∧ Sound calls c₀ u c' := by
  obtain ⟨row,hrow⟩ := h.row
  have hgoes := hstep.advanced.goes hsetup hsubject h hrow
  exact ⟨hgoes.gate hsetup hrow,hgoes.sound hsetup h hrow⟩

end Invariant

section Places

variable {p : Phase}

theorem place_outside : p.place = .outside ↔ p = .start := by
  cases p with
  | loaded user =>
    simp only [Phase.place]
    split_ifs <;> simp
  | _ => simp [Phase.place]

theorem entered_of_hasCreated (h : p.hasCreated = true) : p.place.entered = true := by
  cases p with
  | created | linked | succeeded => rfl
  | _ => cases h

theorem over_of_place (hover : p.isOver = true) (hraised : ∀ err, p ≠ .raised err) :
    p = .succeeded ∧ p.place = .through ∨ p = .conflict ∧ p.place = .refused := by
  cases p with
  | succeeded => exact Or.inl ⟨rfl,rfl⟩
  | conflict => exact Or.inr ⟨rfl,rfl⟩
  | raised err => exact absurd rfl (hraised err)
  | _ => cases hover

end Places

section Runs

variable {ι : Type} {calls : ι → Onboard} {subject : String} {c₀ c : Desk ι} {u : User} {i : ι}

theorem Sound.lookup (hsubject : u.auth0Sub = subject) {row : User}
    (hrow : RowOf calls c₀ u c.users c.place row) :
    (c.users.filter fun r => r.auth0Sub = subject) = [row] := by
  rw [hrow.users,← hsubject]
  exact hrow.known.lookup

theorem Sound.tenantless_iff (h : Sound calls c₀ u c) (hsubject : u.auth0Sub = subject) :
    (∃ r ∈ c.users, r.auth0Sub = subject ∧ r.tenantId = none) ↔ ¬ Closed c.place := by
  obtain ⟨row,hrow⟩ := h.row
  have hmem : ∀ r, r ∈ c.users ∧ r.auth0Sub = subject ↔ r = row := by
    intro r
    have hr : r ∈ c.users.filter (fun r => r.auth0Sub = subject) ↔ r ∈ [row] := by
      rw [Sound.lookup hsubject hrow]
    simpa using hr
  constructor
  · rintro ⟨r,hr,hsub,hnone⟩
    obtain rfl := (hmem r).mp ⟨hr,hsub⟩
    exact hrow.unlinked hnone
  · intro hopen
    obtain ⟨hr,hsub⟩ := (hmem row).mpr rfl
    refine ⟨row,hr,hsub,?_⟩
    by_contra hne
    obtain ⟨t,ht⟩ := Option.ne_none_iff_exists'.mp hne
    obtain ⟨k,hk,-⟩ := hrow.linked t ht
    exact hopen ⟨k,hk⟩

theorem Sound.undisturbed_iff (h : Sound calls c₀ u c) (hsubject : u.auth0Sub = subject) :
    Undisturbed subject c i ↔ Alone c.place i := by
  rw [Undisturbed,Alone,h.tenantless_iff hsubject,Desk.place,place_outside]

theorem Sound.linkedTo (h : Sound calls c₀ u c) (hsubject : u.auth0Sub = subject)
    (hsingle : Single c.place) (hi : c.place i = .through) :
    LinkedTo subject c (calls i).tenantId := by
  obtain ⟨row,hrow⟩ := h.row
  refine ⟨row,Sound.lookup hsubject hrow,?_⟩
  cases ht : row.tenantId with
  | none => exact absurd ⟨i,hi⟩ (hrow.unlinked ht)
  | some t =>
    obtain ⟨k,hk,rfl⟩ := hrow.linked t ht
    rw [hsingle k i (by rw [hk]; rfl) (by rw [hi]; rfl)]

theorem Sound.oneTenant (h : Sound calls c₀ u c) (hsingle : Single c.place) :
    (∀ k, ¬ (c.phase k).hasCreated = true) ∧ c.db.tenants = c₀.db.tenants ∨
      ∃ k, (c.phase k).hasCreated = true ∧ c.db.tenants = c₀.db.tenants ++ [(calls k).tenant] :=
  h.tenants.eq_or_single fun j k hj hk =>
    hsingle j k (entered_of_hasCreated hj) (entered_of_hasCreated hk)

theorem Sound.oneJob (h : Sound calls c₀ u c) (hsingle : Single c.place) :
    (∀ k, c.phase k ≠ .succeeded) ∧ c.queue = c₀.queue ∨
      ∃ k, c.phase k = .succeeded ∧ c.queue = c₀.queue ++ [(calls k).tenantId] :=
  h.queue.eq_or_single fun j k hj hk =>
    hsingle j k (by rw [Desk.place,hj]; rfl) (by rw [Desk.place,hk]; rfl)

theorem Sound.atMostOnce (h : Sound calls c₀ u c) (hsubject : u.auth0Sub = subject)
    (hsingle : Single c.place) : AtMostOnce calls subject c₀ c where
  noneRaised := h.noneRaised
  oneSucceeded := fun j k hj hk =>
    hsingle j k (by rw [Desk.place,hj]; rfl) (by rw [Desk.place,hk]; rfl)
  oneTenant := (h.oneTenant hsingle).imp And.right fun ⟨k,_,hk⟩ => ⟨k,hk⟩
  oneJob := by
    refine (h.oneJob hsingle).imp And.right ?_
    rintro ⟨k,hk,hqueue⟩
    exact ⟨k,hqueue,h.linkedTo hsubject hsingle (by rw [Desk.place,hk]; rfl)⟩

/-- When every request is over, the user was onboarded once exactly if one request at most has
read it without a tenant. -/
theorem Sound.onboardedOnce_iff [Nonempty ι] (h : Sound calls c₀ u c)
    (hsubject : u.auth0Sub = subject) (hjustified : Justified c.place)
    (hover : ∀ k, (c.phase k).isOver = true) :
    OnboardedOnce calls subject c₀ c ↔ Single c.place := by
  have hends := fun k => over_of_place (hover k) (h.noneRaised k)
  have hplaces : ∀ k, c.place k = .through ∨ c.place k = .refused :=
    fun k => (hends k).imp And.right And.right
  rw [← one_through_iff hjustified hplaces]
  constructor
  · rintro ⟨k,hk,hothers,-⟩
    exact ⟨k,by rw [Desk.place,hk]; rfl,fun j hj => by rw [Desk.place,hothers j hj]; rfl⟩
  · intro hone
    have hsingle := (one_through_iff hjustified hplaces).mp hone
    obtain ⟨k,hk,hothers⟩ := hone
    have hsucceeded : c.phase k = .succeeded := by
      obtain ⟨hp,-⟩ | ⟨-,hp⟩ := hends k
      · exact hp
      · cases hk.symm.trans hp
    have hsame : ∀ j, (c.place j).entered = true → j = k :=
      fun j hj => hsingle j k hj (by rw [hk]; rfl)
    refine ⟨k,hsucceeded,fun j hj => ?_,?_,h.linkedTo hsubject hsingle hk,?_⟩
    · obtain ⟨-,hp⟩ | ⟨hp,-⟩ := hends j
      · cases hp.symm.trans (hothers j hj)
      · exact hp
    · obtain ⟨hno,-⟩ | ⟨j,hj,htenants⟩ := h.oneTenant hsingle
      · exact absurd (by rw [hsucceeded]; rfl) (hno k)
      · rw [htenants,hsame j (entered_of_hasCreated hj)]
    · obtain ⟨hno,-⟩ | ⟨j,hj,hqueue⟩ := h.oneJob hsingle
      · exact absurd hsucceeded (hno k)
      · rw [hqueue,hsame j (by rw [Desk.place,hj]; rfl)]

variable [DecidableEq ι] {tr : List (Transition (Desk ι) ι)}

theorem sound_of_reachable (hsetup : Setup calls subject c₀) (hu : u ∈ c₀.users)
    (hsubject : u.auth0Sub = subject) (hnone : u.tenantId = none)
    (h : Reachable (OnboardStep calls) c₀ c) : Sound calls c₀ u c :=
  h.invariant (I := Sound calls c₀ u) (sound_initial hsetup hu hnone) fun _ _ _ hs hstep =>
    (OnboardStep.sound hsetup hsubject hs hstep).2

/-- While every step of a run is undisturbed the user is onboarded at most once. A run that has
come to its end has onboarded it exactly once if and only if every step was undisturbed. -/
theorem onboarded_once_iff [Nonempty ι] (hsetup : Setup calls subject c₀)
    (h : Path (OnboardStep calls) c₀ tr c) :
    ((∀ x ∈ tr, Undisturbed subject x.1 x.2.1) → AtMostOnce calls subject c₀ c) ∧
      ((∀ i, onboardNext calls c i = none) →
        (OnboardedOnce calls subject c₀ c ↔ ∀ x ∈ tr, Undisturbed subject x.1 x.2.1)) := by
  obtain ⟨u,hu,hsubject,hnone⟩ := hsetup.newcomer
  have hsound : ∀ {d}, Reachable (OnboardStep calls) c₀ d → Sound calls c₀ u d :=
    fun hd => sound_of_reachable hsetup hu hsubject hnone hd
  have hinit : ∀ i, c₀.place i = .outside := fun i => by rw [Desk.place,hsetup.start i]; rfl
  have hgate : ∀ d i d', Reachable (OnboardStep calls) c₀ d → OnboardStep calls d i d' →
      GateStep d.place i d'.place := fun d i d' hd hstep =>
    (OnboardStep.sound hsetup hsubject (hsound hd) hstep).1
  have hsingle : Single c.place ↔ ∀ x ∈ tr, Undisturbed subject x.1 x.2.1 := by
    rw [single_run_iff Desk.place hinit hgate h]
    refine forall₂_congr fun x hx => ?_
    exact ((hsound (h.step_of_mem hx).1).undisturbed_iff hsubject).symm
  constructor
  · intro hall
    exact (hsound h.reachable).atMostOnce hsubject (hsingle.mpr hall)
  · intro hstuck
    rw [← hsingle]
    exact (hsound h.reachable).onboardedOnce_iff hsubject
      (justified_run Desk.place hinit hgate h.reachable) fun i => over_of_next_none (hstuck i)

end Runs

def signedUp : User := ⟨5,"auth0|new","n@us.com",.tenant,none⟩

def twoForms (second : Bool) : Onboard :=
  ⟨9,if second then 2 else 1,⟨"auth0|new","n@us.com",none,.tenant⟩,
    ⟨"Acme",.b2b,"https://acme.com"⟩⟩

def openDesk : Desk Bool := .initial .empty [signedUp] []

theorem setup_twoForms : Setup twoForms "auth0|new" openDesk where
  start := fun _ => rfl
  keyed := ⟨List.pairwise_singleton _ _,List.pairwise_singleton _ _⟩
  refers := by
    intro u hu t ht
    rw [List.mem_singleton.mp hu] at ht
    cases ht
  newcomer := ⟨signedUp,List.mem_singleton_self _,rfl,rfl⟩
  subject := fun _ => rfl
  noClaim := fun _ => rfl
  fresh := fun _ => List.not_mem_nil
  distinct := by decide

def inTurn : Desk Bool := follow (onboardNext twoForms) openDesk
  [false,false,false,false,false,true,true]

theorem inTurn_onboarded : AtMostOnce twoForms "auth0|new" openDesk inTurn ∧
    OnboardedOnce twoForms "auth0|new" openDesk inTurn := by
  have hpath : Path (OnboardStep twoForms) openDesk _ inTurn := path_follow _ _ _
  have hrun := onboarded_once_iff setup_twoForms hpath
  have hundisturbed : ∀ x ∈ followed (onboardNext twoForms) openDesk
      [false,false,false,false,false,true,true], Undisturbed "auth0|new" x.1 x.2.1 := by
    decide
  exact ⟨hrun.1 hundisturbed,(hrun.2 (by decide)).mpr hundisturbed⟩

def atOnce : Desk Bool := follow (onboardNext twoForms) openDesk
  [false,true,false,false,false,false,true,true,true,true]

/-- Both requests succeed: a tenant is left without its user, with a pipeline of its own. -/
theorem atOnce_orphan :
    Path (OnboardStep twoForms) openDesk
        (followed (onboardNext twoForms) openDesk
          [false,true,false,false,false,false,true,true,true,true]) atOnce ∧
      (∀ i, onboardNext twoForms atOnce i = none) ∧ (∀ i, atOnce.phase i = .succeeded) ∧
      atOnce.db.tenants.map Tenant.id = [1,2] ∧ atOnce.users.map User.tenantId = [some 2] ∧
      atOnce.queue = [1,2] ∧ ¬ OnboardedOnce twoForms "auth0|new" openDesk atOnce := by
  have hall : ∀ i, atOnce.phase i = .succeeded := by decide
  refine ⟨path_follow _ _ _,by decide,hall,by decide,by decide,by decide,?_⟩
  rintro ⟨i,-,hothers,-⟩
  have hconflict := hothers (!i) (by cases i <;> decide)
  cases (hall (!i)).symm.trans hconflict

end OnboardingRequests
end LeadEngine
