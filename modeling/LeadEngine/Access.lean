import Mathlib.Logic.Function.Basic
import LeadEngine.AccessToken
import LeadEngine.Accounts
import LeadEngine.UuidText

/-! Whom a request acts for: from the bearer token over its claims to the row of the user, in any
number of API processes that share the users table and take turns at it. -/
namespace LeadEngine
namespace Access

open Fallible Table Accounts AccessToken TtlCache TransitionSystem

abbrev Claims := List (String × Json)

/-- The token library, the settings, pydantic's check of an address, and what `int` makes of digits
beyond ASCII. -/
structure AuthEnv (τ κ : Type) where
  jose : Jose τ κ Claims
  authClaimNamespace : String
  validateEmail : String → Option String
  intBeyondAscii : List Char → Option ℕ

inductive AuthError
  | authentication (detail : String)
  | attributeError
  | token (err : TokenError)
  | user (err : UserError)

def invalidClaims : AuthError := .authentication "Invalid or missing token claims"

/-- `Role(value)`. -/
def roleOf : Json → Option Role
  | .str "PLATFORM_ADMIN" => some .platformAdmin
  | .str "TENANT" => some .tenant
  | _ => none

def isTrue : Json → Bool
  | .null => false
  | .bool b => b
  | .int n => n ≠ 0
  | .float q => q ≠ 0
  | .str s => s ≠ ""
  | .arr xs => !xs.isEmpty
  | .obj kvs => !kvs.isEmpty

section Claims

variable {τ κ : Type} (env : AuthEnv τ κ)

/-- `UUID(raw_tenant) if raw_tenant else None`; a value that is not a text has no `replace`. -/
def tenantClaim (claims : Claims) : Except AuthError (Option UUID) :=
  match (Json.obj claims).get? (env.authClaimNamespace ++ "tenant_id") with
  | none => .ok none
  | some rawTenant =>
    if isTrue rawTenant then
      match rawTenant with
      | .str text =>
        match UuidText.parse env.intBeyondAscii text with
        | none => .error invalidClaims
        | some tenantId => .ok (some tenantId)
      | _ => .error .attributeError
    else .ok none

def fromClaims (claims : Claims) : Except AuthError Principal :=
  match (Json.obj claims).get? "sub",(Json.obj claims).get? (env.authClaimNamespace ++ "email"),
    ((Json.obj claims).get? (env.authClaimNamespace ++ "role")).bind roleOf with
  | some subject,some email,some role =>
    match tenantClaim env claims with
    | .error err => .error err
    | .ok tenantId =>
      match subject.text?,email.text?.bind env.validateEmail with
      | some subject,some email => .ok ⟨subject,email,tenantId,role⟩
      | _,_ => .error invalidClaims
  | _,_,_ => .error invalidClaims

/-- The user of a request. Without a bearer token there is no call of `verify_token`; a new row
gets the given id. -/
def getCurrentUser (slot : Slot (List κ)) (db : Directory) (visit : Option (Visit τ κ))
    (id : UUID) :
    Slot (List κ) × Except AuthError (Directory × User) :=
  match visit with
  | none => (slot,.error (.authentication "Missing bearer token"))
  | some v =>
    match verifyToken env.jose slot v with
    | (slot,.error err) => (slot,.error (.token err))
    | (slot,.ok claims) =>
      match fromClaims env claims with
      | .error err => (slot,.error err)
      | .ok principal => (slot,(getOrCreateUser db id principal).mapError .user)

variable {env}

theorem fromClaims_ok {claims : Claims} {principal : Principal}
    (h : fromClaims env claims = .ok principal) :
    (Json.obj claims).get? "sub" = some (.str principal.subject) ∧
      ((Json.obj claims).get? (env.authClaimNamespace ++ "role")).bind roleOf = some principal.role ∧
      tenantClaim env claims = .ok principal.tenantId := by
  unfold fromClaims at h
  split at h
  · rename_i subject email role hsub _ hrole
    split at h
    · cases h
    rename_i tenantId htenant
    split at h
    · rename_i text _ htext _
      obtain rfl := Except.ok.inj h
      rw [hsub,Json.text?_eq_some.mp htext]
      exact ⟨rfl,hrole,htenant⟩
    · cases h
  · cases h

theorem getCurrentUser_ok {slot slot' : Slot (List κ)} {db db' : Directory} {v : Visit τ κ}
    {id : UUID}
    {user : User} (h : getCurrentUser env slot db (some v) id = (slot',.ok (db',user))) :
    ∃ claims principal, verifyToken env.jose slot v = (slot',.ok claims) ∧
      fromClaims env claims = .ok principal ∧ getOrCreateUser db id principal = .ok (db',user) := by
  unfold getCurrentUser at h
  dsimp only at h
  split at h
  · simp at h
  rename_i claims hverify
  split at h
  · simp at h
  rename_i principal hprincipal
  obtain ⟨rfl,hresult⟩ := Prod.mk.inj h
  exact ⟨claims,principal,hverify,hprincipal,mapError_eq_ok.mp hresult⟩

theorem getCurrentUser_slot {slot : Slot (List κ)} {db : Directory} {v : Visit τ κ} {id : UUID} :
    (getCurrentUser env slot db (some v) id).1 = (verifyToken env.jose slot v).1 := by
  unfold getCurrentUser
  dsimp only
  rcases verifyToken env.jose slot v with ⟨slot',result⟩
  cases result with
  | error err => rfl
  | ok claims =>
    dsimp only
    cases fromClaims env claims <;> rfl

theorem roleOf_eq_tenant {claim : Option Json} (h : claim.bind roleOf = some .tenant) :
    claim = some (.str "TENANT") := by
  obtain ⟨value,rfl,hrole⟩ := Option.bind_eq_some_iff.mp h
  unfold roleOf at hrole
  split at hrole
  · simp at hrole
  · rfl
  · cases hrole

end Claims

section Tables

/-- The unique indexes of the users, and their references to tenants. -/
structure Sound (db : Directory) : Prop where
  ids : UniqueOn User.idKey db.users
  subs : UniqueOn User.subKey db.users
  tenantIds : UniqueOn User.tenantId db.users
  references : ∀ u ∈ db.users, ∀ t, u.tenantId = some t → t ∈ db.tenants

theorem sound_empty : Sound .empty :=
  ⟨UniqueOn.nil _,UniqueOn.nil _,UniqueOn.nil _,fun u hu => by simp [Directory.empty] at hu⟩

theorem Sound.inserted {db db' : Directory} {u : User} (h : Sound db)
    (hinsert : insertUser db u = .ok db') :
    Sound db' ∧ db'.tenants = db.tenants ∧ db'.users = db.users ++ [u] := by
  unfold insertUser at hinsert
  split_ifs at hinsert with hviolates
  obtain rfl := Except.ok.inj hinsert
  simp only [Violates,not_or,not_exists,not_and,not_not] at hviolates
  obtain ⟨hids,hsubs,htenants,hreference⟩ := hviolates
  refine ⟨⟨h.ids.append_singleton hids,h.subs.append_singleton hsubs,
    h.tenantIds.append_singleton htenants,fun r hr t ht => ?_⟩,rfl,rfl⟩
  rcases List.mem_append.mp hr with hr | hr
  · exact h.references r hr t ht
  · obtain rfl := List.mem_singleton.mp hr
    exact hreference t ht

theorem uniqueOn_rewritten {κ : Type} {key : User → Option κ} {users : List User} {row : User}
    (hids : UniqueOn User.idKey users) (hkey : UniqueOn key users)
    (hfree : ¬ Conflicts key (users.filter fun r => r.id ≠ row.id) row) :
    UniqueOn key (users.map fun r => if r.id = row.id then row else r) := by
  have hother : ∀ r ∈ users, r.id ≠ row.id → ∀ k, key r = some k → key row ≠ some k :=
    fun r hr hne k hk hk' => hfree ⟨r,by simp [hr,hne],hk.trans hk'.symm,by simp [hk']⟩
  refine List.pairwise_map.mpr ((hids.and hkey).imp_of_mem ?_)
  intro a b ha hb hab k hk hk'
  obtain ⟨hne,hkeys⟩ := hab
  split_ifs at hk hk' with hrow hrow'
  · exact hne a.id rfl (congrArg some (hrow'.trans hrow.symm))
  · exact hother b hb hrow' k hk' hk
  · exact hother a ha hrow k hk hk'
  · exact hkeys k hk hk'

theorem Sound.updated {db db' : Directory} {u : User} (h : Sound db)
    (hupdate : updateUser db u = .ok db') : Sound db' ∧ db'.tenants = db.tenants ∧
      db'.users = db.users.map fun r => if r.id = u.id then u else r := by
  unfold updateUser at hupdate
  split_ifs at hupdate with hviolates
  obtain rfl := Except.ok.inj hupdate
  simp only [Violates,not_or,not_exists,not_and,not_not] at hviolates
  obtain ⟨hids,hsubs,htenants,hreference⟩ := hviolates
  refine ⟨⟨uniqueOn_rewritten h.ids h.ids hids,uniqueOn_rewritten h.ids h.subs hsubs,
    uniqueOn_rewritten h.ids h.tenantIds htenants,fun r hr t ht => ?_⟩,rfl,rfl⟩
  obtain ⟨x,hx,rfl⟩ := List.mem_map.mp hr
  split_ifs at ht with hid
  · exact hreference t ht
  · exact h.references x hx t ht

/-- The write of one user: a row of its own, or its row from before. -/
inductive Wrote (db : Directory) (user : User) (db' : Directory) : Prop
  | added (hnew : ∀ r ∈ db.users, r.auth0Sub ≠ user.auth0Sub)
      (husers : db'.users = db.users ++ [user])
  | replaced (old : User) (hold : old ∈ db.users) (hid : old.id = user.id)
      (hsub : old.auth0Sub = user.auth0Sub)
      (husers : db'.users = db.users.map fun r => if r.id = user.id then user else r)

theorem Wrote.mem {db db' : Directory} {user : User} (h : Wrote db user db') :
    user ∈ db'.users := by
  cases h with
  | added _ husers => simp [husers]
  | replaced old hold hid _ husers =>
    rw [husers]
    exact List.mem_map.mpr ⟨old,hold,if_pos hid⟩

theorem Wrote.others {db db' : Directory} {user : User} (h : Wrote db user db') (hsound : Sound db)
    {r : User} (hr : r ∈ db'.users) : r = user ∨ r ∈ db.users ∧ r.auth0Sub ≠ user.auth0Sub := by
  cases h with
  | added hnew husers =>
    rw [husers] at hr
    rcases List.mem_append.mp hr with hr | hr
    · exact .inr ⟨hr,hnew r hr⟩
    · exact .inl (List.mem_singleton.mp hr)
  | replaced old hold hid hsub husers =>
    rw [husers] at hr
    obtain ⟨x,hx,rfl⟩ := List.mem_map.mp hr
    split_ifs with hxid
    · exact .inl rfl
    · refine .inr ⟨hx,fun hsame => hxid ?_⟩
      have heq : x = old :=
        hsound.subs.eq_of_key hx hold rfl (congrArg some (hsub.trans hsame.symm))
      rw [heq,hid]

theorem Wrote.keeps {db db' : Directory} {user r : User} (h : Wrote db user db')
    (hsound : Sound db) (hr : r ∈ db.users) :
    ∃ r' ∈ db'.users, r'.id = r.id ∧ r'.auth0Sub = r.auth0Sub := by
  cases h with
  | added _ husers => exact ⟨r,by simp [husers,hr],rfl,rfl⟩
  | replaced old hold hid hsub husers =>
    by_cases hrid : r.id = user.id
    · have heq : r = old := hsound.ids.eq_of_key hr hold rfl (congrArg some (hid.trans hrid.symm))
      refine ⟨user,?_,by rw [heq,hid],by rw [heq,hsub]⟩
      rw [husers]
      exact List.mem_map.mpr ⟨old,hold,if_pos hid⟩
    · refine ⟨r,?_,rfl,rfl⟩
      rw [husers]
      exact List.mem_map.mpr ⟨r,hr,if_neg hrid⟩

/-- A login writes the row of its subject, with the role of its claims and with their tenant, or
with the tenant of the row from before. -/
theorem wrote_getOrCreateUser {db db' : Directory} {id : UUID} {principal : Principal} {user : User}
    (hsound : Sound db) (h : getOrCreateUser db id principal = .ok (db',user)) :
    Sound db' ∧ Wrote db user db' ∧ user.auth0Sub = principal.subject ∧ user.role = principal.role ∧
      ((∀ r ∈ db.users, r.auth0Sub ≠ principal.subject) ∧ user.tenantId = principal.tenantId ∨
        ∃ old ∈ db.users, old.auth0Sub = principal.subject ∧
          user.tenantId = principal.tenantId.or old.tenantId) := by
  unfold getOrCreateUser at h
  split at h
  · cases h
  · rename_i hnone
    obtain ⟨db₁,hinsert,heq⟩ := map_eq_ok.mp h
    obtain ⟨rfl,rfl⟩ := Prod.mk.inj heq
    have hnew : ∀ r ∈ db.users, r.auth0Sub ≠ principal.subject := fun r hr => by
      simpa using List.filter_eq_nil_iff.mp (scalarOneOrNone_none.mp hnone) r hr
    obtain ⟨hsound',_,husers⟩ := hsound.inserted hinsert
    exact ⟨hsound',.added hnew husers,rfl,rfl,.inl ⟨hnew,rfl⟩⟩
  · rename_i old hsome
    obtain ⟨db₁,hupdate,heq⟩ := map_eq_ok.mp h
    obtain ⟨rfl,rfl⟩ := Prod.mk.inj heq
    have hmem : old ∈ db.users.filter fun u => u.auth0Sub = principal.subject := by
      rw [scalarOneOrNone_some.mp hsome]
      exact List.mem_singleton_self old
    obtain ⟨hold,hsub⟩ : old ∈ db.users ∧ old.auth0Sub = principal.subject := by simpa using hmem
    obtain ⟨hsound',_,husers⟩ := hsound.updated hupdate
    exact ⟨hsound',.replaced old hold rfl rfl husers,hsub,rfl,.inr ⟨old,hold,hsub,rfl⟩⟩

theorem wrote_setUserTenant {db db' : Directory} {userId tenantId : UUID} {user : User}
    (hsound : Sound db) (h : setUserTenant db userId tenantId = .ok (db',user)) :
    Sound db' ∧ Wrote db user db' ∧ user.tenantId = some tenantId ∧
      ∃ old ∈ db.users, old.id = userId ∧ user.auth0Sub = old.auth0Sub := by
  unfold setUserTenant at h
  split at h
  · cases h
  · rename_i old hfind
    obtain ⟨db₁,hupdate,heq⟩ := map_eq_ok.mp h
    obtain ⟨rfl,rfl⟩ := Prod.mk.inj heq
    have hold := List.mem_of_find?_eq_some hfind
    have hid : old.id = userId := by simpa using List.find?_some hfind
    obtain ⟨hsound',_,husers⟩ := hsound.updated hupdate
    exact ⟨hsound',.replaced old hold rfl rfl husers,rfl,old,hold,hid,rfl⟩

end Tables

section Runs

variable {ι τ κ : Type}

/-- The API processes with their key caches, the tables, and the users that requests have loaded. -/
structure Api (ι κ : Type) where
  servers : ι → Server κ
  directory : Directory
  sessions : List User

def Api.initial (started : ι → ℤ) : Api ι κ := ⟨fun p => ⟨none,started p⟩,.empty,[]⟩

/-- What happens: a request whose token is accepted, one that is refused, and the two writes of the
onboarding endpoint. -/
inductive ApiOp (ι τ κ : Type)
  | signedIn (p : ι) (v : Visit τ κ) (id : UUID) (claims : Claims) (user : User)
  | refused (p : ι) (v : Visit τ κ) (id : UUID)
  | createTenant (id : UUID)
  | setUserTenant (user : User) (tenantId : UUID)

variable [DecidableEq ι] (env : AuthEnv τ κ) (published : ℤ → Answer κ) (delay : ℤ)

def Api.served (s : Api ι κ) (p : ι) (server : Server κ) : Api ι κ :=
  { s with servers := Function.update s.servers p server }

/-- One step of any process. The calls of `get_current_user` and the two writes are carried out one
after another; a user is linked to a tenant by a request that has loaded it without one. -/
inductive ApiStep : Api ι κ → ApiOp ι τ κ → Api ι κ → Prop
  | signedIn {s : Api ι κ} {p : ι} {v : Visit τ κ} {id : UUID} {clock : ℤ} {slot : Slot (List κ)}
      {db : Directory} {claims : Claims} {user : User}
      (htimely : v.Timely published delay (s.servers p).clock clock)
      (hclaims : (verifyToken env.jose (s.servers p).slot v).2 = .ok claims)
      (h : getCurrentUser env (s.servers p).slot s.directory (some v) id = (slot,.ok (db,user))) :
      ApiStep s (.signedIn p v id claims user)
        { s.served p ⟨slot,clock⟩ with directory := db, sessions := user :: s.sessions }
  | refused {s : Api ι κ} {p : ι} {v : Visit τ κ} {id : UUID} {clock : ℤ} {slot : Slot (List κ)}
      {err : AuthError} (htimely : v.Timely published delay (s.servers p).clock clock)
      (h : getCurrentUser env (s.servers p).slot s.directory (some v) id = (slot,.error err)) :
      ApiStep s (.refused p v id) (s.served p ⟨slot,clock⟩)
  | createTenant (s : Api ι κ) (id : UUID) :
      ApiStep s (.createTenant id)
        { s with directory := { s.directory with tenants := s.directory.tenants ++ [id] } }
  | setUserTenant {s : Api ι κ} {user row : User} {tenantId : UUID} {db : Directory}
      (hloaded : user ∈ s.sessions) (hnone : user.tenantId = none)
      (h : Accounts.setUserTenant s.directory user.id tenantId = .ok (db,row)) :
      ApiStep s (.setUserTenant user tenantId) { s with directory := db }

def ApiOp.tenantOf (subject : String) (before : Option UUID) : ApiOp ι τ κ → Option UUID
  | .signedIn _ _ _ claims user =>
    if user.auth0Sub = subject then (tenantClaim env claims).toOption.join.or before else before
  | .setUserTenant user tenantId => if user.auth0Sub = subject then some tenantId else before
  | _ => before

/-- The tenant that was last claimed by an accepted token of the subject or given to it at
onboarding. -/
def lastTenant (subject : String) (ops : List (ApiOp ι τ κ)) : Option UUID :=
  ops.foldl (fun before op => op.tenantOf env subject before) none

/-- The caches hold published key sets only, and every row of the users table has the tenant that
its subject got last. -/
structure Explained (ops : List (ApiOp ι τ κ)) (s : Api ι κ) : Prop where
  slots : ∀ p, Stored jwksTtl (Published published delay) (s.servers p).slot
  sound : Sound s.directory
  users : ∀ u ∈ s.directory.users, u.tenantId = lastTenant env u.auth0Sub ops
  unknown : ∀ subject, (∀ u ∈ s.directory.users, u.auth0Sub ≠ subject) →
    lastTenant env subject ops = none
  sessions : ∀ u ∈ s.sessions, ∃ r ∈ s.directory.users, r.id = u.id ∧ r.auth0Sub = u.auth0Sub

variable {env published delay}

omit [DecidableEq ι] in
theorem lastTenant_snoc (subject : String) (ops : List (ApiOp ι τ κ)) (op : ApiOp ι τ κ) :
    lastTenant env subject (ops ++ [op]) = op.tenantOf env subject (lastTenant env subject ops) := by
  simp [lastTenant]

omit [DecidableEq ι] in
theorem Explained.wrote {ops : List (ApiOp ι τ κ)} {s : Api ι κ} (op : ApiOp ι τ κ) {db : Directory}
    {user : User} (h : Explained env published delay ops s) (hwrote : Wrote s.directory user db)
    (hsame : ∀ subject, subject ≠ user.auth0Sub → ∀ before,
      op.tenantOf env subject before = before)
    (htenant : user.tenantId = op.tenantOf env user.auth0Sub (lastTenant env user.auth0Sub ops)) :
    (∀ u ∈ db.users, u.tenantId = lastTenant env u.auth0Sub (ops ++ [op])) ∧
      ∀ subject, (∀ u ∈ db.users, u.auth0Sub ≠ subject) →
        lastTenant env subject (ops ++ [op]) = none := by
  constructor
  · intro u hu
    rw [lastTenant_snoc]
    rcases hwrote.others h.sound hu with rfl | ⟨hold,hother⟩
    · exact htenant
    · rw [hsame _ hother]
      exact h.users u hold
  · intro subject hsubject
    rw [lastTenant_snoc,hsame _ (fun heq => hsubject user hwrote.mem heq.symm)]
    refine h.unknown subject fun u hu hsub => ?_
    obtain ⟨r,hr,_,hrsub⟩ := hwrote.keeps h.sound hu
    exact hsubject r hr (hrsub.trans hsub)

theorem Explained.served {ops : List (ApiOp ι τ κ)} {s : Api ι κ} {p : ι} {v : Visit τ κ}
    {clock : ℤ} (h : Explained env published delay ops s)
    (htimely : v.Timely published delay (s.servers p).clock clock) (q : ι) :
    Stored jwksTtl (Published published delay)
      (Function.update s.servers p ⟨(verifyToken env.jose (s.servers p).slot v).1,clock⟩ q).slot := by
  by_cases hq : q = p
  · subst hq
    rw [Function.update_self]
    exact (verifyToken_spec htimely (h.slots q)).1
  · rw [Function.update_of_ne hq]
    exact h.slots q

omit [DecidableEq ι] in
/-- What an accepted request writes: the row of the subject, with the tenant of its claims or the
one that the subject had. -/
theorem Explained.signedIn {ops : List (ApiOp ι τ κ)} {s : Api ι κ} (p : ι) {v : Visit τ κ}
    {id : UUID}
    {slot slot' : Slot (List κ)} {db : Directory} {claims : Claims} {user : User}
    (h : Explained env published delay ops s)
    (hclaims : (verifyToken env.jose slot v).2 = .ok claims)
    (huser : getCurrentUser env slot s.directory (some v) id = (slot',.ok (db,user))) :
    ∃ principal, fromClaims env claims = .ok principal ∧ Sound db ∧ Wrote s.directory user db ∧
      user.auth0Sub = principal.subject ∧ user.role = principal.role ∧
      user.tenantId = principal.tenantId.or (lastTenant env user.auth0Sub ops) ∧
      user.tenantId = (ApiOp.signedIn p v id claims user).tenantOf env user.auth0Sub
        (lastTenant env user.auth0Sub ops) := by
  obtain ⟨claims',principal,hverify,hprincipal,hwrite⟩ := getCurrentUser_ok huser
  rw [hverify] at hclaims
  obtain rfl := Except.ok.inj hclaims
  obtain ⟨hsound,hwrote,hsub,hrole,htenant⟩ := wrote_getOrCreateUser h.sound hwrite
  have hlast : user.tenantId = principal.tenantId.or (lastTenant env user.auth0Sub ops) := by
    rcases htenant with ⟨hnew,htenant⟩ | ⟨old,hold,holdSub,htenant⟩
    · rw [htenant,h.unknown user.auth0Sub (fun r hr => hsub ▸ hnew r hr),Option.or_none]
    · rw [htenant,h.users old hold,holdSub,hsub]
  refine ⟨principal,hprincipal,hsound,hwrote,hsub,hrole,hlast,?_⟩
  rw [ApiOp.tenantOf,if_pos rfl,(fromClaims_ok hprincipal).2.2]
  exact hlast

/-- One step keeps the tables explained by what has happened. -/
theorem ApiStep.explained {ops : List (ApiOp ι τ κ)} {s s' : Api ι κ} {op : ApiOp ι τ κ}
    (hstep : ApiStep env published delay s op s') (h : Explained env published delay ops s) :
    Explained env published delay (ops ++ [op]) s' := by
  have hquiet : (∀ subject before, op.tenantOf env subject before = before) →
      ∀ subject, lastTenant env subject (ops ++ [op]) = lastTenant env subject ops :=
    fun hop subject => by rw [lastTenant_snoc,hop]
  cases hstep with
  | @signedIn p v id clock slot db claims user htimely hclaims huser =>
    obtain ⟨_,_,hsound,hwrote,_,_,_,htenant⟩ := h.signedIn p hclaims huser
    obtain rfl : (verifyToken env.jose (s.servers p).slot v).1 = slot :=
      getCurrentUser_slot.symm.trans (congrArg Prod.fst huser)
    obtain ⟨husers,hunknown⟩ := h.wrote _ hwrote
      (fun subject hne before => by rw [ApiOp.tenantOf,if_neg hne.symm]) htenant
    refine ⟨fun q => h.served htimely q,hsound,husers,hunknown,fun u hu => ?_⟩
    rcases List.mem_cons.mp hu with rfl | hu
    · exact ⟨_,hwrote.mem,rfl,rfl⟩
    · obtain ⟨r,hr,hid,hsub⟩ := h.sessions u hu
      obtain ⟨r',hr',hid',hsub'⟩ := hwrote.keeps h.sound hr
      exact ⟨r',hr',hid'.trans hid,hsub'.trans hsub⟩
  | @refused p v id clock slot err htimely huser =>
    obtain rfl : (verifyToken env.jose (s.servers p).slot v).1 = slot :=
      getCurrentUser_slot.symm.trans (congrArg Prod.fst huser)
    have hsame := hquiet fun _ _ => rfl
    exact ⟨fun q => h.served htimely q,h.sound,fun u hu => (h.users u hu).trans (hsame _).symm,
      fun subject hno => (hsame subject).trans (h.unknown subject hno),h.sessions⟩
  | createTenant id =>
    have hsame := hquiet fun _ _ => rfl
    exact ⟨h.slots,⟨h.sound.ids,h.sound.subs,h.sound.tenantIds,fun u hu t ht =>
        List.mem_append_left _ (h.sound.references u hu t ht)⟩,
      fun u hu => (h.users u hu).trans (hsame _).symm,
      fun subject hno => (hsame subject).trans (h.unknown subject hno),h.sessions⟩
  | @setUserTenant user row tenantId db hloaded hnone hlink =>
    obtain ⟨hsound,hwrote,htenant,old,hold,hid,hsub⟩ := wrote_setUserTenant h.sound hlink
    obtain ⟨r,hr,hrid,hrsub⟩ := h.sessions user hloaded
    have hrow : row.auth0Sub = user.auth0Sub := by
      rw [hsub,← hrsub]
      exact congrArg _ (h.sound.ids.eq_of_key hold hr rfl (congrArg some (hrid.trans hid.symm)))
    obtain ⟨husers,hunknown⟩ := h.wrote (.setUserTenant user tenantId) hwrote
      (fun subject hne before => by
        rw [ApiOp.tenantOf,if_neg (fun hsame => hne (hsame.symm.trans hrow.symm))])
      (by rw [ApiOp.tenantOf,if_pos hrow.symm,htenant])
    refine ⟨h.slots,hsound,husers,hunknown,fun u hu => ?_⟩
    obtain ⟨r,hr,hid,hsub⟩ := h.sessions u hu
    obtain ⟨r',hr',hid',hsub'⟩ := hwrote.keeps h.sound hr
    exact ⟨r',hr',hid'.trans hid,hsub'.trans hsub⟩

theorem explained_of_path {started : ι → ℤ} {tr : List (Transition (Api ι κ) (ApiOp ι τ κ))}
    {s : Api ι κ} (h : Path (ApiStep env published delay) (.initial started) tr s) :
    Explained env published delay (tr.map fun t => t.2.1) s := by
  induction h with
  | nil =>
    exact ⟨fun _ => stored_none,sound_empty,fun u hu => by simp [Api.initial,Directory.empty] at hu,
      fun _ _ => rfl,fun u hu => by simp [Api.initial] at hu⟩
  | snoc _ hstep ih =>
    rw [List.map_append,List.map_singleton]
    exact hstep.explained ih

/-- In every run of the API processes whose logins do not overlap, a request that passes the tenant
check acts for the tenant of its own token, or for the one that its subject claimed or was given last;
its token was verified with a key set published not more than an hour ago, and no other subject has
that tenant. -/
theorem acts_for_own_tenant {started : ι → ℤ} {tr : List (Transition (Api ι κ) (ApiOp ι τ κ))}
    {s s' : Api ι κ} (h : Path (ApiStep env published delay) (.initial started) tr s) {p : ι}
    {v : Visit τ κ} {id : UUID} {claims : Claims} {user : User}
    (hstep : ApiStep env published delay s (.signedIn p v id claims user) s') {checked : User}
    (hchecked : requireTenantUser user = .ok checked) :
    ∃ tenantId, checked.tenantId = some tenantId ∧ tenantId ∈ s'.directory.tenants ∧
      (∃ a jwks, published a = .keys jwks ∧ v.first.looked < a+delay+jwksTtl ∧
        env.jose.decode v.token jwks v.decoded = .ok claims) ∧
      (Json.obj claims).get? "sub" = some (.str user.auth0Sub) ∧
      (Json.obj claims).get? (env.authClaimNamespace ++ "role") = some (.str "TENANT") ∧
      (tenantClaim env claims = .ok (some tenantId) ∨ tenantClaim env claims = .ok none ∧
        lastTenant env user.auth0Sub (tr.map fun t => t.2.1) = some tenantId) ∧
      ∀ other ∈ s'.directory.users, other.tenantId = some tenantId → other = user := by
  have hexplained := explained_of_path h
  unfold requireTenantUser at hchecked
  split_ifs at hchecked with hplaced
  obtain rfl := Except.ok.inj hchecked
  obtain ⟨hrole,htenant⟩ : user.role = .tenant ∧ user.tenantId ≠ none := by
    simpa [not_or] using hplaced
  obtain ⟨tenantId,htenantId⟩ := Option.ne_none_iff_exists'.mp htenant
  cases hstep with
  | signedIn htimely hclaims huser =>
    obtain ⟨principal,hprincipal,hsound,hwrote,hsub,hprincipalRole,hlast,_⟩ :=
      hexplained.signedIn p hclaims huser
    obtain ⟨hsubClaim,hroleClaim,htenantClaim⟩ := fromClaims_ok hprincipal
    refine ⟨tenantId,htenantId,hsound.references user hwrote.mem tenantId htenantId,
      (verifyToken_spec htimely (hexplained.slots p)).2 claims hclaims,hsub ▸ hsubClaim,
      roleOf_eq_tenant (by rw [hroleClaim,← hprincipalRole,hrole]),?_,fun other hother hsame =>
        hsound.tenantIds.eq_of_key hother hwrote.mem hsame htenantId⟩
    rw [htenantClaim]
    cases hp : principal.tenantId with
    | none => exact .inr ⟨rfl,by rw [← htenantId,hlast,hp,Option.none_or]⟩
    | some t => exact .inl (by rw [← htenantId,hlast,hp,Option.some_or])

end Runs

def ownerClaims : Claims :=
  [("sub",.str "auth0|acme"),("https://app/email",.str "a@x.com"),("https://app/role",.str "TENANT")]

def ownerEnv : AuthEnv ℕ ℕ where
  jose :=
    { unverifiedKid := fun _ => .ok (some "7")
      kid := fun key => some (toString key)
      decode := fun _ jwks _ => if 7 ∈ jwks then .ok ownerClaims else .error .jwtError }
  authClaimNamespace := "https://app/"
  validateEmail := some
  intBeyondAscii _ := none

def owner (tenantId : Option UUID) : User := ⟨9,"auth0|acme","a@x.com",.tenant,tenantId⟩

def seven : ℤ → Answer ℕ := fun _ => .keys [7]

def ownerApi (clock : ℤ) (users sessions : List User) : Api Unit ℕ :=
  ⟨fun _ => ⟨if clock = 0 then none else some ⟨[7],3610⟩,clock⟩,⟨[1],users⟩,sessions⟩

/-- The owner logs in, is onboarded to tenant 1 and comes back within the hour. -/
theorem owner_acts_for_acme :
    ∃ s s' : Api Unit ℕ, Reachable (ApiStep ownerEnv seven 0) (.initial fun _ => 0) s ∧
      ApiStep ownerEnv seven 0 s (.signedIn () (visitAt seven 0 100) 5 ownerClaims (owner (some 1)))
        s' ∧
      ∃ tenantId, (owner (some 1)).tenantId = some tenantId ∧ tenantId ∈ s'.directory.tenants ∧
        (∃ a jwks, seven a = .keys jwks ∧ 100 < a+0+jwksTtl ∧
          ownerEnv.jose.decode 0 jwks 100 = .ok ownerClaims) ∧
        ∀ other ∈ s'.directory.users, other.tenantId = some tenantId → other = owner (some 1) := by
  have htimely : ∀ start now : ℤ, start ≤ now →
      (visitAt seven 0 now).Timely seven 0 start now := fun start now hle =>
    (@step_visitAt _ _ _ ownerEnv.jose seven ⟨none,start⟩ 0 now hle).1
  have hserver : ∀ (clock : ℤ) (users sessions : List User) (server : Server ℕ),
      ((ownerApi clock users sessions).served () server).servers = fun _ => server :=
    fun _ _ _ server => by funext p; simp [Api.served]
  have hcreate : ApiStep ownerEnv seven 0 (.initial fun _ => 0) (.createTenant 1)
      (ownerApi 0 [] []) := .createTenant _ 1
  have hlogin : ApiStep ownerEnv seven 0 (ownerApi 0 [] [])
      (.signedIn () (visitAt seven 0 10) 9 ownerClaims (owner none))
      (ownerApi 10 [owner none] [owner none]) := by
    have hstep := ApiStep.signedIn (htimely 0 10 (by decide))
      (rfl : (verifyToken ownerEnv.jose none (visitAt seven 0 10)).2 = Except.ok ownerClaims)
      (rfl : getCurrentUser ownerEnv ((ownerApi 0 [] []).servers ()).slot _ _ 9 =
        (some ⟨[7],3610⟩,.ok (⟨[1],[owner none]⟩,owner none)))
    dsimp only at hstep
    rwa [hserver] at hstep
  have hlink : ApiStep ownerEnv seven 0 (ownerApi 10 [owner none] [owner none])
      (.setUserTenant (owner none) 1) (ownerApi 10 [owner (some 1)] [owner none]) :=
    .setUserTenant (List.mem_singleton_self _) rfl rfl
  have hback : ApiStep ownerEnv seven 0 (ownerApi 10 [owner (some 1)] [owner none])
      (.signedIn () (visitAt seven 0 100) 5 ownerClaims (owner (some 1)))
      (ownerApi 100 [owner (some 1)] [owner (some 1),owner none]) := by
    have hstep := ApiStep.signedIn (htimely 10 100 (by decide))
      (rfl : (verifyToken ownerEnv.jose (some ⟨[7],3610⟩) (visitAt seven 0 100)).2 =
        Except.ok ownerClaims)
      (rfl : getCurrentUser ownerEnv ((ownerApi 10 [owner (some 1)] [owner none]).servers ()).slot _
        _ 5 = (some ⟨[7],3610⟩,.ok (⟨[1],[owner (some 1)]⟩,owner (some 1))))
    dsimp only at hstep
    rwa [hserver] at hstep
  have hpath := ((Path.nil.snoc hcreate).snoc hlogin).snoc hlink
  obtain ⟨tenantId,hown,hknown,hverified,_,_,_,hsole⟩ :=
    acts_for_own_tenant hpath hback
      (rfl : requireTenantUser (owner (some 1)) = .ok (owner (some 1)))
  exact ⟨_,_,hpath.reachable,hback,tenantId,hown,hknown,hverified,hsole⟩

end Access
end LeadEngine
