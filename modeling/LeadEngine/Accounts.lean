import LeadEngine.Channels
import LeadEngine.TransitionSystem

/-! The users table: sign-in, onboarding and the endpoint that shows a tenant the status of a
channel connection. -/
namespace LeadEngine
namespace Accounts

open Fallible Table Channels TransitionSystem

inductive Role
  | platformAdmin | tenant
  deriving DecidableEq

structure Principal where
  subject : String
  email : String
  tenantId : Option UUID
  role : Role

structure User where
  id : UUID
  auth0Sub : String
  email : String
  role : Role
  tenantId : Option UUID
  deriving DecidableEq

namespace User

def idKey (u : User) : Option UUID := some u.id
def subKey (u : User) : Option String := some u.auth0Sub

end User

inductive UserError
  | multipleResultsFound | integrityError | staleData
  deriving DecidableEq

structure Directory where
  tenants : List UUID
  users : List User

def Directory.empty : Directory := ⟨[],[]⟩

def Violates (tenants : List UUID) (others : List User) (u : User) : Prop :=
  Conflicts User.idKey others u ∨ Conflicts User.subKey others u ∨
    Conflicts User.tenantId others u ∨ ∃ t, u.tenantId = some t ∧ t ∉ tenants

instance (tenants : List UUID) (others : List User) (u : User) :
    Decidable (Violates tenants others u) := by
  have : Decidable (∃ t, u.tenantId = some t ∧ t ∉ tenants) :=
    decidable_of_iff (u.tenantId.any fun t => t ∉ tenants) (by simp [Option.any_eq_true])
  unfold Violates
  infer_instance

def insertUser (db : Directory) (u : User) : Except UserError Directory :=
  if Violates db.tenants db.users u then .error .integrityError
  else .ok { db with users := db.users ++ [u] }

/-- Write the columns of a user row. -/
def updateUser (db : Directory) (u : User) : Except UserError Directory :=
  if Violates db.tenants (db.users.filter fun r => r.id ≠ u.id) u then .error .integrityError
  else .ok { db with users := db.users.map fun r => if r.id = u.id then u else r }

/-- The columns of a known user after a login. -/
def refreshed (u : User) (principal : Principal) : User :=
  { u with
    email := principal.email
    role := principal.role
    tenantId := principal.tenantId.or u.tenantId }

def newUser (id : UUID) (principal : Principal) : User :=
  ⟨id,principal.subject,principal.email,principal.role,principal.tenantId⟩

def getOrCreateUser (db : Directory) (id : UUID) (principal : Principal) :
    Except UserError (Directory × User) :=
  match scalarOneOrNone .multipleResultsFound
      (db.users.filter fun u => u.auth0Sub = principal.subject) with
  | .error err => .error err
  | .ok none =>
    let user := newUser id principal
    (insertUser db user).map fun db => (db,user)
  | .ok (some u) =>
    let user := refreshed u principal
    (updateUser db user).map fun db => (db,user)

/-- The row of `user` gets its tenant; the caller has read the row before. -/
def setUserTenant (db : Directory) (userId tenantId : UUID) :
    Except UserError (Directory × User) :=
  match db.users.find? fun u => u.id = userId with
  | none => .error .staleData
  | some u =>
    let user := { u with tenantId := some tenantId }
    (updateUser db user).map fun db => (db,user)

inductive HttpError
  | forbidden (detail : String)
  | notFound (detail : String)
  | internal
  deriving DecidableEq

def requireTenantUser (user : User) : Except HttpError User :=
  if user.role ≠ .tenant ∨ user.tenantId = none then .error (.forbidden "tenant_role_required")
  else .ok user

structure ConnectionStatusRead where
  connectionId : UUID
  channelType : ChannelType
  status : ConnectionStatus
  metadata : List (String × String)
  expiresAt : Option Time
  deriving DecidableEq

def getConnectionStatus (connections : List ChannelConnection) (connectionId : UUID) (user : User) :
    Except HttpError ConnectionStatusRead :=
  match getChannelConnection connections connectionId with
  | .error _ => .error .internal
  | .ok none => .error (.notFound "connection_not_found")
  | .ok (some conn) =>
    if user.tenantId ≠ none ∧ some conn.tenantId ≠ user.tenantId then
      .error (.forbidden "forbidden")
    else .ok ⟨conn.id,conn.channelType,conn.status,conn.connectionMetadata,conn.expiresAt⟩

inductive Call
  | createTenant (id : UUID)
  | getOrCreateUser (id : UUID) (principal : Principal)
  | setUserTenant (userId tenantId : UUID)

def Call.run (db : Directory) : Call → Except UserError Directory
  | .createTenant id => .ok { db with tenants := db.tenants ++ [id] }
  | .getOrCreateUser id principal => (Accounts.getOrCreateUser db id principal).map Prod.fst
  | .setUserTenant userId tenantId => (Accounts.setUserTenant db userId tenantId).map Prod.fst

/-- A call that commits; one that raises leaves both tables as they were. -/
def CallStep (db : Directory) (call : Call) (db' : Directory) : Prop :=
  call.run db = .ok db'

/-- The endpoint shows the user the connections of its own tenant only, unless it is an
admin. -/
def SeesOwn (user : User) : Prop :=
  ∀ connections connectionId conn read,
    getChannelConnection connections connectionId = .ok (some conn) →
    getConnectionStatus connections connectionId user = .ok read →
    user.role = .platformAdmin ∨ user.tenantId = some conn.tenantId

def Placed (user : User) : Prop :=
  user.role = .platformAdmin ∨ user.tenantId ≠ none

/-- The login of an admin, of a token with a tenant claim or of a user linked before. -/
def Call.Places (db : Directory) : Call → Prop
  | .getOrCreateUser _ principal => principal.role = .platformAdmin ∨ principal.tenantId ≠ none ∨
    ∃ u ∈ db.users, u.auth0Sub = principal.subject ∧ u.tenantId ≠ none
  | _ => True

theorem seesOwn_iff (user : User) : SeesOwn user ↔ Placed user := by
  constructor
  · intro h
    by_contra hno
    obtain ⟨hrole,htenant⟩ := not_or.mp hno
    rw [not_not] at htenant
    let conn : ChannelConnection := ⟨0,0,.whatsapp,.active,none,none,[]⟩
    have hfound : getChannelConnection [conn] 0 = .ok (some conn) := rfl
    have hread : getConnectionStatus [conn] 0 user = .ok ⟨0,.whatsapp,.active,[],none⟩ := by
      simp [getConnectionStatus,hfound,htenant,conn]
    rcases h [conn] 0 conn _ hfound hread with hadmin | howner
    · exact hrole hadmin
    · rw [htenant] at howner
      cases howner
  · intro h connections connectionId conn read hfound hread
    rcases h with hadmin | htenant
    · exact .inl hadmin
    · right
      by_contra hother
      simp [getConnectionStatus,hfound,htenant,Ne.symm hother] at hread

/-- Both writes put one user in the table: as a new row or in the place of its old one. -/
def Writes (db : Directory) (user : User) (db' : Directory) : Prop :=
  user ∈ db'.users ∧ ∀ r ∈ db'.users, r = user ∨ r ∈ db.users

theorem writes_insertUser {db db' : Directory} {user : User} (h : insertUser db user = .ok db') :
    Writes db user db' := by
  unfold insertUser at h
  split_ifs at h
  obtain rfl := Except.ok.inj h
  constructor
  · simp
  · intro r hr
    simpa [or_comm] using hr

theorem writes_updateUser {db db' : Directory} {u user : User} (hu : u ∈ db.users)
    (hid : user.id = u.id) (h : updateUser db user = .ok db') : Writes db user db' := by
  unfold updateUser at h
  split_ifs at h
  obtain rfl := Except.ok.inj h
  constructor
  · exact List.mem_map.mpr ⟨u,hu,if_pos hid.symm⟩
  · intro r hr
    obtain ⟨x,hx,rfl⟩ := List.mem_map.mp hr
    split_ifs
    · exact .inl rfl
    · exact .inr hx

/-- A login writes one user: placed by its claims, or by its row from before. -/
theorem writes_getOrCreateUser {db : Directory} {id : UUID} {principal : Principal}
    {p : Directory × User} (h : getOrCreateUser db id principal = .ok p) :
    ∃ user, Writes db user p.1 ∧
      (Placed user ↔ (Call.getOrCreateUser id principal).Places db) := by
  unfold getOrCreateUser at h
  split at h
  · cases h
  · rename_i hnone
    obtain ⟨db',hinsert,rfl⟩ := map_eq_ok.mp h
    refine ⟨newUser id principal,writes_insertUser hinsert,?_⟩
    have hno : ¬ ∃ u ∈ db.users, u.auth0Sub = principal.subject ∧ u.tenantId ≠ none := by
      rintro ⟨u,hu,hsub,_⟩
      have hempty := scalarOneOrNone_none.mp hnone
      have hmem : u ∈ db.users.filter fun u => u.auth0Sub = principal.subject := by
        simp [hu,hsub]
      rw [hempty] at hmem
      simp at hmem
    simp [Placed,newUser,Call.Places,hno]
  · rename_i u hsome
    have hsingle := scalarOneOrNone_some.mp hsome
    have hmem : ∀ x, x ∈ db.users ∧ x.auth0Sub = principal.subject ↔ x = u := by
      intro x
      have hx : x ∈ db.users.filter (fun u => u.auth0Sub = principal.subject) ↔ x ∈ [u] := by
        rw [hsingle]
      simpa using hx
    have hu := ((hmem u).mpr rfl).1
    obtain ⟨db',hupdate,rfl⟩ := map_eq_ok.mp h
    refine ⟨refreshed u principal,writes_updateUser hu rfl hupdate,?_⟩
    have hknown : (∃ x ∈ db.users, x.auth0Sub = principal.subject ∧ x.tenantId ≠ none) ↔
        u.tenantId ≠ none := by
      constructor
      · rintro ⟨x,hx,hsub,htenant⟩
        rwa [(hmem x).mp ⟨hx,hsub⟩] at htenant
      · intro htenant
        exact ⟨u,hu,((hmem u).mpr rfl).2,htenant⟩
    have htenant : (refreshed u principal).tenantId ≠ none ↔
        principal.tenantId ≠ none ∨ u.tenantId ≠ none := by
      cases hp : principal.tenantId <;> simp [refreshed,hp]
    rw [Placed,htenant]
    simp only [Call.Places,hknown,refreshed]

theorem writes_setUserTenant {db : Directory} {userId tenantId : UUID} {p : Directory × User}
    (h : setUserTenant db userId tenantId = .ok p) :
    ∃ user, Writes db user p.1 ∧ user.tenantId = some tenantId := by
  unfold setUserTenant at h
  split at h
  · cases h
  · rename_i u hfind
    have hu := List.mem_of_find?_eq_some hfind
    obtain ⟨db',hupdate,rfl⟩ := map_eq_ok.mp h
    exact ⟨{ u with tenantId := some tenantId },writes_updateUser hu rfl hupdate,rfl⟩

/-- A step keeps every user placed exactly when it places the user it writes. -/
theorem CallStep.placed_iff {db db' : Directory} {call : Call} (h : CallStep db call db')
    (hall : ∀ u ∈ db.users, Placed u) : (∀ u ∈ db'.users, Placed u) ↔ call.Places db := by
  have hwrite : ∀ user, Writes db user db' → ((∀ u ∈ db'.users, Placed u) ↔ Placed user) := by
    rintro user ⟨hmem,hothers⟩
    constructor
    · intro hall'
      exact hall' user hmem
    · intro hplaced u hu
      rcases hothers u hu with rfl | hold
      · exact hplaced
      · exact hall u hold
  cases call with
  | createTenant id =>
    obtain rfl := Except.ok.inj h
    exact iff_of_true hall trivial
  | getOrCreateUser id principal =>
    obtain ⟨p,hp,rfl⟩ : ∃ p, getOrCreateUser db id principal = .ok p ∧ p.1 = db' :=
      map_eq_ok.mp h
    obtain ⟨user,hw,hiff⟩ := writes_getOrCreateUser hp
    exact (hwrite user hw).trans hiff
  | setUserTenant userId tenantId =>
    obtain ⟨p,hp,rfl⟩ : ∃ p, setUserTenant db userId tenantId = .ok p ∧ p.1 = db' :=
      map_eq_ok.mp h
    obtain ⟨user,hw,htenant⟩ := writes_setUserTenant hp
    exact (hwrite user hw).trans (iff_of_true (.inr (by simp [htenant])) trivial)

/-- At every moment of a run every user sees the connections of its own tenant only, exactly
when every login of the run places its user. -/
theorem connections_private_iff {tr : List (Transition Directory Call)} {db : Directory}
    (h : Path CallStep .empty tr db) :
    (∀ tr₁ db₁, tr₁ <+: tr → Path CallStep .empty tr₁ db₁ → ∀ u ∈ db₁.users, SeesOwn u) ↔
      ∀ x ∈ tr, x.2.1.Places x.1 := by
  simp only [seesOwn_iff]
  apply Path.always_iff_guard (P := fun _ db => ∀ u ∈ db.users, Placed u)
    (G := fun db call => Call.Places db call) _ _ h
  · simp [Directory.empty]
  · intro tr db call db' _ hall hs
    exact hs.placed_iff hall

def acmePage : ChannelConnection := ⟨7,1,.facebook,.active,none,none,[("page_id","p1")]⟩

def newcomer : Principal := ⟨"auth0|newtenant","t@x.com",none,.tenant⟩

/-- Before it is onboarded a new tenant user is shown the connection of another tenant. -/
theorem newcomer_sees_acmePage :
    ∃ db, Reachable CallStep .empty db ∧ ∃ u ∈ db.users, ¬ SeesOwn u ∧
      u.role ≠ .platformAdmin ∧ u.tenantId ≠ some acmePage.tenantId ∧
      getConnectionStatus [acmePage] acmePage.id u =
        .ok ⟨7,.facebook,.active,[("page_id","p1")],none⟩ := by
  have hcreate : CallStep .empty (.createTenant 1) ⟨[1],[]⟩ := rfl
  have hlogin : CallStep ⟨[1],[]⟩ (.getOrCreateUser 9 newcomer) ⟨[1],[newUser 9 newcomer]⟩ := rfl
  refine ⟨_,(Reachable.refl.tail hcreate).tail hlogin,newUser 9 newcomer,by simp,?_,by decide,
    by decide,rfl⟩
  intro hsees
  rcases hsees [acmePage] 7 acmePage _ rfl rfl with hadmin | howner
  · cases hadmin
  · cases howner

def platformOwner : Principal := ⟨"auth0|admin","p@x.com",none,.platformAdmin⟩

def acmeOwner : Principal := ⟨"auth0|acme","a@x.com",some 1,.tenant⟩

def placedLogins : List (Transition Directory Call) :=
  [(.empty,.createTenant 1,⟨[1],[]⟩),
    (⟨[1],[]⟩,.getOrCreateUser 9 platformOwner,⟨[1],[newUser 9 platformOwner]⟩),
    (⟨[1],[newUser 9 platformOwner]⟩,.getOrCreateUser 8 acmeOwner,
      ⟨[1],[newUser 9 platformOwner,newUser 8 acmeOwner]⟩)]

theorem placedLogins_private :
    (∀ x ∈ placedLogins, x.2.1.Places x.1) ∧
      ∀ tr₁ db₁, tr₁ <+: placedLogins → Path CallStep .empty tr₁ db₁ →
        ∀ u ∈ db₁.users, SeesOwn u := by
  have hcreate : CallStep .empty (.createTenant 1) ⟨[1],[]⟩ := rfl
  have hadmin : CallStep ⟨[1],[]⟩ (.getOrCreateUser 9 platformOwner)
    ⟨[1],[newUser 9 platformOwner]⟩ := rfl
  have howner : CallStep ⟨[1],[newUser 9 platformOwner]⟩ (.getOrCreateUser 8 acmeOwner)
    ⟨[1],[newUser 9 platformOwner,newUser 8 acmeOwner]⟩ := rfl
  have hpath : Path CallStep .empty placedLogins
      ⟨[1],[newUser 9 platformOwner,newUser 8 acmeOwner]⟩ :=
    ((Path.nil.snoc hcreate).snoc hadmin).snoc howner
  have hplaces : ∀ x ∈ placedLogins, x.2.1.Places x.1 := by
    intro x hx
    simp only [placedLogins,List.mem_cons,List.not_mem_nil,or_false] at hx
    obtain rfl | rfl | rfl := hx
    · trivial
    · exact .inl rfl
    · exact .inr (.inl (by simp [acmeOwner]))
  exact ⟨hplaces,(connections_private_iff hpath).mpr hplaces⟩

end Accounts
end LeadEngine
