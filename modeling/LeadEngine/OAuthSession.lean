import LeadEngine.ConnectFailure
import LeadEngine.Routing
import LeadEngine.UnitOfWork

/-! The code exchanges in the session of their request: each adds a row for every account between
calls that may fail, and commits at the end. The session is closed after the request, so that
what is not committed is gone. -/
namespace LeadEngine
namespace OAuth

open Fallible Interpreter Channels UnitOfWork
open Routing (answered)

inductive ConnectError
  | exchange (err : ExchangeError)
  | integrityError
  deriving DecidableEq

/-- The insert of a row at a flush: its tenant exists and its id is new. -/
def insertConnection (tenants : List UUID) (c : ChannelConnection)
    (table : List ChannelConnection) : Except ConnectError (List ChannelConnection) :=
  if c.tenantId ∈ tenants ∧ ∀ r ∈ table, r.id ≠ c.id then .ok (table ++ [c])
  else .error .integrityError

abbrev ConnectScript :=
  Script (List ChannelConnection) ChannelConnection ConnectError (List ChannelConnection)

def tryThen {α : Type} (x : Except ExchangeError α) (next : α → ConnectScript) : ConnectScript :=
  match x with
  | .error err => .raise (.exchange err)
  | .ok a => next a

section Scripts

variable (env : OAuthEnv) (tenantId : UUID) (draws : ℕ → Draw)

def pageScript (page : PageVisit) (connections : List ChannelConnection)
    (next : List ChannelConnection → ConnectScript) : ConnectScript :=
  match page.id,page.accessToken with
  | some pageId,some token =>
    tryThen (graph page.subscribePageWebhooks) fun _ =>
    tryThen (sealCredentials env (draws connections.length)
      [("page_access_token",.str token),("page_id",.str pageId)]) fun blob =>
    let facebook := facebookConnection tenantId (draws connections.length) pageId
      (page.name.getD "") blob
    .add facebook <| tryThen (graph page.fetchConnectedIgAccount) fun linked =>
      match truthy linked with
      | none => next (connections ++ [facebook])
      | some igAccountId =>
        tryThen (graph page.subscribeIgViaPageToken) fun _ =>
        tryThen (sealCredentials env (draws (connections.length+1))
          [("page_access_token",.str token),("ig_account_id",.str igAccountId)]) fun igBlob =>
        let instagram := pageInstagramConnection tenantId (draws (connections.length+1))
          igAccountId igBlob
        .add instagram (next (connections ++ [facebook,instagram]))
  | _,_ => .raise (.exchange .keyError)

def pagesScript : List PageVisit → List ChannelConnection → ConnectScript
  | [],connections => .commit connections
  | page :: rest,connections => pageScript env tenantId draws page connections (pagesScript rest)

def phonesScript (token wabaId : String) (next : List ChannelConnection → ConnectScript) :
    List PhoneEntry → List ChannelConnection → ConnectScript
  | [],connections => next connections
  | phone :: rest,connections =>
    match phone.id with
    | none => .raise (.exchange .keyError)
    | some phoneNumberId =>
      tryThen (sealCredentials env (draws connections.length) [("access_token",.str token),
        ("phone_number_id",.str phoneNumberId),("waba_id",.str wabaId)]) fun blob =>
      let conn := whatsappConnection tenantId (draws connections.length) wabaId phoneNumberId
        (phone.displayPhoneNumber.getD "") blob
      .add conn (phonesScript token wabaId next rest (connections ++ [conn]))

/-- Without a connection nothing is committed. -/
def wabasScript (token : String) (visit : String → WabaVisit) :
    List String → List ChannelConnection → ConnectScript
  | [],connections => if connections = [] then .finish connections else .commit connections
  | wabaId :: rest,connections =>
    tryThen (graph (visit wabaId).subscribeWaba) fun _ =>
    tryThen (graph (visit wabaId).phoneNumbers) fun phones =>
    phonesScript env tenantId draws token wabaId (wabasScript token visit rest) phones connections

end Scripts

section Exchanges

variable (env : OAuthEnv)

def whatsappSignupScript (draws : ℕ → Draw) (tenantId : UUID) (answers : WhatsappAnswers) :
    ConnectScript :=
  tryThen (graph answers.token) fun token =>
  tryThen (graph answers.granularScopes) fun scopes =>
  wabasScript env tenantId draws token answers.visit (wabaIds scopes) []

variable [Interpreter]

def facebookCodeScript (draws : ℕ → Draw) (state : String) (answers : FacebookAnswers) :
    ConnectScript :=
  tryThen (stateTenant env env.metaAppSecret state) fun tenantId =>
  tryThen (graph answers.shortLived) fun _ =>
  tryThen (graph answers.longLived) fun _ =>
  tryThen (graph answers.pageAccounts) fun accounts =>
  if accounts = [] then .raise (.exchange .channelApi)
  else pagesScript env tenantId draws accounts []

def instagramCodeScript (draw : Draw) (now : Time) (state : String) (answers : InstagramAnswers) :
    ConnectScript :=
  tryThen (stateTenant env env.metaIgAppSecret state) fun tenantId =>
  tryThen (graph answers.shortLived) fun _ =>
  tryThen (graph answers.longLived) fun longLived =>
  tryThen (graph answers.account) fun account =>
  tryThen (graph answers.subscribe) fun _ =>
  tryThen (expiryAfter now longLived.2) fun expiresAt =>
  tryThen (sealCredentials env draw [("access_token",.str longLived.1),
    ("ig_user_id",.str account.1),("username",.str account.2)]) fun blob =>
  let conn := instagramConnection tenantId draw account.1 account.2 expiresAt blob
  .add conn (.commit [conn])

end Exchanges

section Running

variable {insert : ChannelConnection → List ChannelConnection →
  Except ConnectError (List ChannelConnection)}
  {s : Session (List ChannelConnection) ChannelConnection} {env : OAuthEnv} {t : UUID}
  {draws : ℕ → Draw}

/-- A part of a script in front of the rest: it raises with some of its rows pending, or the rest
runs with all of them pending. No statement is sent before that. -/
inductive Ran (insert : ChannelConnection → List ChannelConnection →
    Except ConnectError (List ChannelConnection))
    (s : Session (List ChannelConnection) ChannelConnection)
    (x : Except ExchangeError (List ChannelConnection))
    (next : List ChannelConnection → ConnectScript) :
    Except (Failure ConnectError) (List ChannelConnection) ×
      Session (List ChannelConnection) ChannelConnection → Prop
  | raised (err : ExchangeError) (rows : List ChannelConnection) (hx : x = .error err) :
      Ran insert s x next
        (.error (.raised (.exchange err)),{ s with pending := s.pending ++ rows })
  | added (rows : List ChannelConnection) (hx : x = .ok rows) :
      Ran insert s x next ((next rows).exec insert { s with pending := s.pending ++ rows })

theorem Ran.raise {x : Except ExchangeError (List ChannelConnection)}
    {next : List ChannelConnection → ConnectScript} {err : ExchangeError} (hx : x = .error err) :
    Ran insert s x next ((Script.raise (.exchange err) : ConnectScript).exec insert s) := by
  have hran : Ran insert s x next _ := .raised err [] hx
  rwa [List.append_nil] at hran

theorem Ran.skip {x : Except ExchangeError (List ChannelConnection)}
    {next : List ChannelConnection → ConnectScript} (hx : x = .ok []) :
    Ran insert s x next ((next []).exec insert s) := by
  have hran : Ran insert s x next _ := .added [] hx
  rwa [List.append_nil] at hran

/-- A first part and then another, whose rows follow. -/
theorem Ran.andThen {x y : Except ExchangeError (List ChannelConnection)}
    {part next : List ChannelConnection → ConnectScript}
    {r : Except (Failure ConnectError) (List ChannelConnection) ×
      Session (List ChannelConnection) ChannelConnection} (h : Ran insert s x part r)
    (first : List ChannelConnection → Except ExchangeError (List ChannelConnection))
    (hy : y = x.bind fun rows => (first rows).map (rows ++ ·))
    (hpart : ∀ rows, Ran insert { s with pending := s.pending ++ rows } (first rows)
      (fun more => next (rows ++ more))
      ((part rows).exec insert { s with pending := s.pending ++ rows })) :
    Ran insert s y next r := by
  cases h with
  | raised err rows hx =>
    rw [hx] at hy
    exact .raised err rows hy
  | added rows hx =>
    rw [hx] at hy
    have hrest := hpart rows
    generalize (part rows).exec insert { s with pending := s.pending ++ rows } = r at hrest
    cases hrest with
    | raised err more hmore =>
      rw [List.append_assoc]
      exact .raised err (rows ++ more) (by rw [hy]; simp [Except.bind,hmore,Except.map])
    | added more hmore =>
      rw [List.append_assoc]
      exact .added (rows ++ more) (by rw [hy]; simp [Except.bind,hmore,Except.map])

theorem pageScript_ran (page : PageVisit) (connections : List ChannelConnection)
    (next : List ChannelConnection → ConnectScript) :
    Ran insert s (pageConnections env t draws connections.length page)
      (fun rows => next (connections ++ rows))
      ((pageScript env t draws page connections next).exec insert s) := by
  cases hid : page.id with
  | none =>
    simp only [pageScript,pageConnections,hid]
    exact .raise rfl
  | some pageId =>
    cases htoken : page.accessToken with
    | none =>
      simp only [pageScript,pageConnections,hid,htoken]
      exact .raise rfl
    | some token =>
      simp only [pageScript,pageConnections,hid,htoken,tryThen]
      cases graph page.subscribePageWebhooks with
      | error err => exact .raise rfl
      | ok _ =>
        dsimp only
        cases sealCredentials env (draws connections.length)
          [("page_access_token",.str token),("page_id",.str pageId)] with
        | error err => exact .raise rfl
        | ok blob =>
          simp only [Script.exec]
          cases graph page.fetchConnectedIgAccount with
          | error err => exact .raised err _ rfl
          | ok linked =>
            dsimp only
            cases truthy linked with
            | none => exact .added _ rfl
            | some ig =>
              dsimp only
              cases graph page.subscribeIgViaPageToken with
              | error err => exact .raised err _ rfl
              | ok _ =>
                dsimp only
                cases sealCredentials env (draws (connections.length+1))
                  [("page_access_token",.str token),("ig_account_id",.str ig)] with
                | error err => exact .raised err _ rfl
                | ok igBlob =>
                  simp only [Script.exec,List.append_assoc]
                  exact .added _ rfl

theorem graph_error {α : Type} {answer : Except Unit α} {err : ExchangeError}
    (h : graph answer = .error err) : err = .channelApi := by
  cases answer with
  | error _ => exact (Except.error.inj h).symm
  | ok a => cases h

theorem pagesScript_ran (pages : List PageVisit) (connections : List ChannelConnection) :
    Ran insert s (connectPages env t draws connections.length pages)
      (fun rows => .commit (connections ++ rows))
      ((pagesScript env t draws pages connections).exec insert s) := by
  induction pages generalizing connections s with
  | nil =>
    have hran : Ran insert s _ (fun rows => .commit (connections ++ rows)) _ := .skip rfl
    rwa [List.append_nil] at hran
  | cons page rest ih =>
    refine (pageScript_ran page connections _).andThen
      (fun rows => connectPages env t draws (connections.length + rows.length) rest)
      ?_ fun rows => ?_
    · rw [connectPages]
      cases pageConnections env t draws connections.length page with
      | error err => rfl
      | ok rows =>
        simp only [Except.bind]
        cases connectPages env t draws (connections.length + rows.length) rest <;> rfl
    · have hran := ih (s := { s with pending := s.pending ++ rows }) (connections ++ rows)
      rw [List.length_append] at hran
      simpa only [List.append_assoc] using hran

theorem phonesScript_ran {token wabaId : String} (next : List ChannelConnection → ConnectScript)
    (phones : List PhoneEntry) (connections : List ChannelConnection) :
    Ran insert s (connectPhones env t draws token wabaId connections.length phones)
      (fun rows => next (connections ++ rows))
      ((phonesScript env t draws token wabaId next phones connections).exec insert s) := by
  induction phones generalizing connections s with
  | nil =>
    have hran : Ran insert s _ (fun rows => next (connections ++ rows)) _ := .skip rfl
    rwa [List.append_nil] at hran
  | cons phone rest ih =>
    rw [phonesScript,connectPhones]
    cases phone.id with
    | none => exact .raise rfl
    | some phoneNumberId =>
      simp only [tryThen]
      cases sealCredentials env (draws connections.length) [("access_token",.str token),
        ("phone_number_id",.str phoneNumberId),("waba_id",.str wabaId)] with
      | error err => exact .raise rfl
      | ok blob =>
        dsimp only
        generalize whatsappConnection t (draws connections.length) wabaId phoneNumberId
          (phone.displayPhoneNumber.getD "") blob = conn
        have hfirst : Ran insert s (.ok [conn])
          (fun rows => phonesScript env t draws token wabaId next rest (connections ++ rows)) _ :=
          .added [conn] rfl
        refine hfirst.andThen
          (fun rows =>
            connectPhones env t draws token wabaId (connections.length + rows.length) rest)
          ?_ fun rows => ?_
        · simp only [Except.bind,List.length_singleton]
          cases connectPhones env t draws token wabaId (connections.length + 1) rest <;> rfl
        · have hran := ih (s := { s with pending := s.pending ++ rows }) (connections ++ rows)
          rw [List.length_append] at hran
          simpa only [List.append_assoc] using hran

def commitRows (rows : List ChannelConnection) : ConnectScript :=
  if rows = [] then .finish rows else .commit rows

theorem wabasScript_ran {token : String} {visit : String → WabaVisit} (ids : List String)
    (connections : List ChannelConnection) :
    Ran insert s (connectWabas env t draws token visit connections.length ids)
      (fun rows => commitRows (connections ++ rows))
      ((wabasScript env t draws token visit ids connections).exec insert s) := by
  induction ids generalizing connections s with
  | nil =>
    have hran : Ran insert s _ (fun rows => commitRows (connections ++ rows)) _ := .skip rfl
    rwa [List.append_nil] at hran
  | cons wabaId rest ih =>
    rw [wabasScript,connectWabas]
    cases hsubscribe : graph (visit wabaId).subscribeWaba with
    | error err => exact .raise (by rw [graph_error hsubscribe])
    | ok _ =>
      cases hphones : graph (visit wabaId).phoneNumbers with
      | error err => exact .raise (by rw [graph_error hphones])
      | ok phones =>
        simp only [tryThen]
        refine (phonesScript_ran (wabasScript env t draws token visit rest) phones
          connections).andThen
          (fun rows =>
            connectWabas env t draws token visit (connections.length + rows.length) rest)
          ?_ fun rows => ?_
        · cases connectPhones env t draws token wabaId connections.length phones with
          | error err => rfl
          | ok rows =>
            simp only [Except.bind]
            cases connectWabas env t draws token visit (connections.length + rows.length) rest <;>
              rfl
        · have hran := ih (s := { s with pending := s.pending ++ rows }) (connections ++ rows)
          rw [List.length_append] at hran
          simpa only [List.append_assoc] using hran

end Running

section Exchanges

variable {insert : ChannelConnection → List ChannelConnection →
  Except ConnectError (List ChannelConnection)}
  {s : Session (List ChannelConnection) ChannelConnection} {env : OAuthEnv}
  (table : List ChannelConnection)

theorem whatsappSignupScript_ran {draws : ℕ → Draw} {t : UUID} {answers : WhatsappAnswers} :
    Ran insert s ((exchangeWhatsappSignupCode env table draws t answers).map Prod.snd) commitRows
      ((whatsappSignupScript env draws t answers).exec insert s) := by
  unfold whatsappSignupScript exchangeWhatsappSignupCode
  cases htoken : graph answers.token with
  | error err => exact .raise (by rw [graph_error htoken]; rfl)
  | ok token =>
    cases hscopes : graph answers.granularScopes with
    | error err => exact .raise (by rw [graph_error hscopes]; rfl)
    | ok scopes =>
      simp only [tryThen]
      have hran : Ran insert s _ _ ((wabasScript env t draws token answers.visit
        (wabaIds scopes) []).exec insert s) := wabasScript_ran (wabaIds scopes) []
      simp only [List.nil_append,List.length_nil] at hran
      cases hrows : connectWabas env t draws token answers.visit 0 (wabaIds scopes) <;>
        rwa [hrows] at hran

variable [Interpreter]

theorem facebookCodeScript_ran {draws : ℕ → Draw} {state : String} {answers : FacebookAnswers} :
    Ran insert s ((exchangeFacebookCode env table draws state answers).map Prod.snd) .commit
      ((facebookCodeScript env draws state answers).exec insert s) := by
  unfold facebookCodeScript exchangeFacebookCode
  cases stateTenant env env.metaAppSecret state with
  | error err => exact .raise rfl
  | ok t =>
    cases hshort : graph answers.shortLived with
    | error err => exact .raise (by rw [graph_error hshort]; rfl)
    | ok _ =>
      cases hlong : graph answers.longLived with
      | error err => exact .raise (by rw [graph_error hlong]; rfl)
      | ok _ =>
        cases hpages : graph answers.pageAccounts with
        | error err => exact .raise (by rw [graph_error hpages]; rfl)
        | ok accounts =>
          simp only [tryThen]
          split_ifs
          · exact .raise rfl
          · have hran : Ran insert s _ _ ((pagesScript env t draws accounts []).exec insert s) :=
              pagesScript_ran accounts []
            simp only [List.nil_append,List.length_nil] at hran
            cases hrows : connectPages env t draws 0 accounts <;> rwa [hrows] at hran

theorem instagramCodeScript_ran {draw : Draw} {now : Time} {state : String}
    {answers : InstagramAnswers} :
    Ran insert s ((exchangeInstagramCode env table draw now state answers).map fun r => [r.2])
      .commit ((instagramCodeScript env draw now state answers).exec insert s) := by
  unfold instagramCodeScript exchangeInstagramCode
  cases stateTenant env env.metaIgAppSecret state with
  | error err => exact .raise rfl
  | ok t =>
    cases hshort : graph answers.shortLived with
    | error err => exact .raise (by rw [graph_error hshort]; rfl)
    | ok _ =>
      cases hlong : graph answers.longLived with
      | error err => exact .raise (by rw [graph_error hlong]; rfl)
      | ok longLived =>
        cases haccount : graph answers.account with
        | error err => exact .raise (by rw [graph_error haccount]; rfl)
        | ok account =>
          cases hsubscribe : graph answers.subscribe with
          | error err => exact .raise (by rw [graph_error hsubscribe]; rfl)
          | ok _ =>
            simp only [tryThen]
            cases expiryAfter now longLived.2 with
            | error err => exact .raise rfl
            | ok expiresAt =>
              dsimp only
              cases sealCredentials env draw [("access_token",.str longLived.1),
                ("ig_user_id",.str account.1),("username",.str account.2)] with
              | error err => exact .raise rfl
              | ok blob => exact .added _ rfl

end Exchanges

section Rows

structure Account where
  channelType : ChannelType
  tenantId : UUID
  connectionMetadata : List (String × String)
  deriving DecidableEq

def accountOf (c : ChannelConnection) : Account := ⟨c.channelType,c.tenantId,c.connectionMetadata⟩

/-- One active row with credentials for each account, in order, with the ids that are drawn from the
`n`-th on. -/
structure Connects (draws : ℕ → Draw) (n : ℕ) (rows : List ChannelConnection)
    (accounts : List Account) : Prop where
  accounts : rows.map accountOf = accounts
  usable : ∀ r ∈ rows, r.status = .active ∧ r.credentialsEncrypted.isSome
  ids : rows.map ChannelConnection.id = (List.range' n rows.length).map fun i => (draws i).id

def pageAccounts (tenantId : UUID) (page : PageVisit) : List Account :=
  ⟨.facebook,tenantId,[("page_id",page.id.getD ""),("page_name",page.name.getD "")]⟩ ::
    (truthy (answered page.fetchConnectedIgAccount none)).toList.map
      fun igAccountId => ⟨.instagram,tenantId,[("ig_account_id",igAccountId)]⟩

def phoneAccount (tenantId : UUID) (wabaId : String) (phone : PhoneEntry) : Account :=
  ⟨.whatsapp,tenantId,[("phone_number_id",phone.id.getD ""),
    ("display_phone_number",phone.displayPhoneNumber.getD ""),("waba_id",wabaId)]⟩

variable {env : OAuthEnv} {t : UUID} {draws : ℕ → Draw} {n : ℕ} {rows : List ChannelConnection}

theorem Connects.append {rows' : List ChannelConnection} {as as' : List Account}
    (h : Connects draws n rows as) (h' : Connects draws (n + rows.length) rows' as') :
    Connects draws n (rows ++ rows') (as ++ as') where
  accounts := by rw [List.map_append,h.accounts,h'.accounts]
  usable r hr := (List.mem_append.mp hr).elim (h.usable r) (h'.usable r)
  ids := by
    rw [List.map_append,h.ids,h'.ids,List.length_append,← List.map_append,
      List.range'_append_1]

theorem connects_nil : Connects draws n [] [] := ⟨rfl,by simp,rfl⟩

theorem connects_page {page : PageVisit} (h : pageConnections env t draws n page = .ok rows) :
    Connects draws n rows (pageAccounts t page) := by
  obtain ⟨pageId,blob,linked,hid,hlinked,⟨hnone,rfl⟩ | ⟨ig,igBlob,hsome,rfl⟩⟩ :=
    pageConnections_ok h
  · constructor
    · simp [pageAccounts,hid,answered,hlinked,Except.toOption,hnone,accountOf,facebookConnection]
    · simp [facebookConnection]
    · simp [facebookConnection]
  · constructor
    · simp [pageAccounts,hid,answered,hlinked,Except.toOption,hsome,accountOf,facebookConnection,
        pageInstagramConnection]
    · simp [facebookConnection,pageInstagramConnection]
    · simp [facebookConnection,pageInstagramConnection,List.range'_succ]

theorem connects_pages (pages : List PageVisit) (h : connectPages env t draws n pages = .ok rows) :
    Connects draws n rows (pages.flatMap (pageAccounts t)) := by
  induction pages generalizing n rows with
  | nil =>
    obtain rfl := Except.ok.inj h
    exact connects_nil
  | cons page rest ih =>
    obtain ⟨first,more,hfirst,hmore,rfl⟩ := connectPages_cons h
    exact (connects_page hfirst).append (ih hmore)

theorem connectPhones_cons {token wabaId : String} {phone : PhoneEntry} {rest : List PhoneEntry}
    (h : connectPhones env t draws token wabaId n (phone :: rest) = .ok rows) :
    ∃ phoneNumberId blob more, phone.id = some phoneNumberId ∧
      connectPhones env t draws token wabaId (n+1) rest = .ok more ∧
      rows = whatsappConnection t (draws n) wabaId phoneNumberId
        (phone.displayPhoneNumber.getD "") blob :: more := by
  rw [connectPhones] at h
  split at h
  · cases h
  · rename_i phoneNumberId hid
    split at h
    · cases h
    · rename_i blob _
      split at h
      · cases h
      · rename_i more hmore
        exact ⟨phoneNumberId,blob,more,hid,hmore,(Except.ok.inj h).symm⟩

theorem connects_phones {token wabaId : String} (phones : List PhoneEntry)
    (h : connectPhones env t draws token wabaId n phones = .ok rows) :
    Connects draws n rows (phones.map (phoneAccount t wabaId)) := by
  induction phones generalizing n rows with
  | nil =>
    obtain rfl := Except.ok.inj h
    exact connects_nil
  | cons phone rest ih =>
    obtain ⟨phoneNumberId,blob,more,hid,hmore,rfl⟩ := connectPhones_cons h
    have hfirst : Connects draws n [whatsappConnection t (draws n) wabaId phoneNumberId
        (phone.displayPhoneNumber.getD "") blob] [phoneAccount t wabaId phone] :=
      ⟨by simp [accountOf,phoneAccount,hid,whatsappConnection],by simp [whatsappConnection],
        by simp [whatsappConnection]⟩
    exact hfirst.append (ih hmore)

theorem connectWabas_cons {token wabaId : String} {visit : String → WabaVisit}
    {rest : List String} (h : connectWabas env t draws token visit n (wabaId :: rest) = .ok rows) :
    ∃ phones first more, (visit wabaId).phoneNumbers = .ok phones ∧
      connectPhones env t draws token wabaId n phones = .ok first ∧
      connectWabas env t draws token visit (n + first.length) rest = .ok more ∧
      rows = first ++ more := by
  rw [connectWabas] at h
  split at h
  · rename_i phones _ hphones
    split at h
    · cases h
    · rename_i first hfirst
      split at h
      · cases h
      · rename_i more hmore
        exact ⟨phones,first,more,graph_eq_ok.mp hphones,hfirst,hmore,(Except.ok.inj h).symm⟩
  · cases h

theorem connects_wabas {token : String} {visit : String → WabaVisit} (ids : List String)
    (h : connectWabas env t draws token visit n ids = .ok rows) :
    Connects draws n rows (ids.flatMap fun wabaId =>
      (answered (visit wabaId).phoneNumbers []).map (phoneAccount t wabaId)) := by
  induction ids generalizing n rows with
  | nil =>
    obtain rfl := Except.ok.inj h
    exact connects_nil
  | cons wabaId rest ih =>
    obtain ⟨phones,first,more,hphones,hfirst,hmore,rfl⟩ := connectWabas_cons h
    rw [List.flatMap_cons,answered,hphones]
    exact (connects_phones phones hfirst).append (ih hmore)

theorem nodup_eraseDups {α : Type} [DecidableEq α] (as : List α) : as.eraseDups.Nodup := by
  induction hn : as.length using Nat.strong_induction_on generalizing as with
  | _ n ih =>
    cases as with
    | nil => simp
    | cons a as =>
      rw [List.eraseDups_cons,List.nodup_cons]
      refine ⟨by simp,ih _ ?_ _ rfl⟩
      rw [← hn,List.length_cons]
      exact Nat.lt_succ_of_le (List.length_filter_le ..)

theorem mem_wabaIds {scopes : List GranularScope} {wabaId : String} :
    wabaId ∈ wabaIds scopes ↔
      ∃ g ∈ scopes, "whatsapp".toList <:+: g.scope.toList ∧ wabaId ∈ g.targetIds := by
  rw [wabaIds,List.mem_eraseDups,List.mem_flatMap]
  simp only [List.mem_filter,decide_eq_true_eq,and_assoc]

end Rows

section Atomic

/-- The rows can be inserted: their tenants exist, and their ids are new and differ. -/
structure Insertable (tenants : List UUID) (table rows : List ChannelConnection) : Prop where
  tenant : ∀ r ∈ rows, r.tenantId ∈ tenants
  distinct : (rows.map ChannelConnection.id).Nodup
  new : ∀ r ∈ rows, ∀ x ∈ table, x.id ≠ r.id

/-- What a request found when it connected accounts: its tenants and connections, the database step
that is lost, the rows it is to write and the failures of its exchange. -/
structure Setting where
  tenants : List UUID
  table : List ChannelConnection
  faultIn : Option ℕ
  Rows : List ChannelConnection → Prop
  Fails : ExchangeError → Prop

/-- Why a request raised. -/
inductive Cause (setting : Setting) : Failure ConnectError → Prop
  | exchange (err : ExchangeError) (h : setting.Fails err) : Cause setting (.raised (.exchange err))
  | constraint (rows : List ChannelConnection) (hrows : setting.Rows rows)
      (h : ¬ Insertable setting.tenants setting.table rows) :
      Cause setting (.raised .integrityError)
  | lost (h : setting.faultIn ≠ none) : Cause setting .lost

/-- The request raised, for a reason, and the connections are as before; or nothing failed, and it
returned rows, at least one, and committed them once; or nothing failed, and it returned no row and
committed nothing. -/
inductive Atomic (setting : Setting) : Except (Failure ConnectError) (List ChannelConnection) ×
    Session (List ChannelConnection) ChannelConnection → Prop
  | raised (err : Failure ConnectError) (s : Session (List ChannelConnection) ChannelConnection)
      (hcause : Cause setting err) (hcommitted : s.committed = setting.table)
      (hcommits : s.commits = []) : Atomic setting (.error err,s)
  | connected (rows : List ChannelConnection)
      (s : Session (List ChannelConnection) ChannelConnection)
      (hspared : ∀ err, ¬ setting.Fails err) (hrows : setting.Rows rows) (hsome : rows ≠ [])
      (hcommitted : s.committed = setting.table ++ rows)
      (hcommits : s.commits = [setting.table ++ rows]) : Atomic setting (.ok rows,s)
  | none (s : Session (List ChannelConnection) ChannelConnection)
      (hspared : ∀ err, ¬ setting.Fails err) (hrows : setting.Rows [])
      (hcommitted : s.committed = setting.table) (hcommits : s.commits = []) :
      Atomic setting (.ok [],s)

def opened (table : List ChannelConnection) (faultIn : Option ℕ) :
    Session (List ChannelConnection) ChannelConnection :=
  { Session.start table with faultIn := faultIn }

theorem insertEach_connections {tenants : List UUID} (rows : List ChannelConnection)
    {table table' : List ChannelConnection}
    (h : insertEach (insertConnection tenants) rows table = .ok table') :
    table' = table ++ rows := by
  induction rows generalizing table with
  | nil =>
    obtain rfl := Except.ok.inj h
    exact (List.append_nil _).symm
  | cons c rest ih =>
    obtain ⟨w,hw,hrest⟩ := bind_eq_ok.mp h
    unfold insertConnection at hw
    split_ifs at hw
    obtain rfl := Except.ok.inj hw
    rw [ih hrest,List.append_assoc]
    rfl

theorem insertable_of_insertEach {tenants : List UUID} (rows : List ChannelConnection)
    {table : List ChannelConnection} (h : Insertable tenants table rows) :
    ∃ table', insertEach (insertConnection tenants) rows table = .ok table' := by
  induction rows generalizing table with
  | nil => exact ⟨table,rfl⟩
  | cons c rest ih =>
    obtain ⟨hc,hrest⟩ := List.nodup_cons.mp h.distinct
    have hinsert : insertConnection tenants c table = .ok (table ++ [c]) :=
      if_pos ⟨h.tenant c List.mem_cons_self,h.new c List.mem_cons_self⟩
    rw [insertEach,hinsert]
    refine ih ⟨fun r hr => h.tenant r (List.mem_cons_of_mem _ hr),hrest,fun r hr x hx => ?_⟩
    rcases List.mem_append.mp hx with hx | hx
    · exact h.new r (List.mem_cons_of_mem _ hr) x hx
    · obtain rfl := List.mem_singleton.mp hx
      exact fun heq => hc (List.mem_map.mpr ⟨r,hr,heq.symm⟩)

theorem insertConnection_error {tenants : List UUID} {c : ChannelConnection}
    {table : List ChannelConnection} {err : ConnectError}
    (h : insertConnection tenants c table = .error err) : err = .integrityError := by
  unfold insertConnection at h
  split_ifs at h
  exact (Except.error.inj h).symm

theorem insertEach_error {tenants : List UUID} (rows : List ChannelConnection)
    {table : List ChannelConnection} {err : ConnectError}
    (h : insertEach (insertConnection tenants) rows table = .error err) :
    err = .integrityError := by
  induction rows generalizing table with
  | nil => cases h
  | cons c rest ih =>
    rw [insertEach] at h
    cases hinsert : insertConnection tenants c table with
    | error err' =>
      rw [hinsert] at h
      rw [← Except.error.inj h]
      exact insertConnection_error hinsert
    | ok w =>
      rw [hinsert] at h
      exact ih h

variable {setting : Setting} {x : Except ExchangeError (List ChannelConnection)}
  {r : Except (Failure ConnectError) (List ChannelConnection) ×
    Session (List ChannelConnection) ChannelConnection}

/-- The commit of pending rows goes through whole or not at all. -/
theorem atomic_commit {rows : List ChannelConnection} (hspared : ∀ err, ¬ setting.Fails err)
    (hrows : setting.Rows rows) (hsome : rows ≠ []) :
    Atomic setting ((Script.commit rows : ConnectScript).exec (insertConnection setting.tenants)
      { opened setting.table setting.faultIn with pending := rows }) := by
  have hended : Ended { opened setting.table setting.faultIn with pending := rows }
      ((Script.commit rows : ConnectScript).result (insertConnection setting.tenants)
        setting.table rows)
      ((Script.commit rows : ConnectScript).exec (insertConnection setting.tenants) _) :=
    exec_ended _ _ trivial
  have hkept : setting.faultIn = .none → Undisturbed
      ((Script.commit rows : ConnectScript).exec (insertConnection setting.tenants)
        { opened setting.table setting.faultIn with pending := rows }) :=
    fun hfault => undisturbed_exec _ hfault
  generalize (Script.commit rows : ConnectScript).exec _ _ = r at hended hkept
  have hmeaning : ∀ {w : List ChannelConnection × List ChannelConnection},
      (Script.commit rows : ConnectScript).result (insertConnection setting.tenants)
        setting.table rows = .ok w → w = (setting.table ++ rows,rows) := by
    intro w hw
    obtain ⟨table',hinsert,rfl⟩ := map_eq_ok.mp hw
    rw [insertEach_connections rows hinsert]
  cases hended with
  | lost s hs => exact .raised _ s (.lost fun hfault => (hkept hfault).1 rfl) hs.committed hs.commits
  | raised err s hr hs =>
    have herror : insertEach (insertConnection setting.tenants) rows setting.table = .error err := by
      cases hinsert : insertEach (insertConnection setting.tenants) rows setting.table with
      | error err' =>
        rw [Script.result,hinsert] at hr
        rw [Except.error.inj hr]
      | ok w =>
        rw [Script.result,hinsert] at hr
        cases hr
    obtain rfl := insertEach_error rows herror
    refine .raised _ s (.constraint rows hrows fun hok => ?_) hs.committed hs.commits
    obtain ⟨table',hinsert⟩ := insertable_of_insertEach rows hok
    rw [hinsert] at herror
    cases herror
  | finished a s hr =>
    have heq := congrArg Prod.fst (hmeaning hr)
    exact absurd (List.self_eq_append_right.mp heq) hsome
  | committed a s hr _ hcommits =>
    obtain ⟨hcommitted,rfl⟩ := Prod.mk.inj (hmeaning hr)
    exact .connected _ s hspared hrows hsome hcommitted (by rw [hcommits,hcommitted]; rfl)

theorem Ran.atomic
    (h : Ran (insertConnection setting.tenants) (opened setting.table setting.faultIn) x .commit r)
    (hverdict : Verdict setting.Fails x)
    (hrows : ∀ rows, x = .ok rows → setting.Rows rows ∧ rows ≠ []) : Atomic setting r := by
  cases h with
  | raised err rows hx =>
    subst hx
    exact .raised _ _ (.exchange err hverdict.cause) rfl rfl
  | added rows hx =>
    subst hx
    exact atomic_commit hverdict.spared (hrows rows rfl).1 (hrows rows rfl).2

theorem Ran.atomic_of_commitRows
    (h : Ran (insertConnection setting.tenants) (opened setting.table setting.faultIn) x
      commitRows r)
    (hverdict : Verdict setting.Fails x) (hrows : ∀ rows, x = .ok rows → setting.Rows rows) :
    Atomic setting r := by
  cases h with
  | raised err rows hx =>
    subst hx
    exact .raised _ _ (.exchange err hverdict.cause) rfl rfl
  | added rows hx =>
    subst hx
    unfold commitRows
    split_ifs with hnone
    · subst hnone
      exact .none _ hverdict.spared (hrows [] rfl) rfl rfl
    · exact atomic_commit hverdict.spared (hrows rows rfl) hnone

end Atomic

section Main

variable [Interpreter] (env : OAuthEnv)

/-- One row for each page in order and one for each linked Instagram account, for the tenant of the
verified state. -/
def FacebookRows (draws : ℕ → Draw) (state : String) (answers : FacebookAnswers)
    (rows : List ChannelConnection) : Prop :=
  ∃ t pages, stateTenant env env.metaAppSecret state = .ok t ∧ answers.pageAccounts = .ok pages ∧
    pages ≠ [] ∧ Connects draws 0 rows (pages.flatMap (pageAccounts t))

def InstagramRows (draw : Draw) (state : String) (answers : InstagramAnswers)
    (rows : List ChannelConnection) : Prop :=
  ∃ t igAccountId username, stateTenant env env.metaIgAppSecret state = .ok t ∧
    answers.account = .ok (igAccountId,username) ∧ Connects (fun _ => draw) 0 rows
      [⟨.instagram,t,[("ig_account_id",igAccountId),("username",username)]⟩]

/-- One row for each phone number of each distinct business account of the WhatsApp scopes. -/
def WhatsappRows (draws : ℕ → Draw) (tenantId : UUID) (answers : WhatsappAnswers)
    (rows : List ChannelConnection) : Prop :=
  ∃ scopes, ∃ ids : List String, answers.granularScopes = .ok scopes ∧ ids.Nodup ∧
    (∀ wabaId, wabaId ∈ ids ↔
      ∃ g ∈ scopes, "whatsapp".toList <:+: g.scope.toList ∧ wabaId ∈ g.targetIds) ∧
    Connects draws 0 rows (ids.flatMap fun wabaId =>
      (answered (answers.visit wabaId).phoneNumbers []).map (phoneAccount tenantId wabaId))

omit [Interpreter] in
theorem Connects.ne_nil {draws : ℕ → Draw} {n : ℕ} {rows : List ChannelConnection}
    {accounts : List Account} (h : Connects draws n rows accounts) (hsome : accounts ≠ []) : rows ≠ [] := by
  rintro rfl
  exact hsome h.accounts.symm

variable {env}

theorem facebookRows_of_exchange {table table' rows : List ChannelConnection} {draws : ℕ → Draw}
    {state : String} {answers : FacebookAnswers}
    (h : exchangeFacebookCode env table draws state answers = .ok (table',rows)) :
    FacebookRows env draws state answers rows ∧ rows ≠ [] := by
  obtain ⟨t,pages,ht,hpages,hrows,_⟩ := exchangeFacebookCode_ok h
  have hconnects := connects_pages pages hrows
  have hsome : pages ≠ [] := by
    -- an answer without pages is an error of the API
    rintro rfl
    cases hshort : answers.shortLived <;> cases hlong : answers.longLived <;>
      simp [exchangeFacebookCode,ht,hpages,hshort,hlong,graph,Except.mapError] at h
  refine ⟨⟨t,pages,ht,hpages,hsome,hconnects⟩,hconnects.ne_nil ?_⟩
  obtain ⟨page,rest,rfl⟩ := List.exists_cons_of_ne_nil hsome
  simp [pageAccounts]

theorem instagramRows_of_exchange {table table' : List ChannelConnection} {draw : Draw}
    {now : Time} {state : String} {answers : InstagramAnswers} {conn : ChannelConnection}
    (h : exchangeInstagramCode env table draw now state answers = .ok (table',conn)) :
    InstagramRows env draw state answers [conn] := by
  obtain ⟨t,igAccountId,username,expiresAt,blob,ht,haccount,rfl,_⟩ := exchangeInstagramCode_ok h
  exact ⟨t,igAccountId,username,ht,haccount,rfl,by simp [instagramConnection],
    by simp [instagramConnection]⟩

omit [Interpreter] in
theorem whatsappRows_of_exchange {table table' rows : List ChannelConnection} {draws : ℕ → Draw}
    {t : UUID} {answers : WhatsappAnswers}
    (h : exchangeWhatsappSignupCode env table draws t answers = .ok (table',rows)) :
    WhatsappRows draws t answers rows := by
  obtain ⟨token,scopes,hscopes,hrows,_⟩ := exchangeWhatsappSignupCode_ok h
  exact ⟨scopes,wabaIds scopes,hscopes,nodup_eraseDups _,fun _ => mem_wabaIds,
    connects_wabas (wabaIds scopes) hrows⟩

variable (env)

/-- Every exchange is atomic and complete: it raises only for a failed call, a missing key, a refused
state or expiry, a key that seals nothing, a constraint or a lost step of the database, and then
leaves the connections as they were; and where nothing fails it commits its rows. -/
theorem connecting_atomic (tenants : List UUID) (table : List ChannelConnection)
    (faultIn : Option ℕ) :
    (∀ draws state answers, Atomic
      ⟨tenants,table,faultIn,FacebookRows env draws state answers,FacebookFailure env state answers⟩
      ((facebookCodeScript env draws state answers).exec (insertConnection tenants)
        (opened table faultIn))) ∧
    (∀ draw now state answers, Atomic
      ⟨tenants,table,faultIn,InstagramRows env draw state answers,
        InstagramFailure env now state answers⟩
      ((instagramCodeScript env draw now state answers).exec (insertConnection tenants)
        (opened table faultIn))) ∧
    ∀ draws tenantId answers, Atomic
      ⟨tenants,table,faultIn,WhatsappRows draws tenantId answers,WhatsappFailure env answers⟩
      ((whatsappSignupScript env draws tenantId answers).exec (insertConnection tenants)
        (opened table faultIn)) := by
  refine ⟨fun draws state answers => ?_,fun draw now state answers => ?_,
    fun draws tenantId answers => ?_⟩
  · have hran : Ran (insertConnection tenants) (opened table faultIn) _ _
      ((facebookCodeScript env draws state answers).exec _ _) := facebookCodeScript_ran table
    refine @Ran.atomic ⟨tenants,table,faultIn,_,_⟩ _ _ hran
      ((exchangeFacebookCode_verdict state answers).map _) fun rows hx => ?_
    obtain ⟨⟨_,_⟩,hexchange,rfl⟩ := map_eq_ok.mp hx
    exact facebookRows_of_exchange hexchange
  · have hran : Ran (insertConnection tenants) (opened table faultIn) _ _
      ((instagramCodeScript env draw now state answers).exec _ _) := instagramCodeScript_ran table
    refine @Ran.atomic ⟨tenants,table,faultIn,_,_⟩ _ _ hran
      ((exchangeInstagramCode_verdict draw now state answers).map _) fun rows hx => ?_
    obtain ⟨⟨_,_⟩,hexchange,rfl⟩ := map_eq_ok.mp hx
    exact ⟨instagramRows_of_exchange hexchange,by simp⟩
  · have hran : Ran (insertConnection tenants) (opened table faultIn) _ _
      ((whatsappSignupScript env draws tenantId answers).exec _ _) := whatsappSignupScript_ran table
    refine @Ran.atomic_of_commitRows ⟨tenants,table,faultIn,_,_⟩ _ _ hran
      ((exchangeWhatsappSignupCode_verdict answers).map _) fun rows hx => ?_
    obtain ⟨⟨_,_⟩,hexchange,rfl⟩ := map_eq_ok.mp hx
    exact whatsappRows_of_exchange hexchange

end Main

/-- The state of tenant 1 verifies, and a key of 32 bytes is configured. -/
def shopEnv : OAuthEnv where
  verifyState _ _ := .ok [("tenant_id",.str "1")]
  parseUuid _ := some 1
  metaAppSecret := "secret"
  metaIgAppSecret := "ig secret"
  aes := ⟨fun _ => .ok (List.replicate 32 0),fun _ _ plain => plain,fun _ _ blob => .ok blob,
    fun _ => [1],fun _ => .ok []⟩
  encryptionKey := "key"

def shopAnswers : FacebookAnswers :=
  ⟨.ok "short",.ok "long",.ok
    [⟨some "p1",some "Shop",some "token",.ok (),.ok (some "ig1"),.ok ()⟩,
      ⟨some "p2",some "Outlet",some "token 2",.ok (),.ok none,.ok ()⟩]⟩

/-- Both pages and the linked account are committed, once. -/
theorem shop_connected :
    letI := Interpreter.ascii id
    let r := (facebookCodeScript shopEnv (fun n => ⟨n,[]⟩) "state" shopAnswers).exec
      (insertConnection [1]) (opened [] none)
    ∃ rows, r.1 = .ok rows ∧ r.2.committed = rows ∧ r.2.commits = [rows] ∧
      rows.map accountOf = [⟨.facebook,1,[("page_id","p1"),("page_name","Shop")]⟩,
        ⟨.instagram,1,[("ig_account_id","ig1")]⟩,
        ⟨.facebook,1,[("page_id","p2"),("page_name","Outlet")]⟩] := by
  let := Interpreter.ascii id
  intro r
  have hatomic : Atomic _ r :=
    (connecting_atomic shopEnv [1] [] none).1 (fun n => ⟨n,[]⟩) "state" shopAnswers
  have hok : r.1.isOk = true := rfl
  have hsome : r.2.commits ≠ [] := by
    have hlength : r.2.commits.length = 1 := rfl
    exact List.ne_nil_of_length_pos (by omega)
  clear_value r
  cases hatomic with
  | raised err s _ _ _ => cases hok
  | none s _ _ _ hcommits => exact absurd hcommits hsome
  | connected rows s _ hrows _ hcommitted hcommits =>
    obtain ⟨t,pages,ht,hpages,_,hconnects⟩ := hrows
    obtain rfl := Except.ok.inj ht
    obtain rfl := Except.ok.inj hpages
    exact ⟨rows,rfl,hcommitted,hcommits,hconnects.accounts⟩

end OAuth
end LeadEngine
