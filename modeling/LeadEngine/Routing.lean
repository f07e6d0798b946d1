import LeadEngine.OAuth
import LeadEngine.TokenRefresh
import LeadEngine.TransitionSystem

/-! Routing of webhooks: the runs of the three code exchanges and the token refresh, and
when every external account is answered by at most one active connection. -/
namespace LeadEngine
namespace Routing

open Fallible Table Interpreter Channels OAuth TokenRefresh TransitionSystem

inductive ExternalId
  | account (id : String)
  | phoneNumber (id : String)
  deriving DecidableEq

/-- The lookup of the id selects the connection. -/
def AnsweredBy : ExternalId → ChannelConnection → Prop
  | .account id,c => MatchesAccountId id c
  | .phoneNumber id,c => MatchesPhoneNumberId id c

instance : (x : ExternalId) → DecidablePred (AnsweredBy x)
  | .account id => inferInstanceAs (DecidablePred (MatchesAccountId id))
  | .phoneNumber id => inferInstanceAs (DecidablePred (MatchesPhoneNumberId id))

/-- Every external id selects at most one connection, so the lookups find that one and
never raise. -/
structure Unambiguous (table : List ChannelConnection) : Prop where
  accounts : ∀ id, (table.filter fun c => MatchesAccountId id c).length ≤ 1
  phoneNumbers : ∀ id, (table.filter fun c => MatchesPhoneNumberId id c).length ≤ 1
  accountLookup : ∀ id, ∃ found, getConnectionByPageOrIgAccountId table id = .ok found ∧
    ∀ c, found = some c ↔ c ∈ table ∧ MatchesAccountId id c
  phoneNumberLookup : ∀ id, ∃ found, getWhatsappConnectionByPhoneNumberId table id = .ok found ∧
    ∀ c, found = some c ↔ c ∈ table ∧ MatchesPhoneNumberId id c

theorem unambiguous_of_counts {table : List ChannelConnection}
    (ha : ∀ id, (table.filter fun c => MatchesAccountId id c).length ≤ 1)
    (hp : ∀ id, (table.filter fun c => MatchesPhoneNumberId id c).length ≤ 1) :
    Unambiguous table := by
  refine ⟨ha,hp,fun id => ?_,fun id => ?_⟩
  · obtain ⟨found,hfound⟩ := scalarOneOrNone_ok_of_length LookupError.multipleResultsFound (ha id)
    exact ⟨found,hfound,fun c => by simpa using scalarOneOrNone_mem hfound c⟩
  · obtain ⟨found,hfound⟩ := scalarOneOrNone_ok_of_length LookupError.multipleResultsFound (hp id)
    exact ⟨found,hfound,fun c => by simpa using scalarOneOrNone_mem hfound c⟩

def routeKey (c : ChannelConnection) : Option ExternalId :=
  if c.status = .active then
    match c.channelType with
    | .facebook => (c.metadata? "page_id").map .account
    | .instagram => (c.metadata? "ig_account_id").map .account
    | .whatsapp => (c.metadata? "phone_number_id").map .phoneNumber
    | _ => none
  else none

structure OneAccount (c : ChannelConnection) : Prop where
  facebook : c.channelType = .facebook → c.metadata? "ig_account_id" = none
  instagram : c.channelType = .instagram → c.metadata? "page_id" = none

theorem answeredBy_iff {c : ChannelConnection} (h : OneAccount c) (x : ExternalId) :
    AnsweredBy x c ↔ routeKey c = some x := by
  have hfb := h.facebook
  have hig := h.instagram
  unfold routeKey
  cases x with
  | account id =>
    simp only [AnsweredBy,MatchesAccountId]
    cases hs : c.status <;> cases ht : c.channelType <;> simp_all
  | phoneNumber id =>
    simp only [AnsweredBy,MatchesPhoneNumberId]
    cases hs : c.status <;> cases ht : c.channelType <;> simp_all

/-- Over connections with one account each, routing is unambiguous exactly when the account
is a unique index of the active connections. -/
theorem unambiguous_iff {table : List ChannelConnection} (h : ∀ c ∈ table, OneAccount c) :
    Unambiguous table ↔ UniqueOn routeKey table := by
  have hrows : ∀ x, rowsAt routeKey x table = table.filter fun c => routeKey c = some x :=
    fun _ => rfl
  have ha : ∀ id, (table.filter fun c => MatchesAccountId id c) =
      rowsAt routeKey (.account id) table := by
    intro id
    rw [hrows]
    exact List.filter_congr fun c hc => by simp [← answeredBy_iff (h c hc),AnsweredBy]
  have hp : ∀ id, (table.filter fun c => MatchesPhoneNumberId id c) =
      rowsAt routeKey (.phoneNumber id) table := by
    intro id
    rw [hrows]
    exact List.filter_congr fun c hc => by simp [← answeredBy_iff (h c hc),AnsweredBy]
  rw [uniqueOn_iff_rowsAt_length_le_one]
  constructor
  · intro hu x
    cases x with
    | account id => exact ha id ▸ hu.accounts id
    | phoneNumber id => exact hp id ▸ hu.phoneNumbers id
  · intro hu
    exact unambiguous_of_counts (fun id => (ha id).symm ▸ hu (.account id))
      fun id => (hp id).symm ▸ hu (.phoneNumber id)

def pageIds (page : PageVisit) : List ExternalId :=
  page.id.toList.map .account ++
    (truthy (page.fetchConnectedIgAccount.toOption.getD none)).toList.map .account

def phoneIds (phones : List PhoneEntry) : List ExternalId :=
  phones.flatMap fun phone => phone.id.toList.map .phoneNumber

def answered {α : Type} (answer : Except Unit α) (default : α) : α := answer.toOption.getD default

inductive ConnectOp
  | exchangeFacebookCode (state : String) (answers : FacebookAnswers) (draws : ℕ → Draw)
  | exchangeInstagramCode (state : String) (answers : InstagramAnswers) (draw : Draw) (now : Time)
  | exchangeWhatsappSignupCode (tenantId : UUID) (answers : WhatsappAnswers) (draws : ℕ → Draw)
  | refreshInstagramTokens (env : RefreshEnv)

/-- The external ids that the answers of Meta ask an operation to register. -/
def ConnectOp.registers : ConnectOp → List ExternalId
  | .exchangeFacebookCode _ answers _ => (answered answers.pageAccounts []).flatMap pageIds
  | .exchangeInstagramCode _ answers _ _ => [.account (answered answers.account ("","")).1]
  | .exchangeWhatsappSignupCode _ answers _ =>
    (wabaIds (answered answers.granularScopes [])).flatMap fun wabaId =>
      phoneIds (answered (answers.visit wabaId).phoneNumbers [])
  | .refreshInstagramTokens _ => []

section Run

variable [Interpreter]

def ConnectOp.exec (env : OAuthEnv) (table : List ChannelConnection) :
    ConnectOp → Except ExchangeError (List ChannelConnection)
  | .exchangeFacebookCode state answers draws =>
    (OAuth.exchangeFacebookCode env table draws state answers).map Prod.fst
  | .exchangeInstagramCode state answers draw now =>
    (OAuth.exchangeInstagramCode env table draw now state answers).map Prod.fst
  | .exchangeWhatsappSignupCode tenantId answers draws =>
    (OAuth.exchangeWhatsappSignupCode env table draws tenantId answers).map Prod.fst
  | .refreshInstagramTokens refresh => .ok (TokenRefresh.refreshInstagramTokens refresh table).1

/-- One call: it commits, or raises and leaves the connections alone. -/
inductive ConnectStep (env : OAuthEnv) :
    List ChannelConnection → ConnectOp × Bool → List ChannelConnection → Prop
  | commit {table table' : List ChannelConnection} {op : ConnectOp}
      (h : op.exec env table = .ok table') : ConnectStep env table (op,true) table'
  | raised (table : List ChannelConnection) (op : ConnectOp) :
      ConnectStep env table (op,false) table

/-- The new rows of an operation: one for each id it registers, all with one account. -/
structure Registers (rows : List ChannelConnection) (ids : List ExternalId) : Prop where
  keys : rows.map routeKey = ids.map some
  oneAccount : ∀ c ∈ rows, OneAccount c

omit [Interpreter] in
theorem Registers.nil : Registers [] [] := ⟨rfl,by simp⟩

omit [Interpreter] in
theorem Registers.append {rows rows' : List ChannelConnection} {ids ids' : List ExternalId}
    (h : Registers rows ids) (h' : Registers rows' ids') :
    Registers (rows ++ rows') (ids ++ ids') := by
  refine ⟨by rw [List.map_append,List.map_append,h.keys,h'.keys],fun c hc => ?_⟩
  obtain hc | hc := List.mem_append.mp hc
  · exact h.oneAccount c hc
  · exact h'.oneAccount c hc

omit [Interpreter] in
theorem registers_facebook (t : UUID) (draw : Draw) (pageId name : String) (blob : Bytes) :
    Registers [facebookConnection t draw pageId name blob] [.account pageId] := by
  refine ⟨by simp [routeKey,facebookConnection,ChannelConnection.metadata?],?_⟩
  intro c hc
  obtain rfl := List.mem_singleton.mp hc
  exact ⟨fun _ => rfl,fun h => by simp [facebookConnection] at h⟩

omit [Interpreter] in
theorem registers_instagram (c : ChannelConnection) (id : String) (hs : c.status = .active)
    (ht : c.channelType = .instagram) (hid : c.metadata? "ig_account_id" = some id)
    (hpage : c.metadata? "page_id" = none) : Registers [c] [.account id] := by
  refine ⟨by simp [routeKey,hs,ht,hid],?_⟩
  intro c' hc
  obtain rfl := List.mem_singleton.mp hc
  exact ⟨fun h => by simp [ht] at h,fun _ => hpage⟩

omit [Interpreter] in
theorem registers_whatsapp (t : UUID) (draw : Draw) (wabaId phoneNumberId display : String)
    (blob : Bytes) : Registers [whatsappConnection t draw wabaId phoneNumberId display blob]
      [.phoneNumber phoneNumberId] := by
  refine ⟨by simp [routeKey,whatsappConnection,ChannelConnection.metadata?],?_⟩
  intro c hc
  obtain rfl := List.mem_singleton.mp hc
  exact ⟨fun h => by simp [whatsappConnection] at h,fun h => by simp [whatsappConnection] at h⟩

omit [Interpreter] in
theorem registers_page {env : OAuthEnv} {t : UUID} {draws : ℕ → Draw} {n : ℕ} {page : PageVisit}
    {rows : List ChannelConnection} (h : pageConnections env t draws n page = .ok rows) :
    Registers rows (pageIds page) := by
  obtain ⟨pageId,blob,linked,hid,hfetch,hrows⟩ := pageConnections_ok h
  have hfb := registers_facebook t (draws n) pageId (page.name.getD "") blob
  obtain ⟨hnone,rfl⟩ | ⟨ig,igBlob,hsome,rfl⟩ := hrows
  · simpa [pageIds,hid,hfetch,Except.toOption,hnone] using hfb
  · have hig := registers_instagram
      (pageInstagramConnection t (draws (n+1)) ig igBlob) ig rfl rfl rfl rfl
    simpa [pageIds,hid,hfetch,Except.toOption,hsome] using hfb.append hig

omit [Interpreter] in
theorem registers_pages {env : OAuthEnv} {t : UUID} {draws : ℕ → Draw} (pages : List PageVisit)
    {n : ℕ} {rows : List ChannelConnection} (h : connectPages env t draws n pages = .ok rows) :
    Registers rows (pages.flatMap pageIds) := by
  induction pages generalizing n rows with
  | nil =>
    obtain rfl := Except.ok.inj h
    exact .nil
  | cons page rest ih =>
    obtain ⟨first,more,hfirst,hmore,rfl⟩ := connectPages_cons h
    exact (registers_page hfirst).append (ih hmore)

omit [Interpreter] in
theorem registers_phones {env : OAuthEnv} {t : UUID} {draws : ℕ → Draw} {token wabaId : String}
    (phones : List PhoneEntry) {n : ℕ} {rows : List ChannelConnection}
    (h : connectPhones env t draws token wabaId n phones = .ok rows) :
    Registers rows (phoneIds phones) := by
  induction phones generalizing n rows with
  | nil =>
    obtain rfl := Except.ok.inj h
    exact .nil
  | cons phone rest ih =>
    rw [connectPhones] at h
    split at h
    · simp at h
    · rename_i phoneNumberId hid
      split at h
      · simp at h
      · split at h
        · simp at h
        · rename_i more hmore
          obtain rfl := Except.ok.inj h
          have hfirst := registers_whatsapp t (draws n) wabaId phoneNumberId
            (phone.displayPhoneNumber.getD "") ‹_›
          have hall := hfirst.append (ih hmore)
          simpa [phoneIds,hid] using hall

omit [Interpreter] in
theorem registers_wabas {env : OAuthEnv} {t : UUID} {draws : ℕ → Draw} {token : String}
    {visit : String → WabaVisit} (ids : List String) {n : ℕ} {rows : List ChannelConnection}
    (h : connectWabas env t draws token visit n ids = .ok rows) :
    Registers rows (ids.flatMap fun wabaId =>
      phoneIds (answered (visit wabaId).phoneNumbers [])) := by
  induction ids generalizing n rows with
  | nil =>
    obtain rfl := Except.ok.inj h
    exact .nil
  | cons wabaId rest ih =>
    rw [connectWabas] at h
    split at h
    · rename_i phones _ hphones
      split at h
      · simp at h
      · rename_i first hfirst
        split at h
        · simp at h
        · rename_i more hmore
          obtain rfl := Except.ok.inj h
          have hrows := registers_phones phones hfirst
          rw [List.flatMap_cons,answered,graph_eq_ok.mp hphones]
          exact hrows.append (ih hmore)
    · simp at h

/-- A committed operation adds one row for each id it registers, or keeps every row. -/
theorem ConnectOp.exec_ok {env : OAuthEnv} {op : ConnectOp} {table table' : List ChannelConnection}
    (h : op.exec env table = .ok table') :
    (∃ rows, table' = table ++ rows ∧ Registers rows op.registers) ∨
      op.registers = [] ∧ List.Forall₂ SameAccount table table' := by
  cases op with
  | exchangeFacebookCode state answers draws =>
    obtain ⟨⟨_,rows⟩,hexchange,rfl⟩ := map_eq_ok.mp h
    obtain ⟨t,accounts,_,haccounts,hpages,rfl⟩ := exchangeFacebookCode_ok hexchange
    refine .inl ⟨rows,rfl,?_⟩
    simpa [ConnectOp.registers,answered,haccounts,Except.toOption] using
      registers_pages accounts hpages
  | exchangeInstagramCode state answers draw now =>
    obtain ⟨⟨_,conn⟩,hexchange,rfl⟩ := map_eq_ok.mp h
    obtain ⟨t,ig,username,_,_,_,haccount,rfl,rfl⟩ := exchangeInstagramCode_ok hexchange
    refine .inl ⟨_,rfl,?_⟩
    simpa [ConnectOp.registers,answered,haccount,Except.toOption] using
      registers_instagram _ ig rfl rfl rfl rfl
  | exchangeWhatsappSignupCode t answers draws =>
    obtain ⟨⟨_,rows⟩,hexchange,rfl⟩ := map_eq_ok.mp h
    obtain ⟨token,scopes,hscopes,hwabas,rfl⟩ := exchangeWhatsappSignupCode_ok hexchange
    refine .inl ⟨rows,rfl,?_⟩
    simpa [ConnectOp.registers,answered,hscopes,Except.toOption] using
      registers_wabas (wabaIds scopes) hwabas
  | refreshInstagramTokens refresh =>
    right
    obtain rfl : (TokenRefresh.refreshInstagramTokens refresh table).1 = table' := by
      simpa [ConnectOp.exec] using h
    exact ⟨rfl,refreshInstagramTokens_same refresh table⟩

/-- The operation registers distinct accounts, none of which an active connection has. -/
def Unregistered (table : List ChannelConnection) (a : ConnectOp × Bool) : Prop :=
  a.2 = true → a.1.registers.Nodup ∧
    ∀ x ∈ a.1.registers, ∀ c ∈ table, ¬ AnsweredBy x c

omit [Interpreter] in
theorem routeKey_of_same {c c' : ChannelConnection} (h : SameAccount c c') (x : ExternalId)
    (hx : routeKey c' = some x) : routeKey c = some x := by
  unfold routeKey at hx ⊢
  obtain hs | hs := h.status
  · simpa [hs,h.channelType,ChannelConnection.metadata?,h.metadata] using hx
  · simp [hs] at hx

omit [Interpreter] in
theorem oneAccount_of_same {c c' : ChannelConnection} (h : SameAccount c c')
    (ho : OneAccount c) : OneAccount c' := by
  have hm : ∀ key, c'.metadata? key = c.metadata? key := by
    intro key
    rw [ChannelConnection.metadata?,h.metadata]
    rfl
  exact ⟨fun ht => by rw [hm]; exact ho.facebook (h.channelType ▸ ht),
    fun ht => by rw [hm]; exact ho.instagram (h.channelType ▸ ht)⟩

theorem ConnectStep.oneAccount {env : OAuthEnv} {table table' : List ChannelConnection}
    {a : ConnectOp × Bool} (h : ConnectStep env table a table')
    (ho : ∀ c ∈ table, OneAccount c) : ∀ c ∈ table', OneAccount c := by
  cases h with
  | raised => exact ho
  | commit h =>
    intro c hc
    obtain ⟨rows,rfl,hrows⟩ | ⟨_,hsame⟩ := ConnectOp.exec_ok h
    · obtain hc | hc := List.mem_append.mp hc
      · exact ho c hc
      · exact hrows.oneAccount c hc
    · obtain ⟨c₀,hc₀,hs⟩ := exists_of_forall₂ hsame c hc
      exact oneAccount_of_same hs (ho c₀ hc₀)

/-- A call keeps routing unambiguous exactly when it registers nothing twice. -/
theorem ConnectStep.unambiguous_iff {env : OAuthEnv} {table table' : List ChannelConnection}
    {a : ConnectOp × Bool} (h : ConnectStep env table a table')
    (ho : ∀ c ∈ table, OneAccount c) (hu : Unambiguous table) :
    Unambiguous table' ↔ Unregistered table a := by
  have ho' := h.oneAccount ho
  have hindex := (Routing.unambiguous_iff ho).mp hu
  cases h with
  | raised op => simp [Unregistered,hu]
  | commit h =>
    rw [Routing.unambiguous_iff ho']
    obtain ⟨rows,rfl,hrows⟩ | ⟨hnil,hsame⟩ := ConnectOp.exec_ok h
    · rw [uniqueOn_append_iff hindex hrows.keys,Unregistered]
      simp only [true_implies]
      refine and_congr_right fun _ => ?_
      exact forall₂_congr fun x _ => forall₂_congr fun c hc =>
        not_congr (answeredBy_iff (ho c hc) x).symm
    · refine iff_of_true (hindex.of_forall₂ hsame fun c c' hs x => routeKey_of_same hs x) ?_
      simp [Unregistered,hnil]

/-- Along a run of exchanges and refreshes routing is unambiguous in every state exactly
when each exchange registers distinct accounts that no active connection has yet. -/
theorem unambiguous_iff_unregistered {env : OAuthEnv}
    {tr : List (Transition (List ChannelConnection) (ConnectOp × Bool))}
    {table : List ChannelConnection} (h : Path (ConnectStep env) [] tr table) :
    (∀ tr₁ table₁, tr₁ <+: tr → Path (ConnectStep env) [] tr₁ table₁ → Unambiguous table₁) ↔
      ∀ t ∈ tr, Unregistered t.1 t.2.1 := by
  refine h.always_iff_guard (P := fun _ table => Unambiguous table)
    (unambiguous_of_counts (by simp) (by simp)) ?_
  intro tr table a table' hp hu hs
  have ho : ∀ c ∈ table, OneAccount c :=
    hp.reachable.invariant (I := fun table => ∀ c ∈ table, OneAccount c) (by simp)
      fun _ _ _ hi hs => hs.oneAccount hi
  exact hs.unambiguous_iff ho hu

end Run

def demoEnv : OAuthEnv where
  verifyState _ _ := .ok [("tenant_id",.str "1")]
  parseUuid _ := some 1
  metaAppSecret := "fb"
  metaIgAppSecret := "ig"
  aes := ⟨fun _ => .ok (List.replicate 32 0),fun _ _ plain => plain,fun _ _ blob => .ok blob,
    fun _ => [1],fun _ => .ok []⟩
  encryptionKey := "key"

def grantPage (n : ℕ) (pageId : String) : ConnectOp :=
  .exchangeFacebookCode "state"
    ⟨.ok "short",.ok "long",
      .ok [⟨some pageId,some "Shop",some "token",.ok (),.ok none,.ok ()⟩]⟩ fun _ => ⟨n,[]⟩

def pageRow (n : ℕ) (pageId : String) : ChannelConnection :=
  facebookConnection 1 ⟨n,[]⟩ pageId "Shop" [1]

theorem grantPage_exec (table : List ChannelConnection) (n : ℕ) (pageId : String) :
    letI := Interpreter.ascii id
    (grantPage n pageId).exec demoEnv table = .ok (table ++ [pageRow n pageId]) := by
  rfl

/-- Connecting one page twice leaves two active connections that answer to it. -/
theorem reconnect_is_ambiguous :
    letI := Interpreter.ascii id
    ¬ ∀ env tr table, Path (ConnectStep env) [] tr table → Unambiguous table := by
  let := Interpreter.ascii id
  intro hall
  have hpath := (Path.nil.snoc (ConnectStep.commit (grantPage_exec [] 1 "page"))).snoc
    (ConnectStep.commit (grantPage_exec _ 2 "page"))
  have hcount := (hall demoEnv _ _ hpath).accounts "page"
  exact absurd hcount (by decide +kernel)

/-- Connecting two pages in two exchanges is unambiguous throughout. -/
theorem two_pages_unambiguous :
    letI := Interpreter.ascii id
    ∃ tr, Path (ConnectStep demoEnv) [] tr [pageRow 1 "page",pageRow 2 "other"] ∧
      Unambiguous [pageRow 1 "page",pageRow 2 "other"] := by
  let := Interpreter.ascii id
  have hpath := (Path.nil.snoc (ConnectStep.commit (grantPage_exec [] 1 "page"))).snoc
    (ConnectStep.commit (grantPage_exec _ 2 "other"))
  refine ⟨_,hpath,(unambiguous_iff_unregistered hpath).mpr ?_ _ _ List.prefix_rfl hpath⟩
  intro t ht _
  simp only [List.nil_append,List.mem_append,List.mem_singleton] at ht
  rcases ht with rfl | rfl
  · exact ⟨by decide +kernel,by simp⟩
  · refine ⟨by decide +kernel,?_⟩
    intro x hx c hc
    have hx' : x = .account "other" := List.mem_singleton.mp hx
    have hc' : c = pageRow 1 "page" := by simpa using hc
    rw [hx',hc']
    decide +kernel

end Routing
end LeadEngine
