import LeadEngine.Calls
import LeadEngine.WebhookFanOut

/-! The outcomes of the webhook endpoint over all bodies and headers, with the calls it makes to
the store and to the queue: which inputs it answers as declared, and which end in an exception
that it does not catch. -/
namespace LeadEngine
namespace Webhook
namespace Outcome

open Calls Fallible Table Json Interpreter Channels Normaliser

/-- A statement sent to the store or a job sent to the queue. -/
inductive Call
  | select (accountId : Json)
  | insert (eventId : Json) (source : LeadSource)
  | enqueue (job : Job)

inductive Status
  | ignored | unknownConnection | received
  deriving DecidableEq

/-- The values a healthy database takes: text parameters, which hold no NUL, and log rows with an
event id and a payload. -/
structure Database where
  takesText : String → Bool
  takesRow : String → Json → Bool

def Database.takes (db : Database) : Json → Bool
  | .str text => db.takesText text
  | _ => true

abbrev Response := Run Call HttpError

section Router

variable (env : Endpoint) (db : Database)

/-- `except (KeyError, IndexError)` around a chain of accesses. -/
def attempted (x : Except ReadError Json) : Response (Option Json) := .silent (attempt x)

def lookUp (found : Except HttpError (Option ChannelConnection)) (accountId : Json) :
    Response (Option ChannelConnection) :=
  .perform (.select accountId) (if db.takes accountId then found else .error .internal)

def logUnroutableEvent (payload : Json) (source : LeadSource) (eventId : Json) :
    Response Status :=
  .perform (.insert eventId source)
    (match eventId with
    | .str id => if db.takesRow id payload then .ok .unknownConnection else .error .internal
    | _ => .error .internal)

def enqueueJob (job : Job) : Response Status :=
  .perform (.enqueue job)
    (if env.enqueues job then .ok .received else .error .queueUnavailable)

def unroutable (payload : Json) (source : LeadSource) (eventId : Except ReadError Json) :
    Response Status :=
  (attempted eventId).bind fun
    | none => .pure .unknownConnection
    | some id => logUnroutableEvent db payload source id

def routeWhatsapp (payload : Json) : Response Status :=
  (attempted (payload.read phoneNumberIdPath)).bind fun
    | none => .pure .ignored
    | some phoneNumberId =>
      (lookUp db (whatsappConnection env.connections phoneNumberId) phoneNumberId).bind fun
        | none => unroutable db payload .whatsapp (payload.read messageIdPath)
        | some connection =>
          enqueueJob env (.runLeadCapture connection.tenantId connection.id payload)

variable [Interpreter]

def routeLeadAd (payload pageId : Json) : Response Status :=
  (attempted (payload.read leadgenIdPath)).bind fun
    | none => .pure .ignored
    | some leadgenId =>
      (lookUp db (accountConnection env.connections pageId) pageId).bind fun
        | none =>
          logUnroutableEvent db payload .facebookLeadAds (.str (leadAdEventId (str leadgenId)))
        | some connection =>
          enqueueJob env (.runLeadAdCapture
            ⟨connection.tenantId,connection.id,str leadgenId,fields? payload⟩)

def routeDm (object : ObjectType) (payload accountId : Json) : Response Status :=
  (lookUp db (accountConnection env.connections accountId) accountId).bind fun
    | none =>
      unroutable db payload (if object = .page then .facebook else .instagram)
        (payload.read midPath)
    | some connection => enqueueJob env (.runLeadCapture connection.tenantId connection.id payload)

def routeFacebookInstagram (object : ObjectType) (payload : Json) : Response Status :=
  (attempted (payload.read accountIdPath)).bind fun
    | none => .pure .ignored
    | some accountId =>
      (attempted (payload.read changeFieldPath)).bind fun changeField =>
        if changeField.bind text? = some "leadgen" then routeLeadAd env db payload accountId
        else routeDm env db object payload accountId

def routePayload (payload : Json) : Response Status :=
  match objectType payload with
  | .error _ => .silent (.error .internal)
  | .ok none => .pure .ignored
  | .ok (some .whatsappBusinessAccount) => routeWhatsapp env db payload
  | .ok (some object) => routeFacebookInstagram env db object payload

def receiveWebhook (rawBody : Bytes) (signature : String) : Response Status :=
  match validateSignature env rawBody signature with
  | .error .nonAscii => .silent (.error .internal)
  | .error _ => .silent (.error .invalidSignature)
  | .ok () =>
    match env.loads rawBody with
    | .error .jsonDecode => .silent (.error .invalidJson)
    | .error .other => .silent (.error .internal)
    | .ok payload => routePayload env db payload

end Router

section Refinement

variable {env : Endpoint} {db : Database} {payload : Json}

/-- The status of a reply, without what the endpoint did before it. -/
def status : Reply → Status
  | .ignored => .ignored
  | .unknownConnection _ => .unknownConnection
  | .received _ => .received

structure Database.TakesAll (db : Database) : Prop where
  texts : ∀ text, db.takesText text = true
  rows : ∀ id payload, db.takesRow id payload = true

theorem lookUp_result (hdb : db.TakesAll) (found : Except HttpError (Option ChannelConnection))
    (accountId : Json) : (lookUp db found accountId).result = found := by
  have htakes : db.takes accountId = true := by
    cases accountId <;> simp [Database.takes,hdb.texts]
  simp [lookUp,htakes]

theorem unroutable_result (hdb : db.TakesAll) (source : LeadSource) (x : Except ReadError Json) :
    (unroutable db payload source x).result = (Webhook.unroutable source x).map status := by
  simp only [unroutable,Webhook.unroutable,Run.bind_result,attempted,Run.silent_result]
  match attempt x with
  | .error _ => rfl
  | .ok none => rfl
  | .ok (some (.str id)) => simp [logUnroutableEvent,hdb.rows,Except.bind,Except.map,status]
  | .ok (some .null) | .ok (some (.bool _)) | .ok (some (.int _)) | .ok (some (.float _)) |
    .ok (some (.arr _)) | .ok (some (.obj _)) => rfl

theorem enqueueJob_result (job : Job) :
    (enqueueJob env job).result = (enqueue env job).map status := by
  simp only [enqueueJob,enqueue,Run.perform_result]
  split_ifs <;> rfl

theorem routeWhatsapp_result (hdb : db.TakesAll) :
    (routeWhatsapp env db payload).result = (Webhook.routeWhatsapp env payload).map status := by
  simp only [routeWhatsapp,Webhook.routeWhatsapp,Run.bind_result,attempted,Run.silent_result]
  match attempt (payload.read phoneNumberIdPath) with
  | .error _ | .ok none => rfl
  | .ok (some id) =>
    simp only [Except.bind,Run.bind_result,lookUp_result hdb]
    match whatsappConnection env.connections id with
    | .error _ => rfl
    | .ok none => exact unroutable_result hdb ..
    | .ok (some c) => exact enqueueJob_result _

variable [Interpreter]

theorem routeLeadAd_result (hdb : db.TakesAll) (pageId : Json) :
    (routeLeadAd env db payload pageId).result =
      (Webhook.routeLeadAd env payload pageId).map status := by
  simp only [routeLeadAd,Webhook.routeLeadAd,Run.bind_result,attempted,Run.silent_result]
  match attempt (payload.read leadgenIdPath) with
  | .error _ | .ok none => rfl
  | .ok (some id) =>
    simp only [Except.bind,Run.bind_result,lookUp_result hdb]
    match accountConnection env.connections pageId with
    | .error _ => rfl
    | .ok none => simp [logUnroutableEvent,hdb.rows,Except.map,status]
    | .ok (some c) => exact enqueueJob_result _

theorem routeFacebookInstagram_result (hdb : db.TakesAll) (object : ObjectType) :
    (routeFacebookInstagram env db object payload).result =
      (Webhook.routeFacebookInstagram env object payload).map status := by
  simp only [routeFacebookInstagram,Webhook.routeFacebookInstagram,Run.bind_result,attempted,
    Run.silent_result]
  match attempt (payload.read accountIdPath) with
  | .error _ | .ok none => rfl
  | .ok (some accountId) =>
    simp only [Except.bind,Run.bind_result,Run.silent_result]
    match attempt (payload.read changeFieldPath) with
    | .error _ => rfl
    | .ok changeField =>
      dsimp only
      by_cases hleadgen : changeField.bind text? = some "leadgen"
      · rw [if_pos hleadgen,if_pos hleadgen]
        exact routeLeadAd_result hdb accountId
      · rw [if_neg hleadgen,if_neg hleadgen]
        simp only [routeDm,Run.bind_result,lookUp_result hdb]
        match accountConnection env.connections accountId with
        | .error _ => rfl
        | .ok none => exact unroutable_result hdb ..
        | .ok (some c) => exact enqueueJob_result _

/-- With a database that takes every value the responses are those of the router alone. -/
theorem receiveWebhook_result (hdb : db.TakesAll) (body : Bytes) (signature : String) :
    (receiveWebhook env db body signature).result =
      (Webhook.receiveWebhook env body signature).map status := by
  unfold receiveWebhook Webhook.receiveWebhook
  cases validateSignature env body signature with
  | error err => cases err <;> rfl
  | ok _ =>
    dsimp only
    cases env.loads body with
    | error err => cases err <;> rfl
    | ok payload =>
      simp only [routePayload,Webhook.routePayload]
      cases objectType payload with
      | error _ => rfl
      | ok object =>
        rcases object with _ | object
        · rfl
        cases object with
        | whatsappBusinessAccount => exact routeWhatsapp_result hdb
        | page => exact routeFacebookInstagram_result hdb .page
        | instagram => exact routeFacebookInstagram_result hdb .instagram

end Refinement

section Inputs

/-- The chain of accesses ends in a value, at a missing key or at an empty list. -/
def Legible (x : Except ReadError Json) : Prop :=
  ∀ err, x = .error err → err = .keyError ∨ err = .indexError

/-- At most one row answers a lookup of a text or of a missing id. -/
structure SingleMatch (table : List ChannelConnection) : Prop where
  phoneNumber : ∀ id, (table.filter fun c => MatchesPhoneNumberId id c).length ≤ 1
  noPhoneNumber : (table.filter fun c => c.channelType = .whatsapp ∧ c.status = .active ∧
    c.metadata? "phone_number_id" = none).length ≤ 1
  account : ∀ id, (table.filter fun c => MatchesAccountId id c).length ≤ 1
  noAccount : (table.filter fun c => c.status = .active ∧
    (c.channelType = .facebook ∨ c.channelType = .instagram) ∧
    (c.metadata? "page_id" = none ∨ c.metadata? "ig_account_id" = none)).length ≤ 1

variable (env : Endpoint) (db : Database) (payload : Json)

/-- An id that a lookup takes: `null` or a text. -/
def Selectable (accountId : Json) : Prop :=
  accountId = .null ∨ ∃ id, accountId = .str id ∧ db.takesText id = true

/-- An event id in first place, if there is one, is a text that the log takes. -/
def Loggable (eventId : Except ReadError Json) : Prop :=
  Legible eventId ∧ ∀ v, eventId = .ok v → ∃ id, v = .str id ∧ db.takesRow id payload = true

/-- A message can be looked up by its account, and logged where no connection has it. -/
def RegularMessage (found : Except HttpError (Option ChannelConnection)) (accountId : Json)
    (eventId : Except ReadError Json) : Prop :=
  Selectable db accountId ∧ (found = .ok none → Loggable db payload eventId)

def RegularWhatsapp : Prop :=
  Legible (payload.read phoneNumberIdPath) ∧
    ∀ accountId, payload.read phoneNumberIdPath = .ok accountId →
      RegularMessage db payload (whatsappConnection env.connections accountId) accountId
        (payload.read messageIdPath)

variable [Interpreter]

def RegularForm (accountId : Json) : Prop :=
  Legible (payload.read leadgenIdPath) ∧
    ∀ leadgenId, payload.read leadgenIdPath = .ok leadgenId → Selectable db accountId ∧
      (accountConnection env.connections accountId = .ok none →
        db.takesRow (leadAdEventId (str leadgenId)) payload = true)

def RegularEntry : Prop :=
  Legible (payload.read accountIdPath) ∧
    ∀ accountId, payload.read accountIdPath = .ok accountId →
      Legible (payload.read changeFieldPath) ∧
        (payload.read changeFieldPath = .ok (.str "leadgen") →
          RegularForm env db payload accountId) ∧
        (payload.read changeFieldPath ≠ .ok (.str "leadgen") →
          RegularMessage db payload (accountConnection env.connections accountId) accountId
            (payload.read midPath))

/-- An object whose type is unknown, or whose first places hold what the router reads. -/
def RegularPayload : Prop :=
  (∃ kvs, payload = .obj kvs) ∧
    match kind payload with
    | none => True
    | some .whatsappBusinessAccount => RegularWhatsapp env db payload
    | some _ => RegularEntry env db payload

end Inputs

section Declared

variable {env : Endpoint} {db : Database} {payload : Json}

theorem attempted_declared {x : Except ReadError Json} :
    (attempted x).result ≠ .error .internal ↔ Legible x := by
  rcases x with err | v
  · cases err <;> simp [attempted,attempt,Legible]
  · simp [attempted,attempt,Legible]

theorem attempted_ok {x : Except ReadError Json} (o : Option Json) :
    (attempted x).result = .ok o ↔ Legible x ∧ o = x.toOption := by
  rcases x with err | v
  · cases err <;> simp [attempted,attempt,Legible,Except.toOption,eq_comm]
  · simp [attempted,attempt,Legible,Except.toOption,eq_comm]

theorem attempted_bind_declared {α : Type} {x : Except ReadError Json}
    {f : Option Json → Response α} :
    ((attempted x).bind f).result ≠ .error .internal ↔
      Legible x ∧ (f x.toOption).result ≠ .error .internal := by
  rw [Run.avoids_bind,attempted_declared]
  refine and_congr_right fun hx => ?_
  simp [attempted_ok,hx]

theorem logUnroutableEvent_declared {source : LeadSource} {v : Json} :
    (logUnroutableEvent db payload source v).result ≠ .error .internal ↔
      ∃ id, v = .str id ∧ db.takesRow id payload = true := by
  cases v <;> simp [logUnroutableEvent]

theorem unroutable_declared {source : LeadSource} {x : Except ReadError Json} :
    (unroutable db payload source x).result ≠ .error .internal ↔ Loggable db payload x := by
  rw [unroutable,attempted_bind_declared]
  refine and_congr_right fun _ => ?_
  cases x with
  | error _ => simp [Except.toOption]
  | ok v => simpa [Except.toOption] using logUnroutableEvent_declared

theorem enqueueJob_declared (job : Job) : (enqueueJob env job).result ≠ .error .internal := by
  simp only [enqueueJob,Run.perform_result]
  split_ifs <;> simp

theorem whatsappConnection_declared (h : SingleMatch env.connections) {accountId : Json} :
    (∃ o, whatsappConnection env.connections accountId = .ok o) ↔
      accountId = .null ∨ ∃ id, accountId = .str id := by
  cases accountId with
  | null =>
    obtain ⟨o,ho⟩ := scalarOneOrNone_ok_of_length HttpError.internal h.noPhoneNumber
    exact iff_of_true ⟨o,ho⟩ (.inl rfl)
  | str id =>
    obtain ⟨o,ho⟩ :=
      scalarOneOrNone_ok_of_length LookupError.multipleResultsFound (h.phoneNumber id)
    exact iff_of_true ⟨o,mapError_eq_ok.mpr ho⟩ (.inr ⟨id,rfl⟩)
  | _ => simp [whatsappConnection]

theorem accountConnection_declared (h : SingleMatch env.connections) {accountId : Json} :
    (∃ o, accountConnection env.connections accountId = .ok o) ↔
      accountId = .null ∨ ∃ id, accountId = .str id := by
  cases accountId with
  | null =>
    obtain ⟨o,ho⟩ := scalarOneOrNone_ok_of_length HttpError.internal h.noAccount
    exact iff_of_true ⟨o,ho⟩ (.inl rfl)
  | str id =>
    obtain ⟨o,ho⟩ := scalarOneOrNone_ok_of_length LookupError.multipleResultsFound (h.account id)
    exact iff_of_true ⟨o,mapError_eq_ok.mpr ho⟩ (.inr ⟨id,rfl⟩)
  | _ => simp [accountConnection]

theorem whatsappConnection_error {table : List ChannelConnection} {accountId : Json}
    {err : HttpError} (h : whatsappConnection table accountId = .error err) : err = .internal := by
  unfold whatsappConnection at h
  split at h
  · cases hq : getWhatsappConnectionByPhoneNumberId table _ <;> rw [hq] at h <;> cases h
    rfl
  · exact (scalarOneOrNone_error h).1
  · cases h
    rfl

theorem accountConnection_error {table : List ChannelConnection} {accountId : Json}
    {err : HttpError} (h : accountConnection table accountId = .error err) : err = .internal := by
  unfold accountConnection at h
  split at h
  · cases hq : getConnectionByPageOrIgAccountId table _ <;> rw [hq] at h <;> cases h
    rfl
  · exact (scalarOneOrNone_error h).1
  · cases h
    rfl

theorem lookUp_bind_declared {found : Except HttpError (Option ChannelConnection)}
    {accountId : Json} {f : Option ChannelConnection → Response Status}
    (hfound : (∃ o, found = .ok o) ↔ accountId = .null ∨ ∃ id, accountId = .str id)
    (herror : ∀ err, found = .error err → err = .internal)
    (hsome : ∀ c, (f (some c)).result ≠ .error .internal) :
    ((lookUp db found accountId).bind f).result ≠ .error .internal ↔
      Selectable db accountId ∧ (found = .ok none → (f none).result ≠ .error .internal) := by
  have hselectable : Selectable db accountId ↔ db.takes accountId = true ∧ ∃ o, found = .ok o := by
    rw [hfound]
    cases accountId <;> simp [Selectable,Database.takes]
  rw [Run.avoids_bind,hselectable,lookUp,Run.perform_result]
  cases htakes : db.takes accountId with
  | false => simp
  | true =>
    cases hf : found with
    | error err => simp [herror err hf]
    | ok o =>
      cases o with
      | none => simp
      | some c => simpa using hsome c

theorem message_declared {found : Except HttpError (Option ChannelConnection)} {accountId : Json}
    {source : LeadSource} {x : Except ReadError Json} {job : ChannelConnection → Job}
    (hfound : (∃ o, found = .ok o) ↔ accountId = .null ∨ ∃ id, accountId = .str id)
    (herror : ∀ err, found = .error err → err = .internal) :
    ((lookUp db found accountId).bind fun
      | none => unroutable db payload source x
      | some connection => enqueueJob env (job connection)).result ≠ .error .internal ↔
      RegularMessage db payload found accountId x := by
  rw [lookUp_bind_declared hfound herror fun c => enqueueJob_declared _]
  simp only [unroutable_declared,RegularMessage]

theorem routeWhatsapp_declared (h : SingleMatch env.connections) :
    (routeWhatsapp env db payload).result ≠ .error .internal ↔ RegularWhatsapp env db payload := by
  rw [routeWhatsapp,attempted_bind_declared,RegularWhatsapp]
  refine and_congr_right fun _ => ?_
  cases payload.read phoneNumberIdPath with
  | error _ => simp [Except.toOption]
  | ok accountId =>
    simp only [Except.toOption,Except.ok.injEq,forall_eq']
    exact message_declared (whatsappConnection_declared h) fun _ => whatsappConnection_error

variable [Interpreter]

theorem routeLeadAd_declared (h : SingleMatch env.connections) {accountId : Json} :
    (routeLeadAd env db payload accountId).result ≠ .error .internal ↔
      RegularForm env db payload accountId := by
  rw [routeLeadAd,attempted_bind_declared,RegularForm]
  refine and_congr_right fun _ => ?_
  cases payload.read leadgenIdPath with
  | error _ => simp [Except.toOption]
  | ok leadgenId =>
    simp only [Except.toOption,Except.ok.injEq,forall_eq']
    rw [lookUp_bind_declared (accountConnection_declared h) (fun _ => accountConnection_error)
      fun c => enqueueJob_declared _]
    simp [logUnroutableEvent_declared]

omit [Interpreter] in
theorem routeDm_declared (h : SingleMatch env.connections) {object : ObjectType}
    {accountId : Json} : (routeDm env db object payload accountId).result ≠ .error .internal ↔
      RegularMessage db payload (accountConnection env.connections accountId) accountId
        (payload.read midPath) :=
  message_declared (accountConnection_declared h) fun _ => accountConnection_error

theorem routeFacebookInstagram_declared (h : SingleMatch env.connections) {object : ObjectType} :
    (routeFacebookInstagram env db object payload).result ≠ .error .internal ↔
      RegularEntry env db payload := by
  rw [routeFacebookInstagram,attempted_bind_declared,RegularEntry]
  refine and_congr_right fun _ => ?_
  cases payload.read accountIdPath with
  | error _ => simp [Except.toOption]
  | ok accountId =>
    simp only [Except.toOption,Except.ok.injEq,forall_eq',attempted_bind_declared]
    refine and_congr_right fun _ => ?_
    -- the field decides between the form and the message
    have hfield : (payload.read changeFieldPath).toOption.bind text? = some "leadgen" ↔
        payload.read changeFieldPath = .ok (.str "leadgen") := by
      cases payload.read changeFieldPath <;> simp [Except.toOption]
    by_cases hleadgen : payload.read changeFieldPath = .ok (.str "leadgen")
    · simp [hleadgen,routeLeadAd_declared h]
    · have hno := mt hfield.mp hleadgen
      simp only [Except.toOption] at hno
      simp [hleadgen,hno,routeDm_declared h]

theorem routePayload_declared (h : SingleMatch env.connections) :
    (routePayload env db payload).result ≠ .error .internal ↔ RegularPayload env db payload := by
  unfold routePayload RegularPayload
  cases payload with
  | obj kvs =>
    have hkind : objectType (.obj kvs) = .ok (kind (.obj kvs)) := by
      cases hget : (Json.obj kvs).get? "object" <;>
        simp [objectType,kind,hget,Except.map,ObjectType.ofValue]
    rw [hkind]
    cases kind (.obj kvs) with
    | none => simp
    | some object =>
      cases object with
      | whatsappBusinessAccount => simpa using routeWhatsapp_declared h
      | page | instagram => simpa using routeFacebookInstagram_declared h
  | _ => simp [objectType,dictGet,Except.map]

end Declared

section Queue

variable {env : Endpoint} {db : Database} {payload : Json}

/-- A program that raises 503 where a job is refused, and nothing else that is caught. -/
structure Honest {α : Type} (env : Endpoint) (x : Response α) : Prop where
  errors : ∀ err, x.result = .error err → err = .internal ∨ err = .queueUnavailable
  refused : x.result = .error .queueUnavailable ↔
    ∃ job, .enqueue job ∈ x.calls ∧ env.enqueues job = false

structure Quiet {α : Type} (x : Response α) : Prop where
  errors : ∀ err, x.result = .error err → err = .internal
  quiet : ∀ job, .enqueue job ∉ x.calls

theorem Quiet.honest {α : Type} {x : Response α} (h : Quiet x) : Honest env x where
  errors err herr := .inl (h.errors err herr)
  refused := by
    refine iff_of_false (fun herr => ?_) fun ⟨job,hjob,_⟩ => h.quiet job hjob
    cases h.errors _ herr

theorem Quiet.bind {α β : Type} {x : Response α} {f : α → Response β} (h : Quiet x)
    (hf : ∀ a, Honest env (f a)) : Honest env (x.bind f) where
  errors err herr := by
    obtain herr | ⟨a,_,herr⟩ := Run.raises_bind.mp herr
    · exact .inl (h.errors err herr)
    · exact (hf a).errors err herr
  refused := by
    rw [Run.raises_bind]
    constructor
    · rintro (herr | ⟨a,ha,herr⟩)
      · cases h.errors _ herr
      · obtain ⟨job,hjob,hno⟩ := (hf a).refused.mp herr
        exact ⟨job,Run.mem_calls_bind.mpr (.inr ⟨a,ha,hjob⟩),hno⟩
    · rintro ⟨job,hjob,hno⟩
      obtain hjob | ⟨a,ha,hjob⟩ := Run.mem_calls_bind.mp hjob
      · exact absurd hjob (h.quiet job)
      · exact .inr ⟨a,ha,(hf a).refused.mpr ⟨job,hjob,hno⟩⟩

theorem quiet_pure {α : Type} (a : α) : Quiet (.pure a) := ⟨by simp,by simp⟩

theorem quiet_attempted (x : Except ReadError Json) : Quiet (attempted x) where
  errors err herr := by
    rcases x with e | v
    · cases e <;> simp_all [attempted,attempt]
    · simp [attempted,attempt] at herr
  quiet := by simp [attempted]

theorem quiet_lookUp {found : Except HttpError (Option ChannelConnection)} {accountId : Json}
    (herror : ∀ err, found = .error err → err = .internal) :
    Quiet (lookUp db found accountId) where
  errors err herr := by
    simp only [lookUp,Run.perform_result] at herr
    split_ifs at herr
    · exact herror err herr
    · exact (Except.error.inj herr).symm
  quiet := by simp [lookUp]

theorem quiet_logUnroutableEvent (source : LeadSource) (eventId : Json) :
    Quiet (logUnroutableEvent db payload source eventId) where
  errors err herr := by
    simp only [logUnroutableEvent,Run.perform_result] at herr
    split at herr
    · split_ifs at herr
      exact (Except.error.inj herr).symm
    · exact (Except.error.inj herr).symm
  quiet := by simp [logUnroutableEvent]

theorem honest_unroutable (source : LeadSource) (x : Except ReadError Json) :
    Honest env (unroutable db payload source x) := by
  refine (quiet_attempted x).bind fun o => ?_
  cases o with
  | none => exact (quiet_pure _).honest
  | some id => exact (quiet_logUnroutableEvent source id).honest

theorem honest_enqueueJob (job : Job) : Honest env (enqueueJob env job) where
  errors err herr := by
    simp only [enqueueJob,Run.perform_result] at herr
    split_ifs at herr
    exact .inr (Except.error.inj herr).symm
  refused := by
    cases hjob : env.enqueues job <;> simp [enqueueJob,hjob]

theorem honest_routeWhatsapp : Honest env (routeWhatsapp env db payload) := by
  refine (quiet_attempted _).bind fun o => ?_
  cases o with
  | none => exact (quiet_pure _).honest
  | some accountId =>
    refine (quiet_lookUp fun _ => whatsappConnection_error).bind fun found => ?_
    cases found with
    | none => exact honest_unroutable ..
    | some c => exact honest_enqueueJob _

variable [Interpreter]

theorem honest_routeLeadAd (accountId : Json) :
    Honest env (routeLeadAd env db payload accountId) := by
  refine (quiet_attempted _).bind fun o => ?_
  cases o with
  | none => exact (quiet_pure _).honest
  | some leadgenId =>
    refine (quiet_lookUp fun _ => accountConnection_error).bind fun found => ?_
    cases found with
    | none => exact (quiet_logUnroutableEvent ..).honest
    | some c => exact honest_enqueueJob _

omit [Interpreter] in
theorem honest_routeDm (object : ObjectType) (accountId : Json) :
    Honest env (routeDm env db object payload accountId) := by
  refine (quiet_lookUp fun _ => accountConnection_error).bind fun found => ?_
  cases found with
  | none => exact honest_unroutable ..
  | some c => exact honest_enqueueJob _

theorem honest_routeFacebookInstagram (object : ObjectType) :
    Honest env (routeFacebookInstagram env db object payload) := by
  refine (quiet_attempted _).bind fun o => ?_
  cases o with
  | none => exact (quiet_pure _).honest
  | some accountId =>
    refine (quiet_attempted _).bind fun changeField => ?_
    split_ifs
    · exact honest_routeLeadAd accountId
    · exact honest_routeDm object accountId

theorem honest_routePayload : Honest env (routePayload env db payload) := by
  unfold routePayload
  match objectType payload with
  | .error _ => exact Quiet.honest ⟨by simp [eq_comm],by simp⟩
  | .ok none => exact (quiet_pure _).honest
  | .ok (some .whatsappBusinessAccount) => exact honest_routeWhatsapp
  | .ok (some .page) => exact honest_routeFacebookInstagram .page
  | .ok (some .instagram) => exact honest_routeFacebookInstagram .instagram

end Queue

section Contract

variable [Interpreter] (env : Endpoint) (db : Database) (body : Bytes) (signature : String)

def signed : String := "sha256=" ++ env.hmacSha256 env.appSecret body

/-- 403 exactly for a wrong header, and then without a call; else 400 exactly for a body that is
not JSON, 503 exactly when a job is refused, and no exception but these. -/
structure KeepsOutcomes : Prop where
  forbidden : (receiveWebhook env db body signature).result = .error .invalidSignature ↔
    signature ≠ signed env body
  untouched : signature ≠ signed env body → (receiveWebhook env db body signature).calls = []
  badJson : signature = signed env body →
    ((receiveWebhook env db body signature).result = .error .invalidJson ↔
      ∃ err, env.loads body = .error err)
  unavailable : signature = signed env body →
    ((receiveWebhook env db body signature).result = .error .queueUnavailable ↔
      ∃ job, .enqueue job ∈ (receiveWebhook env db body signature).calls ∧
        env.enqueues job = false)
  declared : (receiveWebhook env db body signature).result ≠ .error .internal

/-- What follows the prefix is ASCII, and a body with the right header does not decode, with the
error that is caught, or decodes to a regular payload. -/
structure RegularRequest : Prop where
  ascii : "sha256=".toList <+: signature.toList →
    ∀ c ∈ signature.toList.drop 7, c.toNat < 128
  body : signature = signed env body → env.loads body = .error .jsonDecode ∨
    ∃ payload, env.loads body = .ok payload ∧ RegularPayload env db payload

end Contract

section Signature

variable {env : Endpoint} {body : Bytes} {signature : String}

theorem signed_iff (hsha : "sha256=".toList <+: signature.toList) :
    signature = signed env body ↔
      env.hmacSha256 env.appSecret body = String.ofList (signature.toList.drop 7) := by
  obtain ⟨received,hreceived⟩ := hsha
  have hdrop : signature.toList.drop 7 = received := by
    rw [← hreceived]
    rfl
  rw [hdrop,signed,← String.toList_inj,← hreceived,String.toList_append,List.append_cancel_left_eq,
    ← String.toList_inj,String.toList_ofList]
  exact eq_comm

theorem validateSignature_cases (env : Endpoint) (body : Bytes)
    (hascii : "sha256=".toList <+: signature.toList →
    ∀ c ∈ signature.toList.drop 7, c.toNat < 128) :
    signature = signed env body ∧ validateSignature env body signature = .ok () ∨
      signature ≠ signed env body ∧ (validateSignature env body signature = .error .missingPrefix ∨
        validateSignature env body signature = .error .mismatch) := by
  unfold validateSignature
  by_cases hsha : "sha256=".toList <+: signature.toList
  · have hall : (String.ofList (signature.toList.drop 7)).toList.all (fun c => c.toNat < 128) := by
      simpa using hascii hsha
    rw [if_pos (List.isPrefixOf_iff_prefix.mpr hsha),Ne,signed_iff hsha]
    simp only [hall,if_true]
    by_cases hmac : env.hmacSha256 env.appSecret body = String.ofList (signature.toList.drop 7)
    · exact .inl ⟨hmac,if_pos hmac⟩
    · exact .inr ⟨hmac,.inr (if_neg hmac)⟩
  · rw [if_neg (mt List.isPrefixOf_iff_prefix.mp hsha)]
    refine .inr ⟨fun hsigned => hsha ?_,.inl rfl⟩
    rw [hsigned,signed,String.toList_append]
    exact List.prefix_append ..

theorem validateSignature_nonAscii (hsha : "sha256=".toList <+: signature.toList)
    (h : ¬ ∀ c ∈ signature.toList.drop 7, c.toNat < 128) :
    validateSignature env body signature = .error .nonAscii := by
  have hall : ¬ (String.ofList (signature.toList.drop 7)).toList.all (fun c => c.toNat < 128) := by
    simpa using h
  unfold validateSignature
  rw [if_pos (List.isPrefixOf_iff_prefix.mpr hsha)]
  exact if_neg hall

end Signature

section Contract

variable [Interpreter] {env : Endpoint} {db : Database} {body : Bytes} {signature : String}

theorem receiveWebhook_signed (hv : validateSignature env body signature = .ok ()) :
    receiveWebhook env db body signature =
      match env.loads body with
      | .error .jsonDecode => .silent (.error .invalidJson)
      | .error .other => .silent (.error .internal)
      | .ok payload => routePayload env db payload := by
  unfold receiveWebhook
  rw [hv]

/-- The endpoint has only its declared outcomes exactly for regular requests. -/
theorem webhook_outcomes_iff (h : SingleMatch env.connections) (db : Database) (body : Bytes)
    (signature : String) :
    KeepsOutcomes env db body signature ↔ RegularRequest env db body signature := by
  constructor
  · intro hkeeps
    have hascii : "sha256=".toList <+: signature.toList →
        ∀ c ∈ signature.toList.drop 7, c.toNat < 128 := by
      intro hsha
      by_contra hno
      refine hkeeps.declared ?_
      simp [receiveWebhook,validateSignature_nonAscii hsha hno]
    refine ⟨hascii,fun hsigned => ?_⟩
    obtain ⟨_,hv⟩ | ⟨hno,_⟩ := validateSignature_cases env body hascii
    · have hdeclared := hkeeps.declared
      rw [receiveWebhook_signed hv] at hdeclared
      match hload : env.loads body with
      | .error .jsonDecode => exact .inl rfl
      | .error .other => simp [hload] at hdeclared
      | .ok payload =>
        rw [hload] at hdeclared
        exact .inr ⟨payload,rfl,(routePayload_declared h).mp hdeclared⟩
    · exact absurd hsigned hno
  · intro hregular
    obtain ⟨hsigned,hv⟩ | ⟨hno,hv⟩ := validateSignature_cases env body hregular.ascii
    · obtain hload | ⟨payload,hload,hpayload⟩ := hregular.body hsigned
      · have hrun : receiveWebhook env db body signature = .silent (.error .invalidJson) := by
          rw [receiveWebhook_signed hv,hload]
        refine ⟨?_,fun hne => absurd hsigned hne,fun _ => ?_,fun _ => ?_,?_⟩ <;> rw [hrun]
        · exact iff_of_false (by simp) (not_not.mpr hsigned)
        · simp [hload]
        · simp
        · simp
      · have hrun : receiveWebhook env db body signature = routePayload env db payload := by
          rw [receiveWebhook_signed hv,hload]
        have hdeclared : (routePayload env db payload).result ≠ .error .internal :=
          (routePayload_declared h).mpr hpayload
        have hhonest : Honest env (routePayload env db payload) := honest_routePayload
        rw [← hrun] at hdeclared hhonest
        have honly : ∀ err, (receiveWebhook env db body signature).result = .error err →
            err = .queueUnavailable := by
          intro err herr
          refine (hhonest.errors err herr).resolve_left ?_
          rintro rfl
          exact hdeclared herr
        refine ⟨?_,fun hne => absurd hsigned hne,fun _ => ?_,fun _ => hhonest.refused,hdeclared⟩
        · refine iff_of_false (fun herr => ?_) fun hne => hne hsigned
          cases honly _ herr
        · refine iff_of_false (fun herr => ?_) fun ⟨err,herr⟩ => ?_
          · cases honly _ herr
          · rw [hload] at herr
            cases herr
    · have hrun : receiveWebhook env db body signature = .silent (.error .invalidSignature) := by
        unfold receiveWebhook
        obtain hv | hv := hv <;> rw [hv]
      constructor <;> simp [hrun,hno]

end Contract

def oneNumber (payload : Json) : Endpoint where
  appSecret := "secret"
  hmacSha256 := fun _ _ => "00"
  loads := fun _ => .ok payload
  connections := [⟨11,1,.whatsapp,.active,none,none,[("phone_number_id","p1")]⟩]
  enqueues := fun _ => true

def noNul : Database where
  takesText text := text.toList.all fun c => c.toNat ≠ 0
  takesRow id _ := id.toList.all fun c => c.toNat ≠ 0

theorem singleMatch_oneNumber (payload : Json) : SingleMatch (oneNumber payload).connections where
  phoneNumber _ := List.length_filter_le ..
  noPhoneNumber := List.length_filter_le ..
  account _ := List.length_filter_le ..
  noAccount := List.length_filter_le ..

theorem single_keepsOutcomes :
    letI := Interpreter.ascii id
    KeepsOutcomes (oneNumber single) noNul [] "sha256=00" := by
  let := Interpreter.ascii id
  refine (webhook_outcomes_iff (singleMatch_oneNumber single) noNul [] "sha256=00").mpr ?_
  have hascii : ("sha256=00".toList.drop 7).all (fun c => c.toNat < 128) = true := rfl
  refine ⟨fun _ c hc => of_decide_eq_true (List.all_eq_true.mp hascii c hc),
    fun _ => .inr ⟨single,rfl,⟨_,rfl⟩,?_⟩⟩
  have hread : single.read phoneNumberIdPath = .ok (.str "p1") := rfl
  refine ⟨fun err herr => by simp [hread] at herr,fun accountId hid => ?_⟩
  obtain rfl : .str "p1" = accountId := by simpa [hread] using hid
  exact ⟨.inr ⟨"p1",rfl,by decide +kernel⟩,fun hnone => by cases hnone⟩

/-- A signed body that is no object, and a header with a letter that is not ASCII. -/
theorem undeclared_outcomes :
    letI := Interpreter.ascii id
    (∀ payload, SingleMatch (oneNumber payload).connections) ∧
      ¬ KeepsOutcomes (oneNumber (.arr [])) noNul [] "sha256=00" ∧
      ¬ KeepsOutcomes (oneNumber single) noNul [] "sha256=é" := by
  let := Interpreter.ascii id
  exact ⟨singleMatch_oneNumber,fun h => h.declared rfl,fun h => h.declared rfl⟩

end Outcome
end Webhook
end LeadEngine
