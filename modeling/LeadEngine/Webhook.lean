import LeadEngine.JsonPath
import LeadEngine.LeadAds

/-! The Meta webhook: the signature check, the routing of a payload by the first account in
it, the message adapters and the two jobs it enqueues. -/
namespace LeadEngine
namespace Webhook

open Table Json Interpreter Channels LeadAds Normaliser Pipeline

inductive SignatureError
  | missingPrefix | mismatch | nonAscii
  deriving DecidableEq

inductive LoadsError
  | jsonDecode | other
  deriving DecidableEq

inductive Job
  | runLeadCapture (tenantId channelConnectionId : UUID) (rawPayload : Json)
  | runLeadAdCapture (job : LeadAdPayload)

/-- The endpoint's settings and what it calls: HMAC-SHA256 as hex text, `json.loads`, the
table of connections and the queue, which may refuse a job. -/
structure Endpoint where
  appSecret : String
  hmacSha256 : String → Bytes → String
  loads : Bytes → Except LoadsError Json
  connections : List ChannelConnection
  enqueues : Job → Bool

/-- A webhook is signed by its digest; `compare_digest` takes ASCII text only. -/
def validateSignature (env : Endpoint) (rawBody : Bytes) (signatureHeader : String) :
    Except SignatureError Unit :=
  if "sha256=".toList.isPrefixOf signatureHeader.toList then
    let received := String.ofList (signatureHeader.toList.drop 7)
    if received.toList.all fun c => c.toNat < 128 then
      if env.hmacSha256 env.appSecret rawBody = received then .ok () else .error .mismatch
    else .error .nonAscii
  else .error .missingPrefix

inductive HttpError
  | invalidSignature | invalidJson | queueUnavailable | internal
  deriving DecidableEq

structure Unroutable where
  platformEventId : String
  source : LeadSource
  deriving DecidableEq

inductive Reply
  | ignored
  | unknownConnection (logged : Option Unroutable)
  | received (job : Job)

inductive ObjectType
  | whatsappBusinessAccount | page | instagram
  deriving DecidableEq

def ObjectType.ofValue : Json → Option ObjectType
  | .str "whatsapp_business_account" => some .whatsappBusinessAccount
  | .str "page" => some .page
  | .str "instagram" => some .instagram
  | _ => none

def objectType (payload : Json) : Except ReadError (Option ObjectType) :=
  (payload.dictGet "object" (.str "")).map ObjectType.ofValue

def valuePath : List Access := [.key "entry",.first,.key "changes",.first,.key "value"]

def phoneNumberIdPath : List Access := valuePath ++ [.key "metadata",.key "phone_number_id"]

def messageIdPath : List Access := valuePath ++ [.key "messages",.first,.key "id"]

def accountIdPath : List Access := [.key "entry",.first,.key "id"]

def changeFieldPath : List Access := [.key "entry",.first,.key "changes",.first,.key "field"]

def leadgenIdPath : List Access := valuePath ++ [.key "leadgen_id"]

def messagingPath : List Access := [.key "entry",.first,.key "messaging",.first]

def midPath : List Access := messagingPath ++ [.key "message",.key "mid"]

/-- `except (KeyError, IndexError)`; any other exception is a 500. -/
def attempt : Except ReadError Json → Except HttpError (Option Json)
  | .ok v => .ok (some v)
  | .error .keyError | .error .indexError => .ok none
  | .error _ => .error .internal

/-- The lookup by phone number id; `None` is compared with `IS NULL`. -/
def whatsappConnection (table : List ChannelConnection) :
    Json → Except HttpError (Option ChannelConnection)
  | .str id => (getWhatsappConnectionByPhoneNumberId table id).mapError fun _ => .internal
  | .null => scalarOneOrNone .internal (table.filter fun c => c.channelType = .whatsapp ∧
      c.status = .active ∧ c.metadata? "phone_number_id" = none)
  | _ => .error .internal

def accountConnection (table : List ChannelConnection) :
    Json → Except HttpError (Option ChannelConnection)
  | .str id => (getConnectionByPageOrIgAccountId table id).mapError fun _ => .internal
  | .null => scalarOneOrNone .internal (table.filter fun c => c.status = .active ∧
      (c.channelType = .facebook ∨ c.channelType = .instagram) ∧
      (c.metadata? "page_id" = none ∨ c.metadata? "ig_account_id" = none))
  | _ => .error .internal

def enqueue (env : Endpoint) (job : Job) : Except HttpError Reply :=
  if env.enqueues job then .ok (.received job) else .error .queueUnavailable

/-- Log an event without a connection; the event id column takes text only. -/
def unroutable (source : LeadSource) (eventId : Except ReadError Json) : Except HttpError Reply :=
  match attempt eventId with
  | .error err => .error err
  | .ok none => .ok (.unknownConnection none)
  | .ok (some (.str id)) => .ok (.unknownConnection (some ⟨id,source⟩))
  | .ok (some _) => .error .internal

def routeWhatsapp (env : Endpoint) (payload : Json) : Except HttpError Reply :=
  match attempt (payload.read phoneNumberIdPath) with
  | .error err => .error err
  | .ok none => .ok .ignored
  | .ok (some phoneNumberId) =>
    match whatsappConnection env.connections phoneNumberId with
    | .error err => .error err
    | .ok none => unroutable .whatsapp (payload.read messageIdPath)
    | .ok (some connection) =>
      enqueue env (.runLeadCapture connection.tenantId connection.id payload)

section Routing

variable [Interpreter]

def routeLeadAd (env : Endpoint) (payload pageId : Json) : Except HttpError Reply :=
  match attempt (payload.read leadgenIdPath) with
  | .error err => .error err
  | .ok none => .ok .ignored
  | .ok (some leadgenId) =>
    match accountConnection env.connections pageId with
    | .error err => .error err
    | .ok none =>
      .ok (.unknownConnection (some ⟨leadAdEventId (str leadgenId),.facebookLeadAds⟩))
    | .ok (some connection) =>
      enqueue env (.runLeadAdCapture
        ⟨connection.tenantId,connection.id,str leadgenId,fields? payload⟩)

def routeFacebookInstagram (env : Endpoint) (object : ObjectType) (payload : Json) :
    Except HttpError Reply :=
  match attempt (payload.read accountIdPath) with
  | .error err => .error err
  | .ok none => .ok .ignored
  | .ok (some accountId) =>
    match attempt (payload.read changeFieldPath) with
    | .error err => .error err
    | .ok changeField =>
      if changeField.bind text? = some "leadgen" then routeLeadAd env payload accountId
      else
        match accountConnection env.connections accountId with
        | .error err => .error err
        | .ok none =>
          unroutable (if object = .page then .facebook else .instagram) (payload.read midPath)
        | .ok (some connection) =>
          enqueue env (.runLeadCapture connection.tenantId connection.id payload)

/-- The answer to a payload whose signature is valid. -/
def routePayload (env : Endpoint) (payload : Json) : Except HttpError Reply :=
  match objectType payload with
  | .error _ => .error .internal
  | .ok none => .ok .ignored
  | .ok (some .whatsappBusinessAccount) => routeWhatsapp env payload
  | .ok (some object) => routeFacebookInstagram env object payload

def receiveWebhook (env : Endpoint) (rawBody : Bytes) (signature : String) :
    Except HttpError Reply :=
  match validateSignature env rawBody signature with
  | .error .nonAscii => .error .internal
  | .error _ => .error .invalidSignature
  | .ok () =>
    match env.loads rawBody with
    | .error .jsonDecode => .error .invalidJson
    | .error .other => .error .internal
    | .ok payload => routePayload env payload

end Routing

/-- `contacts[0].get("profile", {}).get("name") or None`, if there are contacts. -/
def contactName (contacts : Json) : Except ReadError (Option String) :=
  if contacts.truth then
    (contacts.read [.first]).bind fun contact =>
      (contact.dictGet "profile" (.obj [])).bind fun profile =>
        (profile.dictGet "name" .null).bind asTextOrNone
  else .ok none

/-- The body of a text message; any other message has no text. -/
def messageText (message : Json) : Except ReadError (Option String) :=
  (message.dictGet "type" .null).bind fun kind =>
    if kind.text? = some "text" then
      (message.dictGet "text" (.obj [])).bind fun text =>
        (text.dictGet "body" .null).bind asTextOrNone
    else .ok none

/-- `_raw_phone if _raw_phone.startswith("+") else f"+{_raw_phone}"`. -/
def senderPhone : Json → Except ReadError String
  | .str phone => .ok (if phone.toList.head? = some '+' then phone
      else String.ofList ('+' :: phone.toList))
  | _ => .error .attributeError

def normaliseWhatsappMessage (payload : Json) (tenantId : UUID)
    (channelConnectionId : Option UUID) : Except ReadError NormalisedChannelEvent :=
  (payload.read valuePath).bind fun value =>
  (value.read [.key "messages",.first]).bind fun message =>
  (value.dictGet "contacts" (.arr [])).bind fun contacts =>
  (message.read [.key "id"]).bind fun messageId =>
  ((message.read [.key "from"]).bind senderPhone).bind fun phone =>
  (contactName contacts).bind fun fullName =>
  (messageText message).bind fun rawText =>
  messageId.asText.map fun platformEventId => {
    tenantId := tenantId
    channelConnectionId := channelConnectionId
    source := .whatsapp
    platformEventId := platformEventId
    fullName := fullName
    phone := some phone
    email := none
    location := none
    rawText := rawText
    rawEventJson := payload
    extraFields := .empty }

section Jobs

variable [Interpreter]

/-- A direct message; one without an id is named after its sender. -/
def normaliseDm (mark : String) (source : LeadSource) (payload : Json) (tenantId : UUID)
    (channelConnectionId : Option UUID) : Except ReadError NormalisedChannelEvent :=
  (payload.read messagingPath).bind fun messaging =>
  (messaging.read [.key "sender",.key "id"]).bind fun sender =>
  (messaging.dictGet "message" (.obj [])).bind fun message =>
  (message.dictGet "mid" (.str (mark ++ str sender))).bind fun messageId =>
  ((message.dictGet "text" .null).bind asTextOrNone).bind fun rawText =>
  messageId.asText.map fun platformEventId => {
    tenantId := tenantId
    channelConnectionId := channelConnectionId
    source := source
    platformEventId := platformEventId
    fullName := none
    phone := none
    email := none
    location := none
    rawText := rawText
    rawEventJson := payload
    extraFields := .empty }

def normaliseInstagramDm := normaliseDm "ig-" .instagram

def normaliseFacebookDm := normaliseDm "fb-" .facebook

/-- The event that `run_lead_capture` hands to the pipeline; a WhatsApp payload without
messages, such as a delivery receipt, has none. -/
def readEvent (payload : Json) (tenantId : UUID) (channelConnectionId : Option UUID) :
    Except ReadError (Option NormalisedChannelEvent) :=
  (objectType payload).bind fun
    | none => .ok none
    | some .whatsappBusinessAccount =>
      ((payload.read valuePath).bind (contains "messages")).bind fun found =>
        if found then
          (normaliseWhatsappMessage payload tenantId channelConnectionId).map some
        else .ok none
    | some .page => (normaliseFacebookDm payload tenantId channelConnectionId).map some
    | some .instagram => (normaliseInstagramDm payload tenantId channelConnectionId).map some

inductive JobError
  | read (err : ReadError)
  | message (err : MessageError)
  | leadAd (err : LeadAdError)
  deriving DecidableEq

structure JobEnv where
  answers : Answers
  leadAds : LeadAdEnv

def runLeadCapture (s : Store) (f : Fresh) (ans : Answers) (tenantId : UUID)
    (channelConnectionId : Option UUID) (rawPayload : Json) : Except JobError Store :=
  match readEvent rawPayload tenantId channelConnectionId with
  | .error err => .error (.read err)
  | .ok none => .ok s
  | .ok (some e) => ((runCaptureMessage s f e ans).mapError .message).map Prod.fst

def Job.run (s : Store) (f : Fresh) (env : JobEnv) : Job → Except JobError Store
  | .runLeadCapture tenantId channelConnectionId rawPayload =>
    Webhook.runLeadCapture s f env.answers tenantId (some channelConnectionId) rawPayload
  | .runLeadAdCapture job =>
    ((LeadAds.runLeadAdCapture s f env.leadAds job).mapError .leadAd).map Prod.fst

/-- The committed rows once the job has returned or raised. -/
def Job.after (s : Store) (f : Fresh) (env : JobEnv) (job : Job) : Store :=
  match job.run s f env with
  | .ok s' => s'
  | .error _ => s

end Jobs

end Webhook
end LeadEngine
