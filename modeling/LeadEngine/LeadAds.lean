import LeadEngine.Channels
import LeadEngine.Normaliser
import LeadEngine.Pipeline

/-! The Lead Ads job: fetch the submitted fields from the Graph API and capture them. -/
namespace LeadEngine
namespace LeadAds

open Interpreter Channels Normaliser Pipeline Repository

structure LeadAdPayload where
  tenantId : UUID
  channelConnectionId : UUID
  leadgenId : String
  rawPayload : Option (List (String × Json))

/-- `fetch_lead_fields` fails with `ExternalServiceError` or with anything else. -/
inductive FetchError
  | externalService | other
  deriving DecidableEq

/-- What surrounds one run of the job: the connections, the encryption key, the Graph API
and the worker's iteration order of the set of location fields. -/
structure LeadAdEnv where
  connections : List ChannelConnection
  aes : AesGcm
  encryptionKey : String
  fetchLeadFields : String → Json → Except FetchError (List FieldItem)
  locationOrder : List String

inductive LeadAdError
  | lookup (err : LookupError)
  | credentials
  | keyError
  | fetch
  | capture (err : CaptureError)
  deriving DecidableEq

inductive FetchOutcome
  | skipped
  | raised (err : LeadAdError)
  | failed
  | fetched (fieldData : List FieldItem)

/-- The steps before the database is written: connection, credentials, Graph call. -/
def fetchFields (env : LeadAdEnv) (job : LeadAdPayload) : FetchOutcome :=
  match getChannelConnection env.connections job.channelConnectionId with
  | .error err => .raised (.lookup err)
  | .ok none => .skipped
  | .ok (some connection) =>
    match connection.credentialsEncrypted with
    | none | some [] => .skipped
    | some blob =>
      match decryptCredentials env.aes blob env.encryptionKey with
      | .error _ => .raised .credentials
      | .ok creds =>
        match (Json.obj creds).get? "page_access_token" with
        | none => .raised .keyError
        | some token =>
          match env.fetchLeadFields job.leadgenId token with
          | .error .externalService => .failed
          | .error .other => .raised .fetch
          | .ok fieldData => .fetched fieldData

section Job

variable [Interpreter]

def leadAdEvent (env : LeadAdEnv) (job : LeadAdPayload) (fieldData : List FieldItem) :
    NormalisedChannelEvent :=
  normaliseLeadAdForm env.locationOrder fieldData job.leadgenId job.tenantId
    (some job.channelConnectionId) job.rawPayload

/-- The store after the job and the announcement of the captured lead, if any. -/
def runLeadAdCapture (s : Store) (f : Fresh) (env : LeadAdEnv) (job : LeadAdPayload) :
    Except LeadAdError (Store × Option LeadReceived) :=
  match fetchFields env job with
  | .skipped => .ok (s,none)
  | .raised err => .error err
  | .failed =>
    .ok (logFailedIntakeEvent s f (leadAdEventId job.leadgenId) .facebookLeadAds
      (.obj (job.rawPayload.getD [])) (some job.tenantId),none)
  | .fetched fieldData =>
    match runCapture s f (leadAdEvent env job fieldData) with
    | .error err => .error (.capture err)
    | .ok (s',captured) => .ok (s',captured.received)

theorem runLeadAdCapture_ok {s s' : Store} {f : Fresh} {env : LeadAdEnv} {job : LeadAdPayload}
    {received : Option LeadReceived} (h : runLeadAdCapture s f env job = .ok (s',received)) :
    s' = s ∨
      s' = logFailedIntakeEvent s f (leadAdEventId job.leadgenId) .facebookLeadAds
        (.obj (job.rawPayload.getD [])) (some job.tenantId) ∨
      ∃ fieldData captured, fetchFields env job = .fetched fieldData ∧
        runCapture s f (leadAdEvent env job fieldData) = .ok (s',captured) := by
  unfold runLeadAdCapture at h
  split at h
  · exact .inl (Prod.mk.inj (Except.ok.inj h)).1.symm
  · cases h
  · exact .inr (.inl (Prod.mk.inj (Except.ok.inj h)).1.symm)
  · rename_i fieldData hfetch
    split at h
    · cases h
    · rename_i s₁ captured hcapture
      obtain ⟨rfl,_⟩ := Prod.mk.inj (Except.ok.inj h)
      exact .inr (.inr ⟨fieldData,captured,hfetch,hcapture⟩)

end Job

end LeadAds
end LeadEngine
