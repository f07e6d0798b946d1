import LeadEngine.Schema

/-! Channel connections: the table, the encryption of stored credentials and the
lookups that route webhooks. -/
namespace LeadEngine
namespace Channels

open Table

abbrev Bytes := List UInt8

abbrev Credentials := List (String × Json)

/-- The library functions under `encrypt_credentials`: base64, AES-GCM and JSON. -/
structure AesGcm where
  urlsafeB64decode : String → Except Unit Bytes
  encrypt : Bytes → Bytes → Bytes → Bytes
  decrypt : Bytes → Bytes → Bytes → Except Unit Bytes
  dumps : Credentials → Bytes
  loads : Bytes → Except Unit Credentials

def nonceSize : ℕ := 12

def keySize : ℕ := 32

def decodeKey (aes : AesGcm) (key : String) : Except Unit Bytes :=
  match aes.urlsafeB64decode (key ++ "==") with
  | .error err => .error err
  | .ok raw => if raw.length = keySize then .ok raw else .error ()

/-- Nonce followed by ciphertext and tag; the nonce is drawn by the caller. -/
def encryptCredentials (aes : AesGcm) (nonce : Bytes) (payload : Credentials) (key : String) :
    Except Unit Bytes :=
  match decodeKey aes key with
  | .error err => .error err
  | .ok rawKey => .ok (nonce ++ aes.encrypt rawKey nonce (aes.dumps payload))

def decryptCredentials (aes : AesGcm) (blob : Bytes) (key : String) : Except Unit Credentials :=
  match decodeKey aes key with
  | .error err => .error err
  | .ok rawKey =>
    match aes.decrypt rawKey (blob.take nonceSize) (blob.drop nonceSize) with
    | .error err => .error err
    | .ok plaintext => aes.loads plaintext

inductive ChannelType
  | whatsapp | instagram | facebook | googleSheets | email
  deriving DecidableEq

inductive ConnectionStatus
  | active | inactive | expired
  deriving DecidableEq

structure ChannelConnection where
  id : UUID
  tenantId : UUID
  channelType : ChannelType
  status : ConnectionStatus
  credentialsEncrypted : Option Bytes
  expiresAt : Option Time
  connectionMetadata : List (String × String)
  deriving DecidableEq

/-- `connection_metadata[key].astext`. -/
def ChannelConnection.metadata? (c : ChannelConnection) (key : String) : Option String :=
  (c.connectionMetadata.find? fun e => e.1 = key).map Prod.snd

inductive LookupError
  | multipleResultsFound
  deriving DecidableEq

def getChannelConnection (table : List ChannelConnection) (connectionId : UUID) :
    Except LookupError (Option ChannelConnection) :=
  scalarOneOrNone .multipleResultsFound (table.filter fun c => c.id = connectionId)

def MatchesPhoneNumberId (phoneNumberId : String) (c : ChannelConnection) : Prop :=
  c.channelType = .whatsapp ∧ c.status = .active ∧
    c.metadata? "phone_number_id" = some phoneNumberId

def MatchesAccountId (accountId : String) (c : ChannelConnection) : Prop :=
  c.status = .active ∧ (c.channelType = .facebook ∨ c.channelType = .instagram) ∧
    (c.metadata? "page_id" = some accountId ∨ c.metadata? "ig_account_id" = some accountId)

instance (id : String) : DecidablePred (MatchesPhoneNumberId id) := fun _ => by
  unfold MatchesPhoneNumberId; infer_instance

instance (id : String) : DecidablePred (MatchesAccountId id) := fun _ => by
  unfold MatchesAccountId; infer_instance

def getWhatsappConnectionByPhoneNumberId (table : List ChannelConnection) (phoneNumberId : String) :
    Except LookupError (Option ChannelConnection) :=
  scalarOneOrNone .multipleResultsFound
    (table.filter fun c => MatchesPhoneNumberId phoneNumberId c)

def getConnectionByPageOrIgAccountId (table : List ChannelConnection) (accountId : String) :
    Except LookupError (Option ChannelConnection) :=
  scalarOneOrNone .multipleResultsFound (table.filter fun c => MatchesAccountId accountId c)

end Channels
end LeadEngine
