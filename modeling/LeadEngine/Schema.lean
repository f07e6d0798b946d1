import LeadEngine.Interpreter
import LeadEngine.Table

/-! The tables of the lead ingestion module and the values its functions exchange. -/
namespace LeadEngine

abbrev UUID := ℕ

/-- Seconds since the epoch, in UTC. -/
abbrev Time := ℤ

def datetimeMin : Time := -62135596800

def datetimeMax : Time := 253402300799

/-- `now + timedelta(seconds=n)`; a sum outside the range raises `OverflowError`. -/
def addSeconds (now : Time) (n : ℤ) : Option Time :=
  if datetimeMin ≤ now + n ∧ now + n ≤ datetimeMax then some (now + n) else none

theorem addSeconds_eq_some {now t : Time} {n : ℤ} :
    addSeconds now n = some t ↔ t = now + n ∧ datetimeMin ≤ t ∧ t ≤ datetimeMax := by
  unfold addSeconds
  split_ifs with h
  · rw [Option.some.injEq]
    constructor
    · rintro rfl
      exact ⟨rfl,h⟩
    · exact fun ht => ht.1.symm
  · refine iff_of_false (by simp) ?_
    rintro ⟨rfl,hrange⟩
    exact h hrange

inductive LeadSource
  | googleSheets | email | whatsapp | instagram | facebook | facebookLeadAds | fileUpload
  deriving DecidableEq

/-- The stages `create_terminal_lead` and `_write_blocked_lead` are called with. -/
inductive TerminalStage
  | insufficientSignal | existingCustomer | preFlightBlocked
  deriving DecidableEq

inductive PipelineStage
  | captured | terminal (stage : TerminalStage) | erased | anonymised
  deriving DecidableEq

inductive IntakeStatus
  | pending | received | duplicate | terminal (stage : TerminalStage) | unroutable | failed
  deriving DecidableEq

/-- A `raw_event_json` column: the inbound payload, or the tombstone that replaced it. -/
inductive RawEventJson
  | payload (event : Json)
  | erased (erasedAt : Time)
  | anonymised (anonymisedAt : Time)

def RawEventJson.Tombstoned : RawEventJson → Prop
  | .payload _ => False
  | .erased _ | .anonymised _ => True

instance : DecidablePred RawEventJson.Tombstoned := fun
  | .payload _ => inferInstanceAs (Decidable False)
  | .erased _ | .anonymised _ => inferInstanceAs (Decidable True)

structure NormalisedChannelEvent where
  tenantId : UUID
  channelConnectionId : Option UUID
  source : LeadSource
  platformEventId : String
  fullName : Option String
  phone : Option String
  email : Option String
  location : Option String
  rawText : Option String
  rawEventJson : Json
  extraFields : Dict String Json

def NormalisedChannelEvent.ofMessage (tenantId : UUID) (platformEventId : String)
    (fullName phone email location : Option String) (text : String) : NormalisedChannelEvent where
  tenantId := tenantId
  channelConnectionId := none
  source := .whatsapp
  platformEventId := platformEventId
  fullName := fullName
  phone := phone
  email := email
  location := location
  rawText := some text
  rawEventJson := .obj [("text",.str text)]
  extraFields := .empty

structure Lead where
  id : UUID
  tenantId : UUID
  channelConnectionId : Option UUID
  pipelineStage : PipelineStage
  sourceChannel : LeadSource
  fullName : Option String
  phone : Option String
  email : Option String
  location : Option String
  rawEventJson : RawEventJson
  extraFields : Option (Dict String Json)
  preFlightBlockReason : Option String
  createdAt : Time

structure IntakeEventLog where
  id : UUID
  tenantId : Option UUID
  leadId : Option UUID
  platformEventId : String
  sourceChannel : LeadSource
  status : IntakeStatus
  rawEventJson : RawEventJson
  createdAt : Time

structure LeadTouchpoint where
  id : UUID
  leadId : UUID
  platformEventId : Option String
  sourceChannel : LeadSource
  rawEventJson : RawEventJson

structure RetentionEventLog where
  leadId : UUID
  tenantId : UUID
  retentionDaysApplied : ℤ

inductive IdentifierType
  | phone | email
  deriving DecidableEq

structure ErasureEventLog where
  tenantId : UUID
  erasedLeadIds : List UUID
  identifierType : IdentifierType
  identifierHash : String
  requestedBy : String

/-- The committed rows of the five lead ingestion tables. -/
structure Store where
  leads : List Lead
  logs : List IntakeEventLog
  touchpoints : List LeadTouchpoint
  retentionLogs : List RetentionEventLog
  erasureLogs : List ErasureEventLog

def Store.empty : Store := ⟨[],[],[],[],[]⟩

/-- What one transaction draws from outside: its `uuid4()` values and the clock. -/
structure Fresh where
  logId : UUID
  leadId : UUID
  touchpointId : UUID
  now : Time

def Fresh.nth (n : ℕ) : Fresh := ⟨n,n,n,n⟩

/-- `uuid4()` never repeats an identifier that is already stored. -/
structure Fresh.For (f : Fresh) (s : Store) : Prop where
  log : ∀ r ∈ s.logs, r.id ≠ f.logId
  lead : ∀ l ∈ s.leads, l.id ≠ f.leadId
  touchpoint : ∀ t ∈ s.touchpoints, t.id ≠ f.touchpointId

/-- The draws of several transactions are new to the store and differ from one another. -/
structure Drawn {ι : Type} (draws : ι → Fresh) (s : Store) : Prop where
  fresh : ∀ i, (draws i).For s
  logIds : Function.Injective fun i => (draws i).logId
  leadIds : Function.Injective fun i => (draws i).leadId
  touchpointIds : Function.Injective fun i => (draws i).touchpointId

structure LeadReceived where
  tenantId : UUID
  leadId : UUID
  source : LeadSource
  deriving DecidableEq

inductive LeadIndex
  | uqLeadTenantPhone | uqLeadTenantEmail
  deriving DecidableEq

inductive CaptureError
  | noLinkedLead (platformEventId : String)
  | multipleResultsFound
  | integrityError (index : LeadIndex)
  deriving DecidableEq

namespace Lead

def phoneKey (l : Lead) : Option (UUID × String) := l.phone.map (l.tenantId,·)

def emailKey (l : Lead) : Option (UUID × String) := l.email.map (l.tenantId,·)

/-- The name and location pair; an empty string is no identity. -/
def placeKey (l : Lead) : Option (UUID × String × String) :=
  match Interpreter.truthy l.fullName,Interpreter.truthy l.location with
  | some name,some place => some (l.tenantId,name,place)
  | _,_ => none

@[simp] theorem phoneKey_eq_some {l : Lead} {t : UUID} {p : String} :
    l.phoneKey = some (t,p) ↔ l.tenantId = t ∧ l.phone = some p := by
  cases h : l.phone <;> simp [phoneKey,h]

@[simp] theorem emailKey_eq_some {l : Lead} {t : UUID} {m : String} :
    l.emailKey = some (t,m) ↔ l.tenantId = t ∧ l.email = some m := by
  cases h : l.email <;> simp [emailKey,h]

@[simp] theorem placeKey_eq_some {l : Lead} {t : UUID} {n p : String} :
    l.placeKey = some (t,n,p) ↔
      l.tenantId = t ∧ Interpreter.truthy l.fullName = some n ∧
        Interpreter.truthy l.location = some p := by
  unfold placeKey
  split
  · rename_i hn hp
    simp [hn,hp]
  · rename_i h
    constructor
    · intro hk
      simp at hk
    · rintro ⟨_,hn,hp⟩
      exact absurd hp (h n p hn)

end Lead

/-- `session.add(lead)` and flush, under the two partial unique indexes. -/
def Store.insertLead (s : Store) (l : Lead) : Except CaptureError Store :=
  if Table.Conflicts Lead.phoneKey s.leads l then .error (.integrityError .uqLeadTenantPhone)
  else if Table.Conflicts Lead.emailKey s.leads l then .error (.integrityError .uqLeadTenantEmail)
  else .ok { s with leads := s.leads ++ [l] }

theorem Store.insertLead_eq_ok {s s' : Store} {l : Lead} :
    s.insertLead l = .ok s' ↔ ¬ Table.Conflicts Lead.phoneKey s.leads l ∧
      ¬ Table.Conflicts Lead.emailKey s.leads l ∧ s' = { s with leads := s.leads ++ [l] } := by
  unfold insertLead
  split_ifs with hp he
  · simp [hp]
  · simp [hp,he]
  · simp [hp,he,eq_comm]

end LeadEngine
