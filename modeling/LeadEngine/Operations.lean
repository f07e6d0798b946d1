import LeadEngine.FileUpload
import LeadEngine.LeadAds
import LeadEngine.Retention

/-! The operations that write the lead tables, each run as one transaction, and the
write that an operation processing one inbound event comes down to. -/
namespace LeadEngine
namespace History

open Interpreter Repository Pipeline FileUpload LeadAds Retention Normaliser

/-- How an operation ends without a commit. -/
inductive Raised
  | database (err : CaptureError)
  | message (err : MessageError)
  | upload (err : UploadError)
  | leadAd (err : LeadAdError)
  deriving DecidableEq

def messageRaised : MessageError → Raised
  | .capture err => .database err
  | err => .message err

def uploadRaised : UploadError → Raised
  | .capture err => .database err
  | err => .upload err

def leadAdRaised : LeadAdError → Raised
  | .capture err => .database err
  | err => .leadAd err

/-- The operations that write the lead tables. -/
inductive Op
  | runCapture (e : NormalisedChannelEvent)
  | createTerminalLead (e : NormalisedChannelEvent) (stage : TerminalStage)
      (blockReason : Option String)
  | runCaptureMessage (e : NormalisedChannelEvent) (ans : Answers)
  | inlineRow (tenantId : UUID) (row : Row)
  | batchRow (tenantId : UUID) (row : Row)
  | runLeadAdCapture (env : LeadAdEnv) (job : LeadAdPayload)
  | logUnroutableEvent (platformEventId : String) (source : LeadSource) (raw : Json)
  | logFailedIntakeEvent (platformEventId : String) (source : LeadSource) (raw : Json)
      (tenantId : Option UUID)
  | eraseLeadByIdentity (tenantId : UUID) (phone email : Option String) (requestedBy : String)
  | runRetentionSweep (settings : RetentionSettings)

/-- What a capture function's caller keeps: the store and the announcement. -/
def returned {ε : Type} (raised : ε → Raised) :
    Except ε (Store × Captured) → Except Raised (Store × Option LeadReceived)
  | .error err => .error (raised err)
  | .ok (s,captured) => .ok (s,captured.received)

def raisedBy {α : Type} : Except Raised α → Option Raised
  | .error err => some err
  | .ok _ => none

theorem raisedBy_eq_some {α : Type} {x : Except Raised α} {err : Raised} :
    raisedBy x = some err ↔ x = .error err := by
  cases x <;> simp [raisedBy]

variable [Interpreter]

def Op.exec (s : Store) (f : Fresh) : Op → Except Raised (Store × Option LeadReceived)
  | .runCapture e => returned .database (Pipeline.runCapture s f e)
  | .createTerminalLead e stage blockReason =>
    returned .database (Pipeline.createTerminalLead s f e stage blockReason)
  | .runCaptureMessage e ans => returned messageRaised (Pipeline.runCaptureMessage s f e ans)
  | .inlineRow tenantId row => returned uploadRaised (FileUpload.inlineRow s f tenantId row)
  | .batchRow tenantId row => returned uploadRaised (FileUpload.batchRow s f tenantId row)
  | .runLeadAdCapture env job => (LeadAds.runLeadAdCapture s f env job).mapError leadAdRaised
  | .logUnroutableEvent platformEventId source raw =>
    .ok (Repository.logUnroutableEvent s f platformEventId source raw,none)
  | .logFailedIntakeEvent platformEventId source raw tenantId =>
    .ok (Repository.logFailedIntakeEvent s f platformEventId source raw tenantId,none)
  | .eraseLeadByIdentity tenantId phone email requestedBy =>
    .ok ((Erasure.eraseLeadByIdentity s f.now tenantId phone email requestedBy).1,none)
  | .runRetentionSweep settings => .ok ((Retention.runRetentionSweep s f.now settings).1,none)

/-- The event a row of an upload is captured as, if it has an identity. -/
def rowRoute (prepare : NormalisedChannelEvent → NormalisedChannelEvent) (tenantId : UUID)
    (row : Row) : Option Route :=
  match normaliseFileRow row tenantId with
  | .error _ => none
  | .ok e => if LacksIdentity (prepare e) then none else some (.capture (prepare e))

/-- The write an operation comes down to when it processes one inbound event. -/
def Op.route : Op → Option Route
  | .runCapture e => some (.capture e)
  | .createTerminalLead e stage blockReason => some (.terminal e stage blockReason)
  | .runCaptureMessage e ans => (routeMessage e ans).toOption
  | .inlineRow tenantId row => rowRoute stripEvent tenantId row
  | .batchRow tenantId row => rowRoute id tenantId row
  | .runLeadAdCapture env job =>
    match fetchFields env job with
    | .fetched fieldData => some (.capture (leadAdEvent env job fieldData))
    | _ => none
  | _ => none

theorem rowRoute_eq_some {prepare : NormalisedChannelEvent → NormalisedChannelEvent}
    {tenantId : UUID} {row : Row} {route : Route}
    (h : rowRoute prepare tenantId row = some route) :
    ∃ e, normaliseFileRow row tenantId = .ok e ∧ ¬ LacksIdentity (prepare e) ∧
      route = .capture (prepare e) := by
  unfold rowRoute at h
  split at h
  · simp at h
  · rename_i e he
    split_ifs at h with hid
    exact ⟨e,he,hid,by simpa using h.symm⟩

theorem lacksIdentity_of_rowRoute {prepare : NormalisedChannelEvent → NormalisedChannelEvent}
    {tenantId : UUID} {row : Row} {e : NormalisedChannelEvent}
    (he : normaliseFileRow row tenantId = .ok e) (hnone : rowRoute prepare tenantId row = none) :
    LacksIdentity (prepare e) := by
  by_contra hid
  simp [rowRoute,he,hid] at hnone

theorem returned_capture (s : Store) (f : Fresh) (tenantId : UUID) (row : Row)
    {e : NormalisedChannelEvent} (h : ¬ LacksIdentity e) :
    returned uploadRaised (storeRow s f tenantId row e) =
      returned .database (Pipeline.runCapture s f e) := by
  rw [storeRow_capture h]
  cases Pipeline.runCapture s f e <;> rfl

/-- An operation that processes an event runs that event's write and nothing else. -/
theorem Op.exec_route {op : Op} {route : Route} (h : op.route = some route) (s : Store)
    (f : Fresh) : op.exec s f = returned .database (route.run s f) := by
  cases op with
  | runCapture e =>
    obtain rfl : Route.capture e = route := by simpa [Op.route] using h
    rfl
  | createTerminalLead e stage reason =>
    obtain rfl : Route.terminal e stage reason = route := by simpa [Op.route] using h
    rfl
  | runCaptureMessage e ans =>
    cases hr : routeMessage e ans with
    | error err => simp [Op.route,hr,Except.toOption] at h
    | ok r =>
      obtain rfl : r = route := by simpa [Op.route,hr,Except.toOption] using h
      simp only [Op.exec,Pipeline.runCaptureMessage,hr]
      cases r.run s f <;> rfl
  | inlineRow t row =>
    obtain ⟨e,he,hid,rfl⟩ := rowRoute_eq_some h
    simp only [Op.exec,FileUpload.inlineRow,he]
    exact returned_capture s f t row hid
  | batchRow t row =>
    obtain ⟨e,he,hid,rfl⟩ := rowRoute_eq_some h
    simp only [Op.exec,FileUpload.batchRow,he]
    exact returned_capture s f t row hid
  | runLeadAdCapture env job =>
    cases hf : fetchFields env job with
    | fetched fieldData =>
      obtain rfl : Route.capture (leadAdEvent env job fieldData) = route := by
        simpa [Op.route,hf] using h
      simp only [Op.exec,LeadAds.runLeadAdCapture,hf,Route.run]
      cases Pipeline.runCapture s f (leadAdEvent env job fieldData) <;> rfl
    | _ => simp [Op.route,hf] at h
  | _ => simp [Op.route] at h

end History
end LeadEngine
