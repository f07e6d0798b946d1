import LeadEngine.DataPolicy
import LeadEngine.Normaliser
import LeadEngine.Pipeline

/-! The two upload paths: the inline loop of `handle_file_upload` and the batch job
`run_lead_capture_batch`. -/
namespace LeadEngine
namespace FileUpload

open Interpreter TwoStageFilter Pipeline Normaliser DataPolicy

def maxFileSize : ℕ := 10 * 1024 * 1024

def maxRows : ℕ := 5000

def syncThreshold : ℕ := 100

/-- A parsed row: every value by its `str()`, or `none`. -/
abbrev RawRow := Dict (Option String) (Option String)

def stringifyRow (row : RawRow) : Row := row.mapValues fun v => v.getD ""

inductive UploadError
  | http (status : ℕ) (detail : String)
  | parse
  | configRead
  | queue
  | row (err : RowError)
  | capture (err : CaptureError)
  deriving DecidableEq

/-- The lead of a row without any identifier. -/
def blockedLead (f : Fresh) (tenantId : UUID) (row : Row) (extraFields : Dict String Json)
    (reason : String) : Lead where
  id := f.leadId
  tenantId := tenantId
  channelConnectionId := none
  pipelineStage := .terminal .preFlightBlocked
  sourceChannel := .fileUpload
  fullName := none
  phone := none
  email := none
  location := none
  rawEventJson := .payload
    (.obj (((stringCells row.entries).getD []).map fun c => (c.1,.str c.2)))
  extraFields := if extraFields.isEmpty then none else some extraFields
  preFlightBlockReason := some reason
  createdAt := f.now

/-- `not event.phone and not event.email and not event.full_name`. -/
def LacksIdentity (e : NormalisedChannelEvent) : Prop :=
  truthy e.phone = none ∧ truthy e.email = none ∧ truthy e.fullName = none

instance (e : NormalisedChannelEvent) : Decidable (LacksIdentity e) := by
  unfold LacksIdentity; infer_instance

theorem insert_blockedLead (s : Store) (f : Fresh) (tenantId : UUID) (row : Row)
    (extraFields : Dict String Json) (reason : String) :
    s.insertLead (blockedLead f tenantId row extraFields reason) =
      .ok { s with leads := s.leads ++ [blockedLead f tenantId row extraFields reason] } := by
  refine Store.insertLead_eq_ok.mpr ⟨?_,?_,rfl⟩
  · rintro ⟨_,_,_,hsome⟩
    simp [Lead.phoneKey,blockedLead] at hsome
  · rintro ⟨_,_,_,hsome⟩
    simp [Lead.emailKey,blockedLead] at hsome

section Rows

variable [Interpreter]

/-- Remove regulated identifiers from the extra fields of an event. -/
def stripEvent (e : NormalisedChannelEvent) : NormalisedChannelEvent :=
  if e.extraFields.isEmpty then e
  else
    let (clean,stripped) := stripSensitiveFields e.extraFields
    if stripped.isEmpty then e else { e with extraFields := clean }

/-- The branch both paths share once the event is built: a blocked lead for a row
without identity, the capture pipeline for the rest. -/
def storeRow (s : Store) (f : Fresh) (tenantId : UUID) (row : Row) (e : NormalisedChannelEvent) :
    Except UploadError (Store × Captured) :=
  if LacksIdentity e then
    let blocked := blockedLead f tenantId row e.extraFields "insufficient_identity_fields"
    match s.insertLead blocked with
    | .error err => .error (.capture err)
    | .ok s' => .ok (s',⟨blocked,none⟩)
  else
    match runCapture s f e with
    | .error err => .error (.capture err)
    | .ok result => .ok result

def inlineRow (s : Store) (f : Fresh) (tenantId : UUID) (row : Row) :
    Except UploadError (Store × Captured) :=
  match normaliseFileRow row tenantId with
  | .error err => .error (.row err)
  | .ok event => storeRow s f tenantId row (stripEvent event)

def batchRow (s : Store) (f : Fresh) (tenantId : UUID) (row : Row) :
    Except UploadError (Store × Captured) :=
  match normaliseFileRow row tenantId with
  | .error err => .error (.row err)
  | .ok event => storeRow s f tenantId row event

/-- Row `i` draws `draws i`. The ids of the leads are kept, their announcements are not.
A row that raises ends the loop; the rows before it stay. -/
def inlineLoop (draws : ℕ → Fresh) (tenantId : UUID) :
    Store → ℕ → List Row → Store × Except UploadError (List UUID)
  | s,_,[] => (s,.ok [])
  | s,i,row :: rest =>
    match inlineRow s (draws i) tenantId row with
    | .error err => (s,.error err)
    | .ok (s',captured) =>
      let (s'',result) := inlineLoop draws tenantId s' (i+1) rest
      (s'',result.map (captured.lead.id :: ·))

/-- A row that raises is rolled back and the loop goes on. -/
def batchLoop (draws : ℕ → Fresh) (tenantId : UUID) : Store → ℕ → List Row → Store
  | s,_,[] => s
  | s,i,row :: rest =>
    match batchRow s (draws i) tenantId row with
    | .error _ => batchLoop draws tenantId s (i+1) rest
    | .ok (s',_) => batchLoop draws tenantId s' (i+1) rest

/-- An upload as the handler sees it: suffix and size of the file, what the parser made
of it, and how the queue answers. -/
structure Upload where
  suffix : String
  size : ℕ
  parsed : Except Unit (List RawRow)
  queue : Except Unit Unit

inductive UploadResult
  | sync (leadIds : List UUID) (rowCount : ℕ)
  | async (rows : List Row) (rowCount : ℕ)
  deriving DecidableEq

def unsupportedDetail (suffix : String) : String :=
  String.ofList ("Unsupported file type '".toList ++ suffix.toList ++
    "'. Accepted: .csv, .xlsx".toList)

def tooManyRowsDetail (count : ℕ) : String :=
  s!"File has {count} data rows; maximum is {maxRows}"

def handleFileUpload (s : Store) (draws : ℕ → Fresh) (tenantId : UUID)
    (activeSignals : Except Unit (Option (List Signal))) (upload : Upload) :
    Store × Except UploadError UploadResult :=
  if upload.suffix ∉ [".csv",".xlsx"] then
    (s,.error (.http 422 (unsupportedDetail upload.suffix)))
  else if maxFileSize < upload.size then (s,.error (.http 413 "File exceeds 10 MB limit"))
  else
    match upload.parsed with
    | .error _ => (s,.error .parse)
    | .ok rawRows =>
      if maxRows < rawRows.length then
        (s,.error (.http 422 (tooManyRowsDetail rawRows.length)))
      else
        match activeSignals with
        | .error _ => (s,.error .configRead)
        | .ok config =>
          match checkPreFlight config with
          | .error halt => (s,.error (.http 400 halt.reason))
          | .ok _ =>
            let strRows := rawRows.map stringifyRow
            if syncThreshold < strRows.length then
              match upload.queue with
              | .error _ => (s,.error .queue)
              | .ok _ => (s,.ok (.async strRows strRows.length))
            else
              let (s',result) := inlineLoop draws tenantId s 0 strRows
              (s',result.map fun ids => .sync ids strRows.length)

/-- A tenant without a usable config gets no row of the batch. -/
def runLeadCaptureBatch (s : Store) (draws : ℕ → Fresh) (tenantId : UUID)
    (activeSignals : Except Unit (Option (List Signal))) (rows : List Row) :
    Except UploadError Store :=
  match activeSignals with
  | .error _ => .error .configRead
  | .ok config =>
    match checkPreFlight config with
    | .error _ => .ok s
    | .ok _ => .ok (batchLoop draws tenantId s 0 rows)

def withBlockedLead (s : Store) (f : Fresh) (tenantId : UUID) (row : Row)
    (extraFields : Dict String Json) : Store :=
  { s with
    leads := s.leads ++
      [blockedLead f tenantId row extraFields "insufficient_identity_fields"] }

theorem storeRow_blocked {s : Store} {f : Fresh} {tenantId : UUID} {row : Row}
    {e : NormalisedChannelEvent} (h : LacksIdentity e) :
    storeRow s f tenantId row e = .ok (withBlockedLead s f tenantId row e.extraFields,
      ⟨blockedLead f tenantId row e.extraFields "insufficient_identity_fields",none⟩) := by
  simp [storeRow,h,insert_blockedLead,withBlockedLead]

theorem storeRow_capture {s : Store} {f : Fresh} {tenantId : UUID} {row : Row}
    {e : NormalisedChannelEvent} (h : ¬ LacksIdentity e) :
    storeRow s f tenantId row e = (runCapture s f e).mapError UploadError.capture := by
  unfold storeRow
  rw [if_neg h]
  cases runCapture s f e <;> rfl

theorem stripEvent_eq (e : NormalisedChannelEvent) :
    stripEvent e = { e with extraFields := (stripSensitiveFields e.extraFields).1 } := by
  have hself : (stripSensitiveFields e.extraFields).2.isEmpty = true →
      e = { e with extraFields := (stripSensitiveFields e.extraFields).1 } := by
    intro h
    rw [(strip_eq_self_iff e.extraFields).mpr ((Dict.isEmpty_iff _).mp h)]
  unfold stripEvent
  split_ifs with hempty
  · apply hself
    rw [Dict.isEmpty_iff] at hempty ⊢
    simp [stripSensitiveFields,detectSensitiveFields,hempty]
  · dsimp only
    split_ifs with hstripped
    · exact hself hstripped
    · rfl

end Rows

end FileUpload
end LeadEngine
