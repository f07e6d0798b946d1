import LeadEngine.UnitOfWork
import LeadEngine.UploadRun

/-! The row loop of `run_lead_capture_batch` one database statement at a time. All rows share a
session; any statement may be lost, and the row is then rolled back. -/
namespace LeadEngine
namespace FileUpload

open Interpreter Repository Deduplicator TwoStageFilter Pipeline Normaliser UnitOfWork

inductive AddedObject
  | lead (l : Lead)
  | touchpoint (t : LeadTouchpoint)

def insertObject : AddedObject → Store → Except UploadError Store
  | .lead l,s => (s.insertLead l).mapError .capture
  | .touchpoint t,s => .ok { s with touchpoints := s.touchpoints ++ [t] }

abbrev RowScript := Script Store AddedObject UploadError Captured

section Scripts

def selectThen {β : Type} (query : Store → Except CaptureError β) (next : β → RowScript) :
    RowScript :=
  .statement β (fun s => ((query s).map (s,·)).mapError .capture) next

def reserveThen (f : Fresh) (e : NormalisedChannelEvent) (next : Option UUID → RowScript) :
    RowScript :=
  .statement (Option UUID) (fun s => .ok (reserveEventSlot s f e).swap) next

def finaliseThen (logId leadId : UUID) (status : IntakeStatus) (next : RowScript) : RowScript :=
  .statement Unit (fun s => .ok (finaliseEventLog s logId leadId status,())) fun _ => next

/-- A lookup of `find_duplicate`, skipped when the event lacks the key. -/
def lookupThen {κ : Type} (key : Option κ) (lookup : Store → κ → Except CaptureError (Option Lead))
    (found : Lead → RowScript) (missed : RowScript) : RowScript :=
  match key with
  | none => missed
  | some k =>
    selectThen (lookup · k) fun
      | some existing => found existing
      | none => missed

variable [Interpreter]

def findDuplicateThen (tenantId : UUID) (e : NormalisedChannelEvent) (found : Lead → RowScript)
    (missed : RowScript) : RowScript :=
  lookupThen (storedPhone e) (getLeadByPhone · tenantId) found <|
    lookupThen (storedEmail e) (getLeadByEmail · tenantId) found <|
      lookupThen ((truthy e.fullName).bind fun n => (truthy e.location).map (n,·))
        (fun s k => getLeadByNameAndLocation s tenantId k.1 k.2) found missed

def attachScript (f : Fresh) (e : NormalisedChannelEvent) (logId : UUID) (existing : Lead) :
    RowScript :=
  .add (.touchpoint (buildTouchpoint f existing e))
    (finaliseThen logId existing.id .duplicate (.commit ⟨existing,none⟩))

def captureScript (f : Fresh) (e : NormalisedChannelEvent) (logId : UUID) : RowScript :=
  let lead := newLead f e
  .add (.lead lead) (.flush (.add (.touchpoint (buildTouchpoint f lead e))
    (finaliseThen logId lead.id .received (.commit ⟨lead,some (leadReceived f e)⟩))))

/-- `run_capture`. A redelivery ends without a commit. -/
def runCaptureScript (f : Fresh) (e : NormalisedChannelEvent) : RowScript :=
  reserveThen f e fun
    | none =>
      selectThen (getLeadByPlatformEventId · e.platformEventId) fun
        | none => .raise (.capture (.noLinkedLead e.platformEventId))
        | some existing => .finish ⟨existing,none⟩
    | some logId =>
      findDuplicateThen e.tenantId e (attachScript f e logId) (captureScript f e logId)

/-- The body of the row loop. -/
def batchRowScript (tenantId : UUID) (job : Fresh × Row) : RowScript :=
  match normaliseFileRow job.2 tenantId with
  | .error err => .raise (.row err)
  | .ok event =>
    if LacksIdentity event then
      let blocked :=
        blockedLead job.1 tenantId job.2 event.extraFields "insufficient_identity_fields"
      .add (.lead blocked) (.commit ⟨blocked,none⟩)
    else runCaptureScript job.1 event

/-- Each row with the draws it has, and the step of it that is lost, its commit at the latest. -/
def rowJobs (draws : ℕ → Fresh) (faults : ℕ → Option ℕ) (rows : List Row) :
    List ((Fresh × Row) × Option ℕ) :=
  rows.mapIdx fun i row => ((draws i,row),faults i)

/-- `run_lead_capture_batch` in its session; the check of the config writes nothing. -/
def batchSession (s : Store) (draws : ℕ → Fresh) (faults : ℕ → Option ℕ) (tenantId : UUID)
    (activeSignals : Except Unit (Option (List Signal))) (rows : List Row) :
    Except UploadError (Session Store AddedObject) :=
  match activeSignals with
  | .error _ => .error .configRead
  | .ok config =>
    match checkPreFlight config with
    | .error _ => .ok (.start s)
    | .ok _ =>
      .ok (runEach insertObject (batchRowScript tenantId) (rowJobs draws faults rows) (.start s))

end Scripts

section Meaning

theorem result_selectThen {β : Type} (query : Store → Except CaptureError β)
    (next : β → RowScript) (w : Store) :
    (selectThen query next).result insertObject w [] =
      match query w with
      | .error err => .error (.capture err)
      | .ok b => (next b).result insertObject w [] := by
  show (((query w).map (w,·)).mapError UploadError.capture).bind _ = _
  cases query w <;> rfl

theorem result_reserveThen (f : Fresh) (e : NormalisedChannelEvent) (next : Option UUID → RowScript)
    (w : Store) : (reserveThen f e next).result insertObject w [] =
      (next (reserveEventSlot w f e).1).result insertObject (reserveEventSlot w f e).2 [] := rfl

def afterLookup (found : Lead → Except UploadError (Store × Captured))
    (missed : Except UploadError (Store × Captured)) :
    Except CaptureError (Option Lead) → Except UploadError (Store × Captured)
  | .error err => .error (.capture err)
  | .ok (some existing) => found existing
  | .ok none => missed

theorem result_lookupThen {κ : Type} (key : Option κ)
    (lookup : Store → κ → Except CaptureError (Option Lead)) (found : Lead → RowScript)
    (missed : RowScript) (w : Store) :
    (lookupThen key lookup found missed).result insertObject w [] =
      afterLookup (fun l => (found l).result insertObject w []) (missed.result insertObject w [])
        (key.elim (.ok none) (lookup w)) := by
  cases key with
  | none => rfl
  | some k =>
    show (selectThen _ _).result insertObject w [] = afterLookup _ _ (lookup w k)
    rw [result_selectThen]
    cases lookup w k with
    | error err => rfl
    | ok l => cases l <;> rfl

theorem tidy_selectThen {β : Type} (query : Store → Except CaptureError β) {next : β → RowScript}
    {c w : Store} (hnext : ∀ b, (next b).Tidy insertObject c w []) :
    (selectThen query next).Tidy insertObject c w [] := by
  rintro w' hw ⟨w'',b⟩ hr
  obtain rfl : w = w' := Except.ok.inj hw
  dsimp only at hr
  cases hquery : query w with
  | error err =>
    rw [hquery] at hr
    cases hr
  | ok b' =>
    rw [hquery] at hr
    obtain ⟨rfl,rfl⟩ := Prod.mk.inj (Except.ok.inj hr)
    exact hnext b'

theorem tidy_reserveThen {f : Fresh} {e : NormalisedChannelEvent} {next : Option UUID → RowScript}
    {c w : Store}
    (hnext : (next (reserveEventSlot w f e).1).Tidy insertObject c (reserveEventSlot w f e).2 []) :
    (reserveThen f e next).Tidy insertObject c w [] := by
  rintro w' hw r hr
  obtain rfl := Except.ok.inj hw
  obtain rfl := Except.ok.inj hr
  exact hnext

theorem tidy_lookupThen {κ : Type} (key : Option κ)
    (lookup : Store → κ → Except CaptureError (Option Lead)) {found : Lead → RowScript}
    {missed : RowScript} {c w : Store} (hfound : ∀ l, (found l).Tidy insertObject c w [])
    (hmissed : missed.Tidy insertObject c w []) :
    (lookupThen key lookup found missed).Tidy insertObject c w [] := by
  cases key with
  | none => exact hmissed
  | some k =>
    refine tidy_selectThen _ fun found => ?_
    cases found with
    | none => exact hmissed
    | some existing => exact hfound existing

variable [Interpreter]

theorem result_findDuplicateThen (tenantId : UUID) (e : NormalisedChannelEvent)
    (found : Lead → RowScript) (missed : RowScript) (w : Store) :
    (findDuplicateThen tenantId e found missed).result insertObject w [] =
      afterLookup (fun l => (found l).result insertObject w []) (missed.result insertObject w [])
        (findDuplicate w tenantId e) := by
  have hphone : (storedPhone e).elim (.ok none) (getLeadByPhone w tenantId) =
      lookupPhone w tenantId e := by
    unfold lookupPhone
    cases storedPhone e <;> rfl
  have hemail : (storedEmail e).elim (.ok none) (getLeadByEmail w tenantId) =
      lookupEmail w tenantId e := by
    unfold lookupEmail
    cases storedEmail e <;> rfl
  have hplace : ((truthy e.fullName).bind fun n => (truthy e.location).map (n,·)).elim (.ok none)
      (fun k => getLeadByNameAndLocation w tenantId k.1 k.2) = lookupPlace w tenantId e := by
    unfold lookupPlace
    cases truthy e.fullName <;> cases truthy e.location <;> rfl
  rw [findDuplicateThen,result_lookupThen,result_lookupThen,result_lookupThen,hphone,hemail,
    hplace]
  unfold findDuplicate
  cases lookupPhone w tenantId e with
  | error err => rfl
  | ok found =>
    cases found with
    | some l => rfl
    | none =>
      cases lookupEmail w tenantId e with
      | error err => rfl
      | ok found => cases found <;> rfl

theorem result_runCaptureScript (f : Fresh) (e : NormalisedChannelEvent) (w : Store) :
    (runCaptureScript f e).result insertObject w [] =
      (runCapture w f e).mapError UploadError.capture := by
  rw [runCaptureScript,result_reserveThen]
  by_cases hslot : SlotTaken w e.platformEventId
  · have hreserved : reserveEventSlot w f e = (none,w) := if_pos hslot
    rw [runCapture_taken hslot,redelivered,hreserved]
    dsimp only
    rw [result_selectThen]
    cases getLeadByPlatformEventId w e.platformEventId with
    | error err => rfl
    | ok found => cases found <;> rfl
  · obtain ⟨s,hreserved⟩ : ∃ s, reserveEventSlot w f e = (some f.logId,s) := ⟨_,if_neg hslot⟩
    rw [runCapture,hreserved]
    dsimp only
    rw [result_findDuplicateThen]
    cases findDuplicate s e.tenantId e with
    | error err => rfl
    | ok found =>
      cases found with
      | some existing => rfl
      | none =>
        show (((s.insertLead (newLead f e)).mapError UploadError.capture).bind _).bind _ = _
        dsimp only
        cases s.insertLead (newLead f e) <;> rfl

/-- When no statement is lost, the script of a row does what the row does in one piece. -/
theorem result_batchRowScript (tenantId : UUID) (job : Fresh × Row) (w : Store) :
    (batchRowScript tenantId job).result insertObject w [] = batchRow w job.1 tenantId job.2 := by
  unfold batchRowScript batchRow
  cases normaliseFileRow job.2 tenantId with
  | error err => rfl
  | ok e =>
    dsimp only
    by_cases hid : LacksIdentity e
    · rw [if_pos hid,storeRow_blocked hid]
      have hinsert := insert_blockedLead w job.1 tenantId job.2 e.extraFields
        "insufficient_identity_fields"
      show (((w.insertLead _).mapError UploadError.capture).bind _).map _ = _
      rw [hinsert]
      rfl
    · rw [if_neg hid,storeRow_capture hid,result_runCaptureScript]

end Meaning

section Rollback

theorem rowJobs_fst (draws : ℕ → Fresh) (faults : ℕ → Option ℕ) (rows : List Row) :
    (rowJobs draws faults rows).map Prod.fst = rows.mapIdx fun i row => (draws i,row) :=
  List.ext_getElem (by simp [rowJobs]) fun i hi hi' => by simp [rowJobs]

/-- The rows of the batch that lose no statement, in their order, with their draws. -/
def sparedRows (draws : ℕ → Fresh) (faults : ℕ → Option ℕ) (rows : List Row) :
    List (Fresh × Row) :=
  ((rows.mapIdx fun i row => (i,row)).filter fun r => faults r.1 = none).map fun r =>
    (draws r.1,r.2)

theorem spared_rowJobs (draws : ℕ → Fresh) (faults : ℕ → Option ℕ) (rows : List Row) :
    spared (rowJobs draws faults rows) = sparedRows draws faults rows := by
  have hjobs : rowJobs draws faults rows =
      (rows.mapIdx fun i row => (i,row)).map fun r => ((draws r.1,r.2),faults r.1) :=
    List.ext_getElem (by simp [rowJobs]) fun i hi hi' => by simp [rowJobs]
  rw [spared,hjobs,List.filter_map,List.map_map,sparedRows]
  rfl

variable [Interpreter]

theorem tidy_runCaptureScript (f : Fresh) (e : NormalisedChannelEvent) (c : Store) :
    (runCaptureScript f e).Tidy insertObject c c [] := by
  refine tidy_reserveThen ?_
  by_cases hslot : SlotTaken c e.platformEventId
  · have hreserved : reserveEventSlot c f e = (none,c) := if_pos hslot
    rw [hreserved]
    refine tidy_selectThen _ fun found => ?_
    cases found with
    | none => trivial
    | some existing => exact ⟨rfl,rfl⟩
  · obtain ⟨w,hreserved⟩ : ∃ w, reserveEventSlot c f e = (some f.logId,w) := ⟨_,if_neg hslot⟩
    rw [hreserved]
    have hattach : ∀ l, (attachScript f e f.logId l).Tidy insertObject c w [] :=
      fun l => fun _ _ _ _ => trivial
    have hcapture : (captureScript f e f.logId).Tidy insertObject c w [] :=
      fun _ _ _ _ _ _ => trivial
    exact tidy_lookupThen _ _ hattach
      (tidy_lookupThen _ _ hattach (tidy_lookupThen _ _ hattach hcapture))

theorem tidy_batchRowScript (tenantId : UUID) (job : Fresh × Row) (c : Store) :
    (batchRowScript tenantId job).Tidy insertObject c c [] := by
  unfold batchRowScript
  cases normaliseFileRow job.2 tenantId with
  | error err => trivial
  | ok e =>
    dsimp only
    split
    · trivial
    · exact tidy_runCaptureScript job.1 e c

/-- The `i`-th of the rows that are kept has its own draws. -/
def drawsOf (kept : List (Fresh × Row)) (i : ℕ) : Fresh := (kept.map Prod.fst).getD i (.nth i)

theorem runAlone_rows {draws : ℕ → Fresh} (tenantId : UUID) (s : Store) {n : ℕ}
    {jobs : List (Fresh × Row)} (hdraws : ∀ i job, jobs[i]? = some job → draws (n+i) = job.1) :
    runAlone insertObject (batchRowScript tenantId) jobs s =
      batchLoop draws tenantId s n (jobs.map Prod.snd) := by
  induction jobs generalizing s n with
  | nil => rfl
  | cons job rest ih =>
    have hhead : draws n = job.1 := hdraws 0 job rfl
    have htail : ∀ i job, rest[i]? = some job → draws (n+1+i) = job.1 := by
      intro i job hjob
      rw [Nat.add_right_comm]
      exact hdraws (i+1) job hjob
    rw [runAlone,result_batchRowScript,List.map_cons,batchLoop,hhead]
    cases batchRow s job.1 tenantId job.2 with
    | error err => exact ih s htail
    | ok r => exact ih r.1 htail

theorem runAlone_kept (tenantId : UUID) (s : Store) (kept : List (Fresh × Row)) :
    runAlone insertObject (batchRowScript tenantId) kept s =
      batchLoop (drawsOf kept) tenantId s 0 (kept.map Prod.snd) := by
  refine runAlone_rows tenantId s fun i job hjob => ?_
  rw [Nat.zero_add,drawsOf,List.getD_eq_getElem?_getD,List.getElem?_map,hjob]
  rfl

/-- The session of a batch that loses nothing commits what `run_lead_capture_batch` writes. -/
theorem batchSession_undisturbed (s : Store) (draws : ℕ → Fresh) (tenantId : UUID)
    (activeSignals : Except Unit (Option (List Signal))) (rows : List Row) :
    (batchSession s draws (fun _ => none) tenantId activeSignals rows).map Session.committed =
      runLeadCaptureBatch s draws tenantId activeSignals rows := by
  unfold batchSession runLeadCaptureBatch
  cases activeSignals with
  | error err => rfl
  | ok config =>
    dsimp only
    cases checkPreFlight config with
    | error err => rfl
    | ok signals =>
      have hnone : ∀ job ∈ rowJobs draws (fun _ => none) rows, job.2 = none := by
        intro job hjob
        obtain ⟨i,hi,rfl⟩ := List.mem_mapIdx.mp hjob
        rfl
      have hrows : (rows.mapIdx fun i row => (draws i,row)).map Prod.snd = rows :=
        List.ext_getElem (by simp) fun i hi hi' => by simp
      have hdraws : ∀ i job, (rows.mapIdx fun i row => (draws i,row))[i]? = some job →
          draws (0+i) = job.1 := by
        intro i job hjob
        obtain ⟨row,hrow,rfl⟩ : ∃ row, rows[i]? = some row ∧ (draws i,row) = job := by
          simpa using hjob
        rw [Nat.zero_add]
      refine congrArg Except.ok ?_
      rw [runEach_of_none (tidy_batchRowScript tenantId) hnone (idle_start s),rowJobs_fst,
        runAlone_rows tenantId _ hdraws,hrows]
      rfl

/-- Rows that lose a statement, at any point before they are committed, leave nothing: the batch
ends with what it ends with when only the other rows are uploaded, and every commit on the way is
that of the other rows up to it. -/
theorem failed_rows_leave_nothing (s : Store) (draws : ℕ → Fresh) (faults : ℕ → Option ℕ)
    (tenantId : UUID) (activeSignals : Except Unit (Option (List Signal))) (rows : List Row) :
    let others := sparedRows draws faults
    (batchSession s draws faults tenantId activeSignals rows).map Session.committed =
        runLeadCaptureBatch s (drawsOf (others rows)) tenantId activeSignals
          ((others rows).map Prod.snd) ∧
      ∀ session, batchSession s draws faults tenantId activeSignals rows = .ok session →
        ∀ c ∈ session.commits, ∃ done, done <+: rows ∧
          runLeadCaptureBatch s (drawsOf (others done)) tenantId activeSignals
            ((others done).map Prod.snd) = .ok c := by
  intro others
  unfold batchSession runLeadCaptureBatch
  cases activeSignals with
  | error err => exact ⟨rfl,fun session hsession => by cases hsession⟩
  | ok config =>
    dsimp only
    cases checkPreFlight config with
    | error err =>
      refine ⟨rfl,fun session hsession c hc => ?_⟩
      obtain rfl := Except.ok.inj hsession
      cases hc
    | ok signals =>
      have hran := runEach_ranAlone (tidy_batchRowScript tenantId) (rowJobs draws faults rows)
        (idle_start s)
      have halone : ∀ done, runAlone insertObject (batchRowScript tenantId)
          (spared (rowJobs draws faults done)) s =
          batchLoop (drawsOf (others done)) tenantId s 0 ((others done).map Prod.snd) := by
        intro done
        rw [spared_rowJobs]
        exact runAlone_kept tenantId s (others done)
      refine ⟨congrArg Except.ok (hran.committed.trans (halone rows)),?_⟩
      intro session hsession c hc
      obtain rfl := Except.ok.inj hsession
      obtain hnone | ⟨done,⟨rest,hdone⟩,rfl⟩ := hran.commits c hc
      · cases hnone
      · obtain ⟨pre,post,rfl,rfl,-⟩ := List.mapIdx_eq_append_iff.mp hdone.symm
        exact ⟨pre,pre.prefix_append post,congrArg Except.ok (halone pre).symm⟩

end Rollback

/-- The first row has flushed its lead when a statement is lost; the second repeats its phone, and
its name stands in the lead that is stored. -/
theorem lost_row_leaves_nothing :
    letI := Interpreter.ascii id
    let row (name : String) : Row := ⟨[(some "Phone","+49 151"),(some "Name",name)],by simp⟩
    let faults (i : ℕ) : Option ℕ := if i = 0 then some 3 else none
    ∃ c, (batchSession .empty Fresh.nth faults 1 openConfig [row "a",row "b"]).map
        Session.committed = .ok c ∧ c.leads.map Lead.fullName = [some "b"] ∧ c.logs.length = 1 ∧
      runLeadCaptureBatch .empty (drawsOf [(.nth 1,row "b")]) 1 openConfig [row "b"] = .ok c := by
  let := Interpreter.ascii id
  intro row faults
  obtain ⟨hcommitted,_⟩ :=
    failed_rows_leave_nothing .empty Fresh.nth faults 1 openConfig [row "a",row "b"]
  exact ⟨_,hcommitted,by decide +kernel,by decide +kernel,rfl⟩

end FileUpload
end LeadEngine
