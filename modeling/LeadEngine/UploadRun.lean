import LeadEngine.History

/-! The row loop of an upload. Both paths run the same loop and differ in what they do to
an event before it is stored: the inline path strips its extra fields, the batch job does
not. A row that raises leaves the store as it was. -/
namespace LeadEngine
namespace FileUpload

open Table Interpreter Repository Deduplicator TwoStageFilter Pipeline Normaliser DataPolicy History

inductive UploadPath
  | inline | queued
  deriving DecidableEq

section Loop

variable [Interpreter]

/-- What a path does to an event before it is stored. -/
def UploadPath.prepare : UploadPath → NormalisedChannelEvent → NormalisedChannelEvent
  | .inline => stripEvent
  | .queued => id

def UploadPath.row : UploadPath → Store → Fresh → UUID → Row →
    Except UploadError (Store × Captured)
  | .inline => inlineRow
  | .queued => batchRow

theorem row_eq (path : UploadPath) (s : Store) (f : Fresh) (tenantId : UUID) (row : Row) :
    path.row s f tenantId row = match normaliseFileRow row tenantId with
      | .error err => .error (.row err)
      | .ok event => storeRow s f tenantId row (path.prepare event) := by
  cases path <;> rfl

/-- The store after one row. -/
def rowNext (path : UploadPath) (s : Store) (f : Fresh) (tenantId : UUID) (row : Row) : Store :=
  match path.row s f tenantId row with
  | .error _ => s
  | .ok (s',_) => s'

/-- The store a row meets once the rows before it, from row `n` on, are done. -/
def rowsNext (path : UploadPath) (draws : ℕ → Fresh) (tenantId : UUID) :
    Store → ℕ → List Row → Store
  | s,_,[] => s
  | s,n,row :: rest =>
    rowsNext path draws tenantId (rowNext path s (draws n) tenantId row) (n+1) rest

theorem batchLoop_eq (draws : ℕ → Fresh) (tenantId : UUID) (s : Store) (n : ℕ)
    (rows : List Row) :
    batchLoop draws tenantId s n rows = rowsNext .queued draws tenantId s n rows := by
  induction rows generalizing s n with
  | nil => rfl
  | cons row rest ih =>
    rw [batchLoop,rowsNext,rowNext,UploadPath.row]
    cases batchRow s (draws n) tenantId row with
    | error err => exact ih _ _
    | ok result => exact ih _ _

theorem inlineLoop_cons_ok {draws : ℕ → Fresh} {tenantId : UUID} {s s' : Store} {n : ℕ}
    {row : Row} {rest : List Row} {ids : List UUID}
    (h : inlineLoop draws tenantId s n (row :: rest) = (s',.ok ids)) :
    ∃ s₁ captured ids₁, inlineRow s (draws n) tenantId row = .ok (s₁,captured) ∧
      inlineLoop draws tenantId s₁ (n+1) rest = (s',.ok ids₁) ∧ ids = captured.lead.id :: ids₁ := by
  rw [inlineLoop] at h
  cases hrow : inlineRow s (draws n) tenantId row with
  | error err => simp [hrow] at h
  | ok result =>
    simp only [hrow] at h
    obtain ⟨hstore,hids⟩ := Prod.mk.inj h
    obtain ⟨ids₁,hloop,rfl⟩ := Fallible.map_eq_ok.mp hids
    exact ⟨result.1,result.2,ids₁,rfl,Prod.ext hstore hloop,rfl⟩

theorem inlineLoop_ok {draws : ℕ → Fresh} {tenantId : UUID} {s s' : Store} {n : ℕ}
    {rows : List Row} {ids : List UUID}
    (h : inlineLoop draws tenantId s n rows = (s',.ok ids)) :
    s' = rowsNext .inline draws tenantId s n rows := by
  induction rows generalizing s n ids with
  | nil =>
    simp only [inlineLoop,Prod.mk.injEq] at h
    exact h.1.symm
  | cons row rest ih =>
    obtain ⟨s₁,captured,ids₁,hrow,hloop,_⟩ := inlineLoop_cons_ok h
    rw [rowsNext,rowNext,UploadPath.row,hrow]
    exact ih hloop

def UploadPath.keeps : UploadPath → Dict String Json → Dict String Json
  | .inline,extra => (stripSensitiveFields extra).1
  | .queued,extra => extra

theorem keeps_sublist (path : UploadPath) (extra : Dict String Json) :
    (path.keeps extra).entries.Sublist extra.entries := by
  cases path with
  | inline => exact List.filter_sublist
  | queued => exact List.Sublist.refl _

theorem prepare_eq (path : UploadPath) (e : NormalisedChannelEvent) :
    path.prepare e = { e with extraFields := path.keeps e.extraFields } := by
  cases path with
  | inline => exact stripEvent_eq e
  | queued => rfl

section Prepare

variable (path : UploadPath) (e : NormalisedChannelEvent)

@[simp] theorem prepare_extraFields :
    (path.prepare e).extraFields = path.keeps e.extraFields := by rw [prepare_eq]

@[simp] theorem prepare_platformEventId :
    (path.prepare e).platformEventId = e.platformEventId := by rw [prepare_eq]

@[simp] theorem prepare_rawEventJson : (path.prepare e).rawEventJson = e.rawEventJson := by
  rw [prepare_eq]

@[simp] theorem lacksIdentity_prepare : LacksIdentity (path.prepare e) ↔ LacksIdentity e := by
  rw [prepare_eq]
  rfl

theorem findDuplicate_prepare (s : Store) :
    findDuplicate s (path.prepare e).tenantId (path.prepare e) = findDuplicate s e.tenantId e := by
  rw [prepare_eq]
  rfl

end Prepare

/-- A row is written when it has no identity, or when no log row has its event id yet. -/
def Writes (s : Store) (tenantId : UUID) (row : Row) : Prop :=
  ∃ e, normaliseFileRow row tenantId = .ok e ∧
    (LacksIdentity e ∨ ¬ SlotTaken s e.platformEventId)

inductive RowEnds (path : UploadPath) (s : Store) (f : Fresh) (tenantId : UUID) (row : Row) :
    Except UploadError (Store × Captured) → Prop
  | malformed (err : RowError) (he : normaliseFileRow row tenantId = .error err) :
      RowEnds path s f tenantId row (.error (.row err))
  | blocked (e : NormalisedChannelEvent) (he : normaliseFileRow row tenantId = .ok e)
      (h : LacksIdentity e) :
      RowEnds path s f tenantId row
        (.ok (withBlockedLead s f tenantId row (path.prepare e).extraFields,
          ⟨blockedLead f tenantId row (path.prepare e).extraFields
            "insufficient_identity_fields",none⟩))
  | redelivered (e : NormalisedChannelEvent) (he : normaliseFileRow row tenantId = .ok e)
      (hid : ¬ LacksIdentity e) (hslot : SlotTaken s e.platformEventId) :
      RowEnds path s f tenantId row
        ((Pipeline.redelivered s (path.prepare e)).mapError UploadError.capture)
  | ambiguous (e : NormalisedChannelEvent) (err : CaptureError)
      (hdup : findDuplicate s e.tenantId e = .error err) :
      RowEnds path s f tenantId row (.error (.capture err))
  | captured (e : NormalisedChannelEvent) (he : normaliseFileRow row tenantId = .ok e)
      (hid : ¬ LacksIdentity e) (hslot : ¬ SlotTaken s e.platformEventId)
      (hdup : findDuplicate s e.tenantId e = .ok none) :
      RowEnds path s f tenantId row
        (.ok (withNewLead s f (path.prepare e),
          ⟨newLead f (path.prepare e),some (leadReceived f (path.prepare e))⟩))
  | attached (e : NormalisedChannelEvent) (l : Lead)
      (he : normaliseFileRow row tenantId = .ok e) (hid : ¬ LacksIdentity e)
      (hslot : ¬ SlotTaken s e.platformEventId)
      (hdup : findDuplicate s e.tenantId e = .ok (some l)) :
      RowEnds path s f tenantId row (.ok (withDuplicate s f (path.prepare e) l,⟨l,none⟩))

theorem rowEnds (path : UploadPath) {s : Store} {f : Fresh} (hf : f.For s) (tenantId : UUID)
    (row : Row) : RowEnds path s f tenantId row (path.row s f tenantId row) := by
  rw [row_eq]
  cases he : normaliseFileRow row tenantId with
  | error err => exact .malformed err he
  | ok e =>
    dsimp only
    by_cases hid : LacksIdentity e
    · rw [storeRow_blocked ((lacksIdentity_prepare path e).mpr hid)]
      exact .blocked e he hid
    rw [storeRow_capture (mt (lacksIdentity_prepare path e).mp hid)]
    by_cases hslot : SlotTaken s e.platformEventId
    · rw [runCapture_taken (by rwa [prepare_platformEventId])]
      exact .redelivered e he hid hslot
    have hslot' : ¬ SlotTaken s (path.prepare e).platformEventId := by
      rwa [prepare_platformEventId]
    cases hdup : findDuplicate s e.tenantId e with
    | error err =>
      rw [runCapture_error hslot' ((findDuplicate_prepare path e s).trans hdup)]
      exact .ambiguous e err hdup
    | ok found =>
      cases found with
      | none =>
        rw [runCapture_new hf hslot' ((findDuplicate_prepare path e s).trans hdup)]
        exact .captured e he hid hslot hdup
      | some l =>
        rw [runCapture_duplicate hf hslot' ((findDuplicate_prepare path e s).trans hdup)]
        exact .attached e l he hid hslot hdup

inductive RowEffect (path : UploadPath) (s : Store) (f : Fresh) (tenantId : UUID) (row : Row) :
    Store → Prop
  | skipped (h : ¬ Writes s tenantId row) : RowEffect path s f tenantId row s
  | blocked (e : NormalisedChannelEvent) (he : normaliseFileRow row tenantId = .ok e)
      (h : LacksIdentity e) :
      RowEffect path s f tenantId row
        (withBlockedLead s f tenantId row (path.prepare e).extraFields)
  | captured (e : NormalisedChannelEvent) (he : normaliseFileRow row tenantId = .ok e)
      (hid : ¬ LacksIdentity e) (hslot : ¬ SlotTaken s e.platformEventId)
      (hdup : findDuplicate s e.tenantId e = .ok none) :
      RowEffect path s f tenantId row (withNewLead s f (path.prepare e))
  | attached (e : NormalisedChannelEvent) (l : Lead)
      (he : normaliseFileRow row tenantId = .ok e) (hid : ¬ LacksIdentity e)
      (hslot : ¬ SlotTaken s e.platformEventId)
      (hdup : findDuplicate s e.tenantId e = .ok (some l)) :
      RowEffect path s f tenantId row (withDuplicate s f (path.prepare e) l)

theorem rowEffect (path : UploadPath) {s : Store} {f : Fresh} (hf : f.For s)
    (hi : Identities s.leads) (tenantId : UUID) (row : Row) :
    RowEffect path s f tenantId row (rowNext path s f tenantId row) := by
  have hends := rowEnds path hf tenantId row
  unfold rowNext
  generalize path.row s f tenantId row = result at hends
  cases hends with
  | malformed err he => exact .skipped (by simp [Writes,he])
  | blocked e he h => exact .blocked e he h
  | redelivered e he hid hslot =>
    have hskip : ¬ Writes s tenantId row := by
      rintro ⟨e',he',hwrites⟩
      obtain rfl := Except.ok.inj (he.symm.trans he')
      exact hwrites.elim hid fun hfree => hfree hslot
    cases hr : Pipeline.redelivered s (path.prepare e) with
    | error err => exact .skipped hskip
    | ok result =>
      obtain rfl : result.1 = s := (redelivered_ok hr).1
      exact .skipped hskip
  | ambiguous e err hdup =>
    obtain ⟨found,hfound⟩ := findDuplicate_ok hi e.tenantId e
    rw [hfound] at hdup
    cases hdup
  | captured e he hid hslot hdup => exact .captured e he hid hslot hdup
  | attached e l he hid hslot hdup => exact .attached e l he hid hslot hdup

/-- The log rows that a row leaves. -/
theorem RowEffect.slotTaken {path : UploadPath} {s s' : Store} {f : Fresh} {tenantId : UUID}
    {row : Row} (h : RowEffect path s f tenantId row s') (platformEventId : String) :
    SlotTaken s' platformEventId ↔ SlotTaken s platformEventId ∨
      ∃ e, normaliseFileRow row tenantId = .ok e ∧ ¬ LacksIdentity e ∧
        e.platformEventId = platformEventId := by
  have hsame : ∀ {e e' : NormalisedChannelEvent}, normaliseFileRow row tenantId = .ok e →
      normaliseFileRow row tenantId = .ok e' → e' = e :=
    fun he he' => Except.ok.inj (he'.symm.trans he)
  have hadded : ∀ {e : NormalisedChannelEvent} {leadId : UUID} {status : IntakeStatus},
      normaliseFileRow row tenantId = .ok e → ¬ LacksIdentity e →
      s'.logs = s.logs ++ [settledLog f (path.prepare e) leadId status] →
      (SlotTaken s' platformEventId ↔ SlotTaken s platformEventId ∨
        ∃ e, normaliseFileRow row tenantId = .ok e ∧ ¬ LacksIdentity e ∧
          e.platformEventId = platformEventId) := by
    intro e leadId status he hid hlogs
    have hrow : (∃ e, normaliseFileRow row tenantId = .ok e ∧ ¬ LacksIdentity e ∧
        e.platformEventId = platformEventId) ↔ e.platformEventId = platformEventId :=
      ⟨fun ⟨e',he',_,hpid⟩ => by rw [← hsame he he']; exact hpid,fun hpid => ⟨e,he,hid,hpid⟩⟩
    rw [SlotTaken,hlogs,prepare_eq,hrow]
    simp only [List.mem_append,List.mem_singleton,or_and_right,exists_or,exists_eq_left]
    rfl
  cases h with
  | skipped hskip =>
    refine ⟨Or.inl,fun h => h.elim id ?_⟩
    rintro ⟨e,he,hid,rfl⟩
    by_contra hslot
    exact hskip ⟨e,he,Or.inr hslot⟩
  | blocked e he hid =>
    refine ⟨Or.inl,fun h => h.elim id ?_⟩
    rintro ⟨e',he',hid',_⟩
    rw [hsame he he'] at hid'
    exact absurd hid hid'
  | captured e he hid => exact hadded he hid rfl
  | attached e l he hid => exact hadded he hid rfl

theorem RowEffect.change {path : UploadPath} {s s' : Store} {f : Fresh} {tenantId : UUID}
    {row : Row} (h : RowEffect path s f tenantId row s') : ∃ received, Change s f s' received := by
  cases h with
  | skipped => exact ⟨none,.redacted (Redaction.refl s)⟩
  | blocked e => exact ⟨none,.blocked tenantId row _⟩
  | captured e _ _ hslot hdup =>
    rw [prepare_eq]
    exact ⟨_,.captured { e with extraFields := path.keeps e.extraFields } hslot hdup⟩
  | attached e l _ _ hslot hdup =>
    rw [prepare_eq]
    exact ⟨none,.attached { e with extraFields := path.keeps e.extraFields } l hslot hdup⟩

/-- The store in front of row `n`, with the draws of that row and the later ones unused. -/
structure Ready (draws : ℕ → Fresh) (n : ℕ) (s : Store) : Prop where
  consistent : Consistent s
  fresh : ∀ j, n ≤ j → (draws j).For s

theorem Ready.next {draws : ℕ → Fresh} {s₀ : Store} (hd : Drawn draws s₀) {n : ℕ} {s : Store}
    (h : Ready draws n s) (path : UploadPath) (tenantId : UUID) (row : Row) :
    Ready draws (n+1) (rowNext path s (draws n) tenantId row) := by
  have heffect := rowEffect path (h.fresh n le_rfl) h.consistent.identities tenantId row
  obtain ⟨received,hchange⟩ := heffect.change
  exact ⟨hchange.consistent (h.fresh n le_rfl) h.consistent,hchange.keeps_draws hd h.fresh⟩

/-- No log row of the store has the event id, and no row of the file before this one is
logged under it. -/
def Unseen (s : Store) (tenantId : UUID) (pre : List Row) (platformEventId : String) : Prop :=
  ¬ SlotTaken s platformEventId ∧ ∀ row ∈ pre, ∀ e, normaliseFileRow row tenantId = .ok e →
    ¬ LacksIdentity e → e.platformEventId ≠ platformEventId

theorem unseen_iff {draws : ℕ → Fresh} {s₀ : Store} (hd : Drawn draws s₀) (path : UploadPath)
    (tenantId : UUID) (platformEventId : String) (pre : List Row) {n : ℕ} {s : Store}
    (h : Ready draws n s) : Unseen s tenantId pre platformEventId ↔
      ¬ SlotTaken (rowsNext path draws tenantId s n pre) platformEventId := by
  induction pre generalizing n s with
  | nil => simp [Unseen,rowsNext]
  | cons row rest ih =>
    have heffect := rowEffect path (h.fresh n le_rfl) h.consistent.identities tenantId row
    rw [rowsNext,← ih (h.next hd path tenantId row),Unseen,Unseen,heffect.slotTaken]
    simp only [not_or,not_exists,not_and,List.forall_mem_cons,ne_eq]
    exact ⟨fun ⟨hs,hrow,hrest⟩ => ⟨⟨hs,hrow⟩,hrest⟩,fun ⟨⟨hs,hrow⟩,hrest⟩ => ⟨hs,hrow,hrest⟩⟩

def Passes (activeSignals : Except Unit (Option (List Signal))) : Prop :=
  ∃ config signals, activeSignals = .ok config ∧ checkPreFlight config = .ok signals

theorem runLeadCaptureBatch_eq {s s' : Store} {draws : ℕ → Fresh} {tenantId : UUID}
    {activeSignals : Except Unit (Option (List Signal))} {rows : List Row}
    (hpass : Passes activeSignals)
    (h : runLeadCaptureBatch s draws tenantId activeSignals rows = .ok s') :
    s' = rowsNext .queued draws tenantId s 0 rows := by
  obtain ⟨config,signals,rfl,hcheck⟩ := hpass
  simp only [runLeadCaptureBatch,hcheck,Except.ok.injEq] at h
  rw [← h,batchLoop_eq]

def Upload.rows (upload : Upload) : List Row :=
  match upload.parsed with
  | .error _ => []
  | .ok rawRows => rawRows.map stringifyRow

/-- An accepted upload was queued, or its inline loop returned. -/
theorem handleFileUpload_ok {s s' : Store} {draws : ℕ → Fresh} {tenantId : UUID}
    {activeSignals : Except Unit (Option (List Signal))} {upload : Upload} {result : UploadResult}
    (h : handleFileUpload s draws tenantId activeSignals upload = (s',.ok result)) :
    result = .async upload.rows upload.rows.length ∨
      ∃ ids, inlineLoop draws tenantId s 0 upload.rows = (s',.ok ids) ∧
        result = .sync ids upload.rows.length ∧ upload.rows.length ≤ syncThreshold := by
  unfold handleFileUpload at h
  by_cases hsuffix : upload.suffix ∉ [".csv",".xlsx"]
  · rw [if_pos hsuffix] at h
    simp at h
  by_cases hsize : maxFileSize < upload.size
  · rw [if_neg hsuffix,if_pos hsize] at h
    simp at h
  rw [if_neg hsuffix,if_neg hsize] at h
  cases hparsed : upload.parsed with
  | error err => simp [hparsed] at h
  | ok rawRows =>
    have hrows : rawRows.map stringifyRow = upload.rows := by simp [Upload.rows,hparsed]
    rw [hparsed] at h
    dsimp only at h
    rw [hrows] at h
    by_cases hmany : maxRows < rawRows.length
    · rw [if_pos hmany] at h
      simp at h
    rw [if_neg hmany] at h
    cases activeSignals with
    | error err => simp at h
    | ok config =>
      dsimp only at h
      cases hcheck : checkPreFlight config with
      | error halt => simp [hcheck] at h
      | ok signals =>
        rw [hcheck] at h
        dsimp only at h
        by_cases hsync : syncThreshold < upload.rows.length
        · rw [if_pos hsync] at h
          cases hqueue : upload.queue with
          | error err => simp [hqueue] at h
          | ok _ =>
            rw [hqueue] at h
            exact Or.inl (Except.ok.inj (Prod.mk.inj h).2).symm
        · rw [if_neg hsync] at h
          cases hloop : inlineLoop draws tenantId s 0 upload.rows with
          | mk s₁ loopResult =>
            rw [hloop] at h
            cases loopResult with
            | error err => simp [Except.map] at h
            | ok ids =>
              obtain ⟨rfl,hids⟩ := Prod.mk.inj h
              exact Or.inr ⟨ids,rfl,(Except.ok.inj hids).symm,Nat.le_of_not_lt hsync⟩

end Loop

theorem eq_of_snd {α β : Type} {p : α × β} {b : β} (h : p.2 = b) : p = (p.1,b) := Prod.ext rfl h

def cardRow : RawRow :=
  ⟨[(some "Phone",some "+49 151"),(some "Card",some "4111 1111 1111 1111")],by decide⟩

def noteRow : RawRow := ⟨[(some "Phone",some "+49 151"),(some "Note",some "call back")],by decide⟩

def openConfig : Except Unit (Option (List Signal)) := .ok (some [⟨"s1",.fit,"Budget?"⟩])

theorem passes_openConfig : Passes openConfig := ⟨_,_,rfl,rfl⟩

def hashedText (members : String) : String :=
  "\x7b\"r\": \x7b" ++ members ++ "\x7d, \"t\": \"00000000-0000-0000-0000-000000000001\"\x7d"

@[reducible] def uploadRuntime : Interpreter :=
  .ascii (digestOf
    [(hashedText "\"Card\": \"4111 1111 1111 1111\", \"Phone\": \"+49 151\"",
        "0ae28ba07cbd293ee1e12c3b21fed64ad402a6c00d789b5cf5a86c360ba7be1d"),
      (hashedText "\"Note\": \"call back\", \"Phone\": \"+49 151\"",
        "ce4c16e5c3fd59912abe956008904f363743ed8601228283b2093468722cc336")])

end FileUpload
end LeadEngine
