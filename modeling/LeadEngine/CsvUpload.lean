import LeadEngine.Minimisation
import LeadEngine.RowOutcome
import LeadEngine.Unlinked

/-! Uploads of CSV tables whose rows may be shorter or longer than the header. `csv.DictReader`
collects the surplus cells of a row under the header `None`, which no row survives; and a cell
beyond the limit of the reader ends the whole upload. -/
namespace LeadEngine
namespace FileUpload

open Table Interpreter Repository Deduplicator TwoStageFilter Pipeline Normaliser History
open TransitionSystem

section Reader

variable [Interpreter]

/-- One row of `csv.DictReader`. A missing cell is `None`, and of two columns with one header
the later is kept. -/
def readRow (header cells : List String) : RawRow :=
  let zipped : RawRow :=
    (header.zip cells).foldl (fun d c => d.set (some c.1) (some c.2)) .empty
  if header.length < cells.length then
    zipped.set none (some (str (.arr ((cells.drop header.length).map Json.str))))
  else (header.drop cells.length).foldl (fun d h => d.set (some h) none) zipped

/-- The first line of a table, even a blank one. -/
def headerOf (table : List (List String)) : List String := table.headD []

def dataRows (table : List (List String)) : List (List String) := table.tail.filter (· ≠ [])

def parseCsv (table : List (List String)) : List RawRow :=
  (dataRows table).map (readRow (headerOf table))

@[simp] theorem length_parseCsv (table : List (List String)) :
    (parseCsv table).length = (dataRows table).length := List.length_map ..

def fieldSizeLimit : ℕ := 131072

/-- No cell is too long for the reader, in the header line or below it. -/
def CellsFit (table : List (List String)) : Prop :=
  ∀ cells ∈ table, ∀ cell ∈ cells, cell.length ≤ fieldSizeLimit

instance (table : List (List String)) : Decidable (CellsFit table) := by
  unfold CellsFit; infer_instance

/-- `_parse_csv`: the reader raises at the first cell that is too long. -/
def parseTable (table : List (List String)) : Except Unit (List RawRow) :=
  if CellsFit table then .ok (parseCsv table) else .error ()

def tableRows (table : List (List String)) : List Row := (parseCsv table).map stringifyRow

omit [Interpreter] in
theorem named_stringifyRow {row : RawRow} : Named (stringifyRow row) ↔ none ∉ row.keys := by
  simp only [Named,stringifyRow,Dict.mapValues,List.mem_map,forall_exists_index,and_imp,
    forall_apply_eq_imp_iff₂,Dict.keys,not_exists,not_and]
  exact forall₂_congr fun cell _ => Option.isSome_iff_ne_none

theorem named_readRow_iff (header cells : List String) :
    Named (stringifyRow (readRow header cells)) ↔ cells.length ≤ header.length := by
  rw [named_stringifyRow,readRow]
  split_ifs with hlong
  · simp [Dict.mem_keys_set,hlong]
  · rw [Dict.mem_keys_foldl_set,Dict.mem_keys_foldl_set]
    simp [Dict.keys,Nat.le_of_not_lt hlong]

end Reader

section Rows

variable [Interpreter] {path : UploadPath} {draws : ℕ → Fresh} {tenantId : UUID}

/-- The rows raise nothing and take the store to another, each ending in one of the four ways. -/
inductive RowsDone (path : UploadPath) (draws : ℕ → Fresh) (tenantId : UUID) :
    Store → ℕ → List Row → Store → Prop
  | nil {s : Store} {n : ℕ} : RowsDone path draws tenantId s n [] s
  | cons {s s₁ s' : Store} {n : ℕ} {row : Row} {rest : List Row} {c : Captured}
      {e : NormalisedChannelEvent} (hrow : path.row s (draws n) tenantId row = .ok (s₁,c))
      (hdone : RowDone path s (draws n) tenantId row e s₁ c.lead)
      (hrest : RowsDone path draws tenantId s₁ (n+1) rest s') :
      RowsDone path draws tenantId s n (row :: rest) s'

/-- The row can be normalised, and if it has an identity its event id is not held by a log row
without a lead. -/
def Storable (s : Store) (tenantId : UUID) (row : Row) : Prop :=
  ∃ e, normaliseFileRow row tenantId = .ok e ∧ (LacksIdentity e ∨ ¬ Unlinked s e.platformEventId)

/-- A row raises nothing exactly when it can be stored. -/
theorem row_ok_iff (path : UploadPath) {s : Store} {f : Fresh} (hc : Consistent s) (hf : f.For s)
    (row : Row) :
    (∃ s' c, path.row s f tenantId row = .ok (s',c)) ↔ Storable s tenantId row := by
  constructor
  · rintro ⟨s',c,h⟩
    obtain ⟨e,he,hdone⟩ := rowDone hf h
    refine ⟨e,he,?_⟩
    generalize c.lead = l at hdone
    cases hdone with
    | blocked hid => exact Or.inl hid
    | redelivered l hid hslot hlead =>
      refine Or.inr fun hunlinked => ?_
      rw [getLeadByPlatformEventId_none hunlinked.leadless] at hlead
      cases hlead
    | captured hid hslot => exact Or.inr fun hunlinked => hslot hunlinked.taken
    | attached l hid hslot => exact Or.inr fun hunlinked => hslot hunlinked.taken
  · rintro ⟨e,he,hor⟩
    rw [row_eq,he]
    by_cases hid : LacksIdentity e
    · exact ⟨_,_,storeRow_blocked ((lacksIdentity_prepare path e).mpr hid)⟩
    dsimp only
    rw [storeRow_capture (mt (lacksIdentity_prepare path e).mp hid)]
    by_cases hslot : SlotTaken s (path.prepare e).platformEventId
    · obtain ⟨r,hr,hpid⟩ := hslot
      have hlinked : r.leadId ≠ none := by
        intro hnone
        apply hor.resolve_left hid
        rw [← prepare_platformEventId path e,← hpid]
        exact unlinked_of_mem hc hr hnone
      obtain ⟨i,hi⟩ := Option.ne_none_iff_exists'.mp hlinked
      obtain ⟨l,hl,rfl,_⟩ := hc.logLead r hr i hi
      have hfound := getLeadByPlatformEventId_some hc.leadIds hc.slots hr hl hi
      rw [hpid] at hfound
      refine ⟨s,⟨l,none⟩,?_⟩
      rw [runCapture_taken ⟨r,hr,hpid⟩,redelivered,hfound]
      rfl
    · obtain ⟨found,hdup⟩ := findDuplicate_ok hc.identities (path.prepare e).tenantId
        (path.prepare e)
      cases found with
      | none => exact ⟨_,_,by rw [runCapture_new hf hslot hdup]; rfl⟩
      | some l => exact ⟨_,_,by rw [runCapture_duplicate hf hslot hdup]; rfl⟩

theorem RowDone.unlinked {s s' : Store} {f : Fresh} {row : Row} {e : NormalisedChannelEvent}
    {l : Lead} (h : RowDone path s f tenantId row e s' l) {platformEventId : String} :
    Unlinked s' platformEventId ↔ Unlinked s platformEventId := by
  obtain ⟨received,hchange⟩ := h.change
  refine ⟨fun hu => ?_,fun hu => hu.change hchange⟩
  have hold : ∀ {r : IntakeEventLog}, r.leadId.isSome → s'.logs = s.logs ++ [r] →
      Unlinked s platformEventId := by
    intro r hr hlogs
    obtain ⟨x,hx,hpid⟩ := hu.taken
    have hleadless := hu.leadless x hx hpid
    rw [hlogs,List.mem_append,List.mem_singleton] at hx
    obtain hx | rfl := hx
    · exact ⟨⟨x,hx,hpid⟩,fun y hy => hu.leadless y (by rw [hlogs]; exact List.mem_append_left _ hy)⟩
    · simp [hleadless] at hr
  cases h with
  | blocked => exact ⟨hu.taken,hu.leadless⟩
  | redelivered => exact hu
  | captured => exact hold rfl rfl
  | attached => exact hold rfl rfl

theorem RowDone.storable {s s' : Store} {f : Fresh} {row : Row} {e : NormalisedChannelEvent}
    {l : Lead} (h : RowDone path s f tenantId row e s' l) (row' : Row) :
    Storable s' tenantId row' ↔ Storable s tenantId row' := by
  simp only [Storable,h.unlinked]

theorem rowNext_eq {s s₁ : Store} {f : Fresh} {row : Row} {c : Captured}
    (h : path.row s f tenantId row = .ok (s₁,c)) : rowNext path s f tenantId row = s₁ := by
  rw [rowNext,h]

theorem RowsDone.storable {s₀ : Store} (hd : Drawn draws s₀) {rows : List Row} {n : ℕ}
    {s s' : Store} (hall : RowsDone path draws tenantId s n rows s') (h : Ready draws n s) :
    ∀ row ∈ rows, Storable s tenantId row := by
  induction hall with
  | nil => simp
  | @cons s s₁ s' n row rest c e hrow hdone hrest ih =>
    have hnext := h.next hd path tenantId row
    rw [rowNext_eq hrow] at hnext
    refine List.forall_mem_cons.mpr ⟨?_,fun row' hrow' => ?_⟩
    · exact (row_ok_iff path h.consistent (h.fresh n le_rfl) row).mp ⟨s₁,c,hrow⟩
    · exact (hdone.storable row').mp (ih hnext row' hrow')

theorem rowsDone_of_storable (path : UploadPath) {s₀ : Store} (hd : Drawn draws s₀)
    {rows : List Row} {n : ℕ} {s : Store} (h : Ready draws n s)
    (hall : ∀ row ∈ rows, Storable s tenantId row) :
    RowsDone path draws tenantId s n rows (rowsNext path draws tenantId s n rows) := by
  induction rows generalizing n s with
  | nil => exact .nil
  | cons row rest ih =>
    obtain ⟨hstorable,hothers⟩ := List.forall_mem_cons.mp hall
    have hfn := h.fresh n le_rfl
    obtain ⟨s₁,c,hrow⟩ := (row_ok_iff path h.consistent hfn row).mpr hstorable
    obtain ⟨e,_,hdone⟩ := rowDone hfn hrow
    have hnext := h.next hd path tenantId row
    rw [rowNext_eq hrow] at hnext
    rw [rowsNext,rowNext_eq hrow]
    exact .cons hrow hdone
      (ih hnext fun row' hrow' => (hdone.storable row').mpr (hothers row' hrow'))

theorem RowsDone.inlineLoop {s s' : Store} {n : ℕ} {rows : List Row}
    (h : RowsDone .inline draws tenantId s n rows s') :
    ∃ ids, inlineLoop draws tenantId s n rows = (s',.ok ids) := by
  generalize hpath : UploadPath.inline = path at h
  induction h with
  | nil => exact ⟨[],rfl⟩
  | @cons s s₁ s' n row rest c e hrow _ _ ih =>
    subst hpath
    obtain ⟨ids,hids⟩ := ih
    have hinline : inlineRow s (draws n) tenantId row = .ok (s₁,c) := hrow
    rw [FileUpload.inlineLoop,hinline]
    exact ⟨c.lead.id :: ids,by simp only [hids]; rfl⟩

/-- The file passes the checks of its suffix and its size. -/
structure Admissible (upload : Upload) : Prop where
  suffix : upload.suffix ∈ [".csv",".xlsx"]
  size : upload.size ≤ maxFileSize

/-- How a table within the limits is uploaded, from the store in front of its first row to the store
that is left. A queued upload meets the store and the config of its job; without a job nothing is
stored. -/
inductive Runs (draws : ℕ → Fresh) (tenantId : UUID) (table : List (List String))
    (upload : Upload) (s : Store) : UploadPath → Store → Prop
  | inline {activeSignals : Except Unit (Option (List Signal))} (ha : Admissible upload)
      (hpass : Passes activeSignals) (hcount : (dataRows table).length ≤ syncThreshold) :
      Runs draws tenantId table upload s .inline
        (handleFileUpload s draws tenantId activeSignals upload).1
  | queued {accepted : Store} {draws' : ℕ → Fresh}
      {atUpload atJob : Except Unit (Option (List Signal))} {rows : List Row} {count : ℕ}
      {s' : Store}
      (haccepted : handleFileUpload accepted draws' tenantId atUpload upload =
        (accepted,.ok (.async rows count)))
      (hpass : Passes atJob) (h : runLeadCaptureBatch s draws tenantId atJob rows = .ok s') :
      Runs draws tenantId table upload s .queued s'
  | raised {draws' : ℕ → Fresh} {atUpload : Except Unit (Option (List Signal))}
      {err : UploadError} (ha : Admissible upload) (hpass : Passes atUpload)
      (hmany : syncThreshold < (dataRows table).length) (hmax : (dataRows table).length ≤ maxRows)
      (hqueue : upload.queue = .ok ())
      (h : handleFileUpload s draws' tenantId atUpload upload = (s,.error err)) :
      Runs draws tenantId table upload s .queued s

/-- Every data row of the table is read, and ends in one of the four ways, with the rows after
it. -/
structure AllStored (path : UploadPath) (draws : ℕ → Fresh) (tenantId : UUID)
    (table : List (List String)) (upload : Upload) (s s' : Store) : Prop where
  read : upload.rows = tableRows table
  done : RowsDone path draws tenantId s 0 (tableRows table) s'

theorem handleFileUpload_parsed {upload : Upload} (ha : Admissible upload) {rawRows : List RawRow}
    (hparsed : upload.parsed = .ok rawRows) (hmax : rawRows.length ≤ maxRows)
    {activeSignals : Except Unit (Option (List Signal))} (hpass : Passes activeSignals)
    (hmany : syncThreshold < rawRows.length) (hqueue : upload.queue = .ok ()) (s : Store)
    (draws : ℕ → Fresh) (tenantId : UUID) :
    handleFileUpload s draws tenantId activeSignals upload =
      (s,.ok (.async upload.rows upload.rows.length)) := by
  obtain ⟨config,signals,rfl,hcheck⟩ := hpass
  have hrows : upload.rows = rawRows.map stringifyRow := by simp [Upload.rows,hparsed]
  unfold handleFileUpload
  rw [if_neg (not_not.mpr ha.suffix),if_neg (Nat.not_lt.mpr ha.size),hparsed]
  simp only [if_neg (Nat.not_lt.mpr hmax),hcheck]
  rw [if_pos (by rwa [List.length_map]),hqueue,hrows]

theorem Runs.eq_of_done {table : List (List String)} {upload : Upload} {s s' s₁ : Store}
    (h : Runs draws tenantId table upload s path s')
    (hparsed : upload.parsed = .ok (parseCsv table))
    (hdone : RowsDone path draws tenantId s 0 upload.rows s₁)
    (hnext : s₁ = rowsNext path draws tenantId s 0 upload.rows) : s' = s₁ := by
  cases h with
  | inline ha hpass hcount =>
    obtain ⟨ids,hids⟩ := hdone.inlineLoop
    have haccepted : Accepted upload := ⟨ha.suffix,ha.size,_,hparsed⟩
    have hrows : upload.rows.length = (dataRows table).length := by
      simp [Upload.rows,hparsed]
    rw [handleFileUpload_inline haccepted hpass (by rwa [hrows]),hids]
  | queued haccepted hpass h =>
    rcases handleFileUpload_ok haccepted with hresult | ⟨ids,_,hresult,_⟩
    · obtain ⟨rfl,_⟩ := UploadResult.async.inj hresult
      exact (runLeadCaptureBatch_eq hpass h).trans hnext.symm
    · simp at hresult
  | raised ha hpass hmany hmax hqueue h =>
    -- a table that is read is queued
    have hmax' : (parseCsv table).length ≤ maxRows := by rwa [length_parseCsv]
    have hmany' : syncThreshold < (parseCsv table).length := by rwa [length_parseCsv]
    rw [handleFileUpload_parsed ha hparsed hmax' hpass hmany' hqueue] at h
    cases h

theorem rows_eq_iff {table : List (List String)} {upload : Upload}
    (hparsed : upload.parsed = parseTable table) :
    upload.rows = tableRows table ↔ dataRows table = [] ∨ CellsFit table := by
  rw [Upload.rows,hparsed,parseTable,tableRows,parseCsv]
  split_ifs with hfit
  · simp [hfit]
  · rw [eq_comm]
    simp [hfit]

theorem Runs.unread {table : List (List String)} {upload : Upload} {s s' : Store}
    (h : Runs draws tenantId table upload s path s') (hparsed : upload.parsed = .error ()) :
    s' = s := by
  have hraises : ∀ (s : Store) (draws : ℕ → Fresh) (active : Except Unit (Option (List Signal))),
      ∃ err, handleFileUpload s draws tenantId active upload = (s,.error err) := by
    intro s draws active
    unfold handleFileUpload
    rw [hparsed]
    split_ifs <;> exact ⟨_,rfl⟩
  cases h with
  | inline ha hpass hcount =>
    obtain ⟨err,herr⟩ := hraises s draws _
    rw [herr]
  | queued haccepted hpass h =>
    obtain ⟨err,herr⟩ := hraises _ _ _
    rw [herr] at haccepted
    cases haccepted
  | raised ha hpass hmany hmax hqueue h => rfl

/-- The rows of a table that is read are all done exactly when each of them can be stored. -/
theorem Runs.done_iff {w : World} (hw : Reachable Step .empty w) (hd : Drawn draws w.store)
    {table : List (List String)} {upload : Upload} {s' : Store}
    (h : Runs draws tenantId table upload w.store path s')
    (hparsed : upload.parsed = .ok (parseCsv table)) :
    RowsDone path draws tenantId w.store 0 (tableRows table) s' ↔
      ∀ row ∈ tableRows table, Storable w.store tenantId row := by
  have hrows : upload.rows = tableRows table := by simp [Upload.rows,tableRows,hparsed]
  have hready : Ready draws 0 w.store := ⟨consistent_of_reachable hw,fun j _ => hd.fresh j⟩
  refine ⟨fun hall => hall.storable hd hready,fun hall => ?_⟩
  have hdone := rowsDone_of_storable path hd hready hall
  rw [← hrows] at hdone ⊢
  rwa [h.eq_of_done hparsed hdone rfl]

theorem storable_iff {s : Store} {row : Row} : Storable s tenantId row ↔ Named row ∧
    (HasIdentity row → ∀ e, normaliseFileRow row tenantId = .ok e →
      ¬ Unlinked s e.platformEventId) := by
  constructor
  · rintro ⟨e,he,hor⟩
    obtain ⟨hnamed,hidentity,_⟩ := normaliseFileRow_ok he
    refine ⟨hnamed,fun hid e' he' => ?_⟩
    obtain rfl := Except.ok.inj (he'.symm.trans he)
    exact hor.resolve_left fun hlacks => hidentity.mp hlacks hid
  · rintro ⟨hnamed,hfree⟩
    obtain ⟨e,he⟩ := normalises_iff.mpr hnamed
    refine ⟨e,he,?_⟩
    by_cases hid : HasIdentity row
    · exact Or.inr (hfree hid e he)
    · exact Or.inl ((normaliseFileRow_ok he).2.1.mpr hid)

/-- Every row of a CSV table is read and ends as a lead, a touchpoint, a redelivery or a blocked
lead, exactly when no cell is longer than the reader takes, no row is longer than the header and no
row with an identity has an event id that is logged without a lead. -/
theorem no_row_discarded_iff {w : World} (hw : Reachable Step .empty w)
    (hd : Drawn draws w.store) {table : List (List String)} {upload : Upload}
    (hparsed : upload.parsed = parseTable table) {s' : Store}
    (h : Runs draws tenantId table upload w.store path s') :
    AllStored path draws tenantId table upload w.store s' ↔
      (dataRows table = [] ∨ CellsFit table) ∧
        (∀ cells ∈ dataRows table, cells.length ≤ (headerOf table).length) ∧
        ∀ row ∈ tableRows table, HasIdentity row → ∀ e, normaliseFileRow row tenantId = .ok e →
          ¬ Unlinked w.store e.platformEventId := by
  have hread := rows_eq_iff hparsed
  have hdone : (dataRows table = [] ∨ CellsFit table) →
      (RowsDone path draws tenantId w.store 0 (tableRows table) s' ↔
        ∀ row ∈ tableRows table, Storable w.store tenantId row) := by
    intro hor
    by_cases hfit : CellsFit table
    · exact h.done_iff hw hd (hparsed.trans (if_pos hfit))
    · have hnone : tableRows table = [] := by
        simp [tableRows,parseCsv,hor.resolve_right hfit]
      rw [hnone,h.unread (hparsed.trans (if_neg hfit))]
      exact iff_of_true .nil (by simp)
  have hwidths : (∀ cells ∈ dataRows table, cells.length ≤ (headerOf table).length) ↔
      ∀ row ∈ tableRows table, Named row := by
    simp only [tableRows,parseCsv,List.map_map,List.forall_mem_map,Function.comp_apply,
      named_readRow_iff]
  have hstorable : (∀ row ∈ tableRows table, Storable w.store tenantId row) ↔
      (∀ row ∈ tableRows table, Named row) ∧ ∀ row ∈ tableRows table, HasIdentity row →
        ∀ e, normaliseFileRow row tenantId = .ok e → ¬ Unlinked w.store e.platformEventId := by
    simp only [storable_iff,← forall₂_and]
  rw [hwidths,← hstorable]
  exact ⟨fun hall => ⟨hread.mp hall.read,(hdone (hread.mp hall.read)).mp hall.done⟩,
    fun ⟨hor,hall⟩ => ⟨hread.mpr hor,(hdone hor).mpr hall⟩⟩

end Rows

def csvUpload [Interpreter] (table : List (List String)) : Upload :=
  ⟨".csv",60,parseTable table,.ok ()⟩

theorem admissible_csvUpload [Interpreter] (table : List (List String)) :
    Admissible (csvUpload table) where
  suffix := .head _
  size := show 60 ≤ maxFileSize by decide

def contactsTable : List (List String) := [["Phone","Note"],["+49 151","call back"],["+49 152"]]

theorem short_row_kept :
    letI := Interpreter.ascii id
    ∃ s', Runs Fresh.nth 1 contactsTable (csvUpload contactsTable) .empty .inline s' ∧
      s'.leads.length = 2 ∧
      AllStored .inline Fresh.nth 1 contactsTable (csvUpload contactsTable) .empty s' := by
  let := Interpreter.ascii id
  have hruns : Runs Fresh.nth 1 contactsTable (csvUpload contactsTable) .empty .inline _ :=
    .inline (admissible_csvUpload _) passes_openConfig (by decide +kernel)
  refine ⟨_,hruns,by decide +kernel,
    (no_row_discarded_iff (w := .empty) Reachable.refl drawn_nth_empty rfl hruns).mpr
      ⟨.inr (by decide +kernel),by decide +kernel,?_⟩⟩
  rintro row _ _ e _ hunlinked
  obtain ⟨r,hr,_⟩ := hunlinked.taken
  exact absurd hr List.not_mem_nil

def wideTable : List (List String) :=
  [["Phone","Note"],["+49 151","call back","today"],["+49 152","ring"]]

/-- Neither row is stored inline; the batch job stores the second only. -/
theorem surplus_cell_discards_rows :
    letI := Interpreter.ascii id
    ∃ s', Runs Fresh.nth 1 wideTable (csvUpload wideTable) .empty .inline s' ∧
      s'.leads.length = 0 ∧
      (batchLoop Fresh.nth 1 .empty 0 (tableRows wideTable)).leads.length = 1 ∧
      ¬ AllStored .inline Fresh.nth 1 wideTable (csvUpload wideTable) .empty s' := by
  let := Interpreter.ascii id
  have hruns : Runs Fresh.nth 1 wideTable (csvUpload wideTable) .empty .inline _ :=
    .inline (admissible_csvUpload _) passes_openConfig (by decide +kernel)
  refine ⟨_,hruns,by decide +kernel,by decide +kernel,fun hall => ?_⟩
  obtain ⟨ids,hids⟩ := hall.done.inlineLoop
  have hraises : (inlineLoop Fresh.nth 1 .empty 0 (tableRows wideTable)).2.isOk = false := by
    decide +kernel
  rw [hids] at hraises
  cases hraises

end FileUpload
end LeadEngine
