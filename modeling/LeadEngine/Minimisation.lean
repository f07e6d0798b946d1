import LeadEngine.UploadRun

/-! Data minimisation of uploads: where a value goes that `strip_sensitive_fields` removes
from the extra fields of a row. The row itself is kept as `raw_event_json`, so the value is
stored whenever a row that repeats it is written. -/
namespace LeadEngine

inductive Json.Mentions (v : String) : Json → Prop
  | str {s : String} (h : v.toList <:+: s.toList) : Mentions v (.str s)
  | elem {xs : List Json} {x : Json} (hx : x ∈ xs) (h : Mentions v x) : Mentions v (.arr xs)
  | key {kvs : List (String × Json)} {kv : String × Json} (hkv : kv ∈ kvs)
      (h : v.toList <:+: kv.1.toList) : Mentions v (.obj kvs)
  | value {kvs : List (String × Json)} {kv : String × Json} (hkv : kv ∈ kvs)
      (h : Mentions v kv.2) : Mentions v (.obj kvs)

namespace Json

@[simp] theorem mentions_str {v s : String} : (str s).Mentions v ↔ v.toList <:+: s.toList :=
  ⟨fun h => by cases h; assumption,Mentions.str⟩

theorem mentions_obj {v : String} {kvs : List (String × Json)} : (obj kvs).Mentions v ↔
    ∃ kv ∈ kvs, v.toList <:+: kv.1.toList ∨ kv.2.Mentions v := by
  constructor
  · intro h
    cases h with
    | key hkv h => exact ⟨_,hkv,Or.inl h⟩
    | value hkv h => exact ⟨_,hkv,Or.inr h⟩
  · rintro ⟨kv,hkv,h | h⟩
    · exact .key hkv h
    · exact .value hkv h

end Json

namespace FileUpload

open Interpreter Repository Deduplicator Pipeline Normaliser DataPolicy History TransitionSystem

/-- The text occurs in a payload column; a tombstone keeps no text of the payload. -/
def RawMentions (v : String) : RawEventJson → Prop
  | .payload event => event.Mentions v
  | .erased _ | .anonymised _ => False

def LeadMentions (v : String) (l : Lead) : Prop :=
  RawMentions v l.rawEventJson ∨ ∃ extra, l.extraFields = some extra ∧
    (Json.obj extra.entries).Mentions v

def RowsMention (v : String) (leads : List Lead) (touchpoints : List LeadTouchpoint)
    (logs : List IntakeEventLog) : Prop :=
  (∃ l ∈ leads, LeadMentions v l) ∨ (∃ t ∈ touchpoints, RawMentions v t.rawEventJson) ∨
    ∃ r ∈ logs, RawMentions v r.rawEventJson

/-- The text occurs in a row that was added to the store `s`. -/
def StoredIn (v : String) (s s' : Store) : Prop :=
  RowsMention v (s'.leads.drop s.leads.length) (s'.touchpoints.drop s.touchpoints.length)
    (s'.logs.drop s.logs.length)

def CellsMention (v : String) (row : Row) : Prop :=
  ∃ cell ∈ row.entries, (∃ header, cell.1 = some header ∧ v.toList <:+: header.toList) ∨
    v.toList <:+: cell.2.toList

structure Grows (s s' : Store) (leads : List Lead) (touchpoints : List LeadTouchpoint)
    (logs : List IntakeEventLog) : Prop where
  leads : s'.leads = s.leads ++ leads
  touchpoints : s'.touchpoints = s.touchpoints ++ touchpoints
  logs : s'.logs = s.logs ++ logs

section Rows

variable {v : String} {s s' s'' : Store} {leads leads' : List Lead}
variable {touchpoints touchpoints' : List LeadTouchpoint} {logs logs' : List IntakeEventLog}

theorem Grows.storedIn (h : Grows s s' leads touchpoints logs) :
    StoredIn v s s' ↔ RowsMention v leads touchpoints logs := by
  rw [StoredIn,h.leads,h.touchpoints,h.logs]
  simp

theorem Grows.trans (h : Grows s s' leads touchpoints logs)
    (h' : Grows s' s'' leads' touchpoints' logs') :
    Grows s s'' (leads ++ leads') (touchpoints ++ touchpoints') (logs ++ logs') := by
  constructor
  · rw [h'.leads,h.leads,List.append_assoc]
  · rw [h'.touchpoints,h.touchpoints,List.append_assoc]
  · rw [h'.logs,h.logs,List.append_assoc]

theorem rowsMention_append : RowsMention v (leads ++ leads') (touchpoints ++ touchpoints')
    (logs ++ logs') ↔ RowsMention v leads touchpoints logs ∨
      RowsMention v leads' touchpoints' logs' := by
  simp only [RowsMention,List.mem_append,or_and_right,exists_or]
  refine iff_of_eq ?_
  ac_rfl

end Rows

theorem stringCells_eq {cells : List (Option String × String)} {named : List (String × String)}
    (h : stringCells cells = some named) : cells = named.map fun c => (some c.1,c.2) := by
  induction cells generalizing named with
  | nil =>
    obtain rfl : [] = named := by simpa [stringCells] using h
    rfl
  | cons cell rest ih =>
    obtain ⟨header,value⟩ := cell
    cases header with
    | none => simp [stringCells] at h
    | some header =>
      obtain ⟨rest',hrest,rfl⟩ := Option.map_eq_some_iff.mp h
      rw [List.map_cons,← ih hrest]

section Minimised

variable [Interpreter]

theorem strip_isInfix (text : String) : (strip text).toList <:+: text.toList := by
  rw [strip,String.toList_ofList]
  have hback : ((text.toList.dropWhile isSpace).reverse.dropWhile isSpace).reverse <+:
      text.toList.dropWhile isSpace := by
    have hsuffix := List.dropWhile_suffix (l:=(text.toList.dropWhile isSpace).reverse)
      (p:=fun c => isSpace c)
    rw [← List.reverse_prefix,List.reverse_reverse] at hsuffix
    exact hsuffix
  exact hback.isInfix.trans (List.dropWhile_suffix _).isInfix

/-- Every extra field is a cell of the row, without surrounding space. -/
theorem readCells_extra {cells : List (Option String × String)} {st st' : Cells}
    (h : readCells st cells = .ok st') {k : String} {j : Json} (hk : (k,j) ∈ st'.extra.entries) :
    (k,j) ∈ st.extra.entries ∨ ∃ value, (some k,value) ∈ cells ∧ j = .str (strip value) := by
  induction cells generalizing st with
  | nil =>
    obtain rfl : st = st' := by simpa [readCells] using h
    exact Or.inl hk
  | cons cell rest ih =>
    rw [readCells] at h
    cases hcell : readCell st cell with
    | error err => simp [hcell] at h
    | ok next =>
      rw [hcell] at h
      rcases ih h with hold | ⟨value,hmem,hj⟩
      · unfold readCell at hcell
        dsimp only at hcell
        split_ifs at hcell with hempty
        · rw [← Except.ok.inj hcell] at hold
          exact Or.inl hold
        · split at hcell
          · simp at hcell
          · rename_i header hheader
            split at hcell
            · split_ifs at hcell <;>
              · rw [← Except.ok.inj hcell] at hold
                exact Or.inl hold
            · rw [← Except.ok.inj hcell] at hold
              rcases Dict.mem_set hold with he | hold
              · obtain ⟨rfl,rfl⟩ := Prod.mk.inj he
                exact Or.inr ⟨cell.2,by rw [← hheader]; exact List.mem_cons_self,rfl⟩
              · exact Or.inl hold
      · exact Or.inr ⟨value,List.mem_cons_of_mem _ hmem,hj⟩

theorem raw_mentions_iff {row : Row} {tenantId : UUID} {e : NormalisedChannelEvent}
    (he : normaliseFileRow row tenantId = .ok e) (v : String) :
    (e.rawEventJson.Mentions v ↔ CellsMention v row) ∧
      e.rawEventJson = .obj (((stringCells row.entries).getD []).map fun c => (c.1,.str c.2)) := by
  obtain ⟨_,cells,_,hcells,rfl⟩ := normaliseFileRow_eq_ok.mp he
  rw [hcells]
  refine ⟨?_,rfl⟩
  rw [Json.mentions_obj,CellsMention,stringCells_eq hcells]
  simp only [List.mem_map,exists_exists_and_eq_and,Json.mentions_str,Option.some.injEq,
    exists_eq_left']

theorem extra_mentions {row : Row} {tenantId : UUID} {e : NormalisedChannelEvent}
    (he : normaliseFileRow row tenantId = .ok e) {v : String}
    (hv : (Json.obj e.extraFields.entries).Mentions v) : CellsMention v row := by
  obtain ⟨_,_,hread,_,rfl⟩ := normaliseFileRow_eq_ok.mp he
  obtain ⟨⟨k,j⟩,hk,hv⟩ := Json.mentions_obj.mp hv
  rcases readCells_extra hread hk with hk | ⟨value,hmem,rfl⟩
  · simp [Dict.empty] at hk
  · refine ⟨_,hmem,?_⟩
    rcases hv with hv | hv
    · exact Or.inl ⟨k,rfl,hv⟩
    · exact Or.inr ((Json.mentions_str.mp hv).trans (strip_isInfix value))

/-- What one row adds to the store mentions what the row mentions, if it is written. -/
theorem RowEffect.grows {path : UploadPath} {s s' : Store} {f : Fresh} {tenantId : UUID}
    {row : Row} (h : RowEffect path s f tenantId row s') :
    ∃ leads touchpoints logs, Grows s s' leads touchpoints logs ∧
      ∀ v, RowsMention v leads touchpoints logs ↔
        Writes s tenantId row ∧ CellsMention v row := by
  have hextra : ∀ {e : NormalisedChannelEvent} {v : String},
      normaliseFileRow row tenantId = .ok e →
      (∃ extra, (if (path.keeps e.extraFields).isEmpty then none
        else some (path.keeps e.extraFields)) = some extra ∧
          (Json.obj extra.entries).Mentions v) → CellsMention v row := by
    rintro e v he ⟨extra,hsome,hv⟩
    split_ifs at hsome
    obtain rfl := Option.some.inj hsome
    obtain ⟨kv,hkv,hv⟩ := Json.mentions_obj.mp hv
    have hkept := (keeps_sublist path e.extraFields).subset hkv
    exact extra_mentions he (Json.mentions_obj.mpr ⟨kv,hkept,hv⟩)
  cases h with
  | skipped h =>
    exact ⟨[],[],[],⟨by simp,by simp,by simp⟩,fun v => by simp [RowsMention,h]⟩
  | blocked e he hid =>
    refine ⟨_,[],[],⟨rfl,(List.append_nil _).symm,(List.append_nil _).symm⟩,fun v => ?_⟩
    have hwrites : Writes s tenantId row := ⟨e,he,Or.inl hid⟩
    obtain ⟨hcells,hpayload⟩ := raw_mentions_iff he v
    rw [hpayload] at hcells
    simp only [RowsMention,LeadMentions,List.mem_singleton,exists_eq_left,List.not_mem_nil,
      false_and,exists_false,or_false,hwrites,true_and,prepare_extraFields]
    exact ⟨fun h => h.elim hcells.mp (hextra he),fun h => Or.inl (hcells.mpr h)⟩
  | captured e he _ hslot _ =>
    refine ⟨_,_,_,⟨rfl,rfl,rfl⟩,fun v => ?_⟩
    have hwrites : Writes s tenantId row := ⟨e,he,Or.inr hslot⟩
    have hcells := (raw_mentions_iff he v).1
    simp only [RowsMention,LeadMentions,List.mem_singleton,exists_eq_left,hwrites,true_and]
    simp only [newLead,buildTouchpoint,settledLog,pendingLog,RawMentions,prepare_rawEventJson,
      prepare_extraFields,hcells]
    exact ⟨fun h => h.elim (fun h => h.elim id (hextra he)) fun h => h.elim id id,
      fun h => Or.inr (Or.inl h)⟩
  | attached e l he _ hslot _ =>
    refine ⟨[],_,_,⟨(List.append_nil _).symm,rfl,rfl⟩,fun v => ?_⟩
    have hwrites : Writes s tenantId row := ⟨e,he,Or.inr hslot⟩
    have hcells := (raw_mentions_iff he v).1
    simp only [RowsMention,List.mem_singleton,exists_eq_left,hwrites,true_and,List.not_mem_nil,
      false_and,exists_false,false_or]
    simp only [buildTouchpoint,settledLog,pendingLog,RawMentions,prepare_rawEventJson,hcells,
      or_self]

/-- What the rows of a file add to the store mentions what the written ones mention. -/
theorem rowsNext_grows {draws : ℕ → Fresh} {s₀ : Store} (hd : Drawn draws s₀)
    (path : UploadPath) (tenantId : UUID) (rows : List Row) {n : ℕ} {s : Store}
    (h : Ready draws n s) : ∃ leads touchpoints logs,
      Grows s (rowsNext path draws tenantId s n rows) leads touchpoints logs ∧
      ∀ v, RowsMention v leads touchpoints logs ↔ ∃ pre row post, rows = pre ++ row :: post ∧
        Writes (rowsNext path draws tenantId s n pre) tenantId row ∧ CellsMention v row := by
  induction rows generalizing n s with
  | nil =>
    exact ⟨[],[],[],⟨by simp [rowsNext],by simp [rowsNext],by simp [rowsNext]⟩,
      fun v => by simp [RowsMention]⟩
  | cons row rest ih =>
    have heffect := rowEffect path (h.fresh n le_rfl) h.consistent.identities tenantId row
    obtain ⟨leads,touchpoints,logs,hgrows,hrow⟩ := heffect.grows
    obtain ⟨leads',touchpoints',logs',hgrows',hrest⟩ := ih (h.next hd path tenantId row)
    refine ⟨_,_,_,hgrows.trans hgrows',fun v => ?_⟩
    rw [rowsMention_append,hrow,hrest]
    constructor
    · rintro (hfirst | ⟨pre,row',post,hrows,hlater⟩)
      · exact ⟨[],row,rest,rfl,hfirst⟩
      · exact ⟨row :: pre,row',post,by rw [hrows]; rfl,hlater⟩
    · rintro ⟨pre,row',post,hrows,hwritten⟩
      cases pre with
      | nil =>
        obtain ⟨rfl,rfl⟩ := List.cons.inj hrows
        exact Or.inl hwritten
      | cons x pre =>
        obtain ⟨rfl,hrest'⟩ := List.cons.inj hrows
        exact Or.inr ⟨pre,row',post,hrest',hwritten⟩

/-- An accepted upload, from the store in front of its first row to the store after its
last. A queued one is processed later, from the store and the config found then. -/
inductive Processed (draws : ℕ → Fresh) (tenantId : UUID) (upload : Upload) (s : Store) :
    UploadPath → Store → Prop
  | inline {activeSignals : Except Unit (Option (List TwoStageFilter.Signal))} {s' : Store}
      {ids : List UUID} {count : ℕ}
      (h : handleFileUpload s draws tenantId activeSignals upload = (s',.ok (.sync ids count))) :
      Processed draws tenantId upload s .inline s'
  | queued {accepted : Store} {draws' : ℕ → Fresh}
      {atUpload atJob : Except Unit (Option (List TwoStageFilter.Signal))} {rows : List Row}
      {count : ℕ} {s' : Store}
      (haccepted : handleFileUpload accepted draws' tenantId atUpload upload =
        (accepted,.ok (.async rows count)))
      (hpass : Passes atJob) (h : runLeadCaptureBatch s draws tenantId atJob rows = .ok s') :
      Processed draws tenantId upload s .queued s'

theorem Processed.of_sync {draws : ℕ → Fresh} {tenantId : UUID} {upload : Upload} {s : Store}
    {activeSignals : Except Unit (Option (List TwoStageFilter.Signal))} {ids : List UUID}
    {count : ℕ}
    (h : (handleFileUpload s draws tenantId activeSignals upload).2 = .ok (.sync ids count)) :
    Processed draws tenantId upload s .inline
      (handleFileUpload s draws tenantId activeSignals upload).1 :=
  .inline (eq_of_snd h)

theorem Processed.rowsNext {draws : ℕ → Fresh} {tenantId : UUID} {upload : Upload}
    {s s' : Store} {path : UploadPath} (h : Processed draws tenantId upload s path s') :
    s' = rowsNext path draws tenantId s 0 upload.rows := by
  cases h with
  | inline h =>
    rcases handleFileUpload_ok h with hresult | ⟨ids,hloop,_⟩
    · simp at hresult
    · exact inlineLoop_ok hloop
  | queued haccepted hpass h =>
    rcases handleFileUpload_ok haccepted with hresult | ⟨ids,_,hresult,_⟩
    · rw [← (UploadResult.async.inj hresult).1]
      exact runLeadCaptureBatch_eq hpass h
    · simp at hresult

def Removed (tenantId : UUID) (rows : List Row) (v : String) : Prop :=
  ∃ row ∈ rows, ∃ e, normaliseFileRow row tenantId = .ok e ∧
    ∃ k, (k,Json.str v) ∈ e.extraFields.entries ∧
      k ∈ (stripSensitiveFields e.extraFields).2.keys

def removedTexts (e : NormalisedChannelEvent) : List String :=
  e.extraFields.entries.filterMap fun kv =>
    if kv.1 ∈ (stripSensitiveFields e.extraFields).2.keys then kv.2.text? else none

theorem removed_iff {tenantId : UUID} {rows : List Row} {v : String} :
    Removed tenantId rows v ↔ ∃ row ∈ rows, ∃ e, normaliseFileRow row tenantId = .ok e ∧
      v ∈ removedTexts e := by
  refine exists_congr fun row => and_congr_right fun _ => exists_congr fun e =>
    and_congr_right fun _ => ?_
  simp only [removedTexts,List.mem_filterMap,Prod.exists,Option.ite_none_right_eq_some,
    Json.text?_eq_some]
  constructor
  · rintro ⟨k,hmem,hkey⟩
    exact ⟨k,_,hmem,hkey,rfl⟩
  · rintro ⟨k,j,hmem,hkey,hj⟩
    exact ⟨k,hj ▸ hmem,hkey⟩

/-- An accepted upload stores none of the values it removed exactly when no row mentions
one of them that lacks identity or whose event id is new. -/
theorem minimised_iff {w : World} (hw : Reachable Step .empty w) {draws : ℕ → Fresh}
    (hd : Drawn draws w.store) {tenantId : UUID} {upload : Upload} {path : UploadPath}
    {s' : Store} (h : Processed draws tenantId upload w.store path s') :
    (∀ v, Removed tenantId upload.rows v → ¬ StoredIn v w.store s') ↔
      ∀ pre row post, upload.rows = pre ++ row :: post →
        ∀ e, normaliseFileRow row tenantId = .ok e →
          LacksIdentity e ∨ Unseen w.store tenantId pre e.platformEventId →
          ∀ v, Removed tenantId upload.rows v → ¬ CellsMention v row := by
  have hready : Ready draws 0 w.store := ⟨consistent_of_reachable hw,fun j _ => hd.fresh j⟩
  obtain ⟨leads,touchpoints,logs,hgrows,hmention⟩ :=
    rowsNext_grows hd path tenantId upload.rows hready
  rw [← h.rowsNext] at hgrows
  constructor
  · intro hclean pre row post hrows e he hnew v hv hcells
    have hwrites : Writes (rowsNext path draws tenantId w.store 0 pre) tenantId row :=
      ⟨e,he,hnew.imp_right (unseen_iff hd path tenantId _ pre hready).mp⟩
    exact hclean v hv (hgrows.storedIn.mpr ((hmention v).mpr ⟨pre,row,post,hrows,hwrites,hcells⟩))
  · intro hcond v hv hstored
    obtain ⟨pre,row,post,hrows,⟨e,he,hnew⟩,hcells⟩ := (hmention v).mp (hgrows.storedIn.mp hstored)
    exact hcond pre row post hrows e he
      (hnew.imp_right (unseen_iff hd path tenantId _ pre hready).mpr) v hv hcells

end Minimised

def oneRowUpload (row : RawRow) : Upload := ⟨".csv",60,.ok [row],.ok ()⟩

theorem drawn_nth_empty : Drawn Fresh.nth .empty where
  fresh _ := ⟨by simp [Store.empty],by simp [Store.empty],by simp [Store.empty]⟩
  logIds _ _ h := h
  leadIds _ _ h := h
  touchpointIds _ _ h := h

theorem drawn_nth_from {s : Store} {k : ℕ} (hlogs : ∀ r ∈ s.logs, r.id < k)
    (hleads : ∀ l ∈ s.leads, l.id < k) (htouchpoints : ∀ t ∈ s.touchpoints, t.id < k) :
    Drawn (fun n => Fresh.nth (n+k)) s := by
  have hne : ∀ {i n : ℕ}, i < k → i ≠ n+k := by omega
  exact ⟨fun n => ⟨fun r hr => hne (hlogs r hr),fun l hl => hne (hleads l hl),
    fun t ht => hne (htouchpoints t ht)⟩,fun _ _ h => Nat.add_right_cancel h,
    fun _ _ h => Nat.add_right_cancel h,fun _ _ h => Nat.add_right_cancel h⟩

def contactsUpload : Upload := ⟨".csv",90,.ok [cardRow,noteRow],.ok ()⟩

/-- The row with the card number is logged when it is uploaded again, beside a new one: its number
is removed and no row of the upload has it. -/
theorem logged_card_minimised :
    letI := uploadRuntime
    let w := play .empty [(.batchRow 1 (stringifyRow cardRow),.nth 0)]
    ∃ s', Processed (fun n => Fresh.nth (n+1)) 1 contactsUpload w.store .inline s' ∧
      w.store.logs.length = 1 ∧ s'.logs.length = 2 ∧
      Removed 1 contactsUpload.rows "4111 1111 1111 1111" ∧
      ∀ v, Removed 1 contactsUpload.rows v → ¬ StoredIn v w.store s' := by
  let := uploadRuntime
  intro w
  have haccepted : (handleFileUpload w.store (fun n => Fresh.nth (n+1)) 1 openConfig
      contactsUpload).2 = .ok (.sync [0,0] 2) := by decide +kernel
  have hprocessed := Processed.of_sync haccepted
  have hdrawn : Drawn (fun n => Fresh.nth (n+1)) w.store :=
    drawn_nth_from (by decide +kernel) (by decide +kernel) (by decide +kernel)
  have hcard : (normaliseFileRow (stringifyRow cardRow) 1).map (fun e => (removedTexts e,
      decide (LacksIdentity e ∨ ¬ SlotTaken w.store e.platformEventId))) =
        .ok (["4111 1111 1111 1111"],false) := by decide +kernel
  have hnote : (normaliseFileRow (stringifyRow noteRow) 1).map removedTexts = .ok [] := by
    decide +kernel
  obtain ⟨card,hcardRow,hcardTexts⟩ := Fallible.map_eq_ok.mp hcard
  obtain ⟨note,hnoteRow,hnoteTexts⟩ := Fallible.map_eq_ok.mp hnote
  obtain ⟨htexts,hlogged⟩ := Prod.mk.inj hcardTexts
  have hremoved : ∀ v, Removed 1 contactsUpload.rows v ↔ v = "4111 1111 1111 1111" := by
    intro v
    have hrows : contactsUpload.rows = [stringifyRow cardRow,stringifyRow noteRow] := rfl
    simp [removed_iff,hrows,hcardRow,hnoteRow,htexts,hnoteTexts]
  refine ⟨_,hprocessed,by decide +kernel,by decide +kernel,(hremoved _).mpr rfl,
    (minimised_iff (reachable_play _ _) hdrawn hprocessed).mpr ?_⟩
  intro pre row post hrows e he hnew v hv
  obtain rfl := (hremoved v).mp hv
  cases pre with
  | nil =>
    -- the first row is logged
    obtain ⟨rfl,-⟩ := List.cons.inj hrows
    obtain rfl := Except.ok.inj (hcardRow.symm.trans he)
    exact absurd (hnew.imp_right And.left) (of_decide_eq_false hlogged)
  | cons first pre =>
    obtain ⟨-,hrows⟩ := List.cons.inj hrows
    have hmem : row ∈ pre ++ row :: post := List.mem_append_right _ List.mem_cons_self
    have hrow : row ∈ [stringifyRow noteRow] := Eq.mp (congrArg (row ∈ ·) hrows.symm) hmem
    obtain rfl := List.mem_singleton.mp hrow
    have hfree : ∀ cell ∈ (stringifyRow noteRow).entries, ∀ text ∈ cell.2 :: cell.1.toList,
        ¬ "4111 1111 1111 1111".toList <:+: text.toList := by decide +kernel
    rintro ⟨cell,hcell,⟨header,hheader,hin⟩ | hin⟩
    · exact hfree cell hcell header (by simp [hheader]) hin
    · exact hfree cell hcell cell.2 List.mem_cons_self hin

/-- The card number is removed from the extra fields and stored with the row. -/
theorem card_number_stored :
    letI := uploadRuntime
    ∃ s', Processed Fresh.nth 1 (oneRowUpload cardRow) .empty .inline s' ∧
      ∃ v, Removed 1 (oneRowUpload cardRow).rows v ∧ StoredIn v .empty s' := by
  let := uploadRuntime
  have haccepted : (handleFileUpload .empty Fresh.nth 1 openConfig (oneRowUpload cardRow)).2 =
      .ok (.sync [0] 1) := by decide +kernel
  have hremoved : (normaliseFileRow (stringifyRow cardRow) 1).map removedTexts =
      .ok ["4111 1111 1111 1111"] := by decide +kernel
  have hprocessed := Processed.of_sync haccepted
  have hready : Ready Fresh.nth 0 .empty := ⟨consistent_empty,fun j _ => drawn_nth_empty.fresh j⟩
  obtain ⟨leads,touchpoints,logs,hgrows,hmention⟩ :=
    rowsNext_grows drawn_nth_empty .inline 1 (oneRowUpload cardRow).rows hready
  rw [← hprocessed.rowsNext] at hgrows
  cases he : normaliseFileRow (stringifyRow cardRow) 1 with
  | error err => simp [he,Except.map] at hremoved
  | ok e =>
    rw [he] at hremoved
    have htexts : removedTexts e = ["4111 1111 1111 1111"] := Except.ok.inj hremoved
    refine ⟨_,hprocessed,"4111 1111 1111 1111",?_,?_⟩
    · exact removed_iff.mpr ⟨_,List.mem_singleton.mpr rfl,e,he,by simp [htexts]⟩
    · exact hgrows.storedIn.mpr ((hmention _).mpr ⟨[],stringifyRow cardRow,[],rfl,
        ⟨e,he,Or.inr (by simp [rowsNext,SlotTaken,Store.empty])⟩,
        ⟨(some "Card","4111 1111 1111 1111"),by decide,Or.inr (List.infix_refl _)⟩⟩)

end FileUpload
end LeadEngine
