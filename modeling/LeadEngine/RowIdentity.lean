import LeadEngine.JsonText
import LeadEngine.Reupload
import LeadEngine.UuidText

/-! The identity of an uploaded row: the text that is hashed for it can be read back, so in every
history two rows share a log row only if they are one row of one tenant. -/
namespace LeadEngine
namespace FileUpload

open Interpreter Repository Pipeline Normaliser History TransitionSystem JsonText UuidText

section Payload

variable [Floats]

theorem jsonMembers_eq (k : String) (v : Json) (fields : List (String × Json)) :
    jsonMembers (((k,v) :: fields).map fun e => (e.1.toList,dumps e.2)) ++ ['}'] =
      quote k.toList ++ ':' :: ' ' :: (dumps v ++ dumpFields fields) := by
  induction fields generalizing k v with
  | nil => simp [jsonMembers,dumpFields]
  | cons e rest ih =>
    have hrest := ih e.1 e.2
    simp only [List.map_cons] at hrest
    simp only [List.map_cons,jsonMembers,List.append_assoc,hrest,dumpFields]
    simp

theorem jsonObject_eq (fields : List (String × Json)) :
    jsonObject (fields.map fun e => (e.1.toList,dumps e.2)) = dumps (.obj fields) := by
  cases fields with
  | nil => rfl
  | cons e rest =>
    obtain ⟨k,v⟩ := e
    rw [jsonObject,dumps,← jsonMembers_eq]
    rfl

def rowObject (tenantId : UUID) (cells : List (String × String)) : Json :=
  .obj [("r",.obj ((sortedCells cells).map fun c => (c.1,.str c.2))),
    ("t",.str (String.ofList (uuidText tenantId)))]

theorem dumps_cells (cells : List (String × String)) :
    dumps (.obj (cells.map fun c => (c.1,.str c.2))) =
      jsonObject (cells.map fun c => (c.1.toList,quote c.2.toList)) := by
  rw [← jsonObject_eq,List.map_map]
  exact congrArg jsonObject (List.map_congr_left fun c _ => by simp [dumps])

theorem rowPayload_eq (tenantId : UUID) (cells : List (String × String)) :
    rowPayload tenantId cells = String.ofList (dumps (rowObject tenantId cells)) := by
  rw [rowPayload,rowObject,← jsonObject_eq,List.map_cons,List.map_cons,List.map_nil,dumps_cells,
    dumps]
  simp only [String.reduceToList,String.toList_ofList]

omit [Floats] in
theorem plain_rowObject (tenantId : UUID) {cells : List (String × String)}
    (h : (cells.map Prod.fst).Nodup) : Plain (rowObject tenantId cells) := by
  have hsorted : ((sortedCells cells).map Prod.fst).Nodup :=
    ((List.perm_insertionSort _ cells).map Prod.fst).nodup_iff.mpr h
  exact ⟨by simp,plain_texts _ hsorted,trivial,trivial⟩

end Payload

/-- Rows that are hashed as one text have the same cells and the same tenant. -/
theorem rowPayload_inj {t t' : UUID} {cells cells' : List (String × String)}
    (hkeys : (cells.map Prod.fst).Nodup) (hkeys' : (cells'.map Prod.fst).Nodup) (ht : t < 2^128)
    (ht' : t' < 2^128) (h : rowPayload t cells = rowPayload t' cells') :
    t = t' ∧ cells.Perm cells' := by
  let := noFloats
  have hperm : ∀ xs : List (String × String), (sortedCells xs).Perm xs :=
    fun xs => List.perm_insertionSort _ xs
  rw [rowPayload_eq,rowPayload_eq] at h
  have hread := loads_dumps (plain_rowObject t hkeys)
  rw [String.ofList_injective h,loads_dumps (plain_rowObject t' hkeys')] at hread
  have hobject := Json.obj.inj (Option.some.inj hread)
  simp only [List.cons.injEq,Prod.mk.injEq,Json.obj.injEq,Json.str.injEq,true_and,and_true]
    at hobject
  obtain ⟨hcells,htenant⟩ := hobject
  have hsame : sortedCells cells = sortedCells cells' := by
    refine List.map_injective_iff.mpr (fun a b hab => ?_) hcells.symm
    simpa [Prod.ext_iff] using hab
  exact ⟨uuidText_inj ht ht' (String.ofList_injective htenant.symm),
    (hperm cells).symm.trans (hsame ▸ hperm cells')⟩

section Runs

variable [Interpreter]

def hashedPayload (tenantId : UUID) (row : Row) : String :=
  rowPayload tenantId ((stringCells row.entries).getD [])

/-- The kept digits of their digests tell two texts apart. -/
def ToldApart (text text' : String) : Prop :=
  (sha256 text).toList.take 40 = (sha256 text').toList.take 40 → text = text'

def IsLogOf (tenantId : UUID) (row : Row) (r : IntakeEventLog) : Prop :=
  ∃ e, normaliseFileRow row tenantId = .ok e ∧ r.platformEventId = e.platformEventId

/-- The try of an operation that commits an uploaded row with an identity. -/
structure Uploads (a : Attempt) (tenantId : UUID) (row : Row) : Prop where
  commits : a.commits = true
  op : a.op = .inlineRow tenantId row ∨ a.op = .batchRow tenantId row
  identity : HasIdentity row

theorem rowHash_inj {t t' : UUID} {cells cells' : List (String × String)}
    (hkeys : (cells.map Prod.fst).Nodup) (hkeys' : (cells'.map Prod.fst).Nodup) (ht : t < 2^128)
    (ht' : t' < 2^128) (happart : ToldApart (rowPayload t cells) (rowPayload t' cells'))
    (h : rowHash t cells = rowHash t' cells') : t = t' ∧ cells.Perm cells' := by
  refine rowPayload_inj hkeys hkeys' ht ht' (happart ?_)
  exact List.append_cancel_left (String.ofList_injective h)

/-- Two rows have one event id exactly when they are one row of one tenant. -/
theorem eventId_eq_iff {t t' : UUID} {row row' : Row} {e e' : NormalisedChannelEvent}
    (he : normaliseFileRow row t = .ok e) (he' : normaliseFileRow row' t' = .ok e')
    (ht : t < 2^128) (ht' : t' < 2^128)
    (happart : ToldApart (hashedPayload t row) (hashedPayload t' row')) :
    e.platformEventId = e'.platformEventId ↔ t = t' ∧ SameCells row row' := by
  constructor
  · intro h
    obtain ⟨_,_,cells,hcells,hpid⟩ := normaliseFileRow_ok he
    obtain ⟨_,_,cells',hcells',hpid'⟩ := normaliseFileRow_ok he'
    rw [hashedPayload,hashedPayload,hcells,hcells'] at happart
    have hheaders : ∀ {row : Row} {cells : List (String × String)},
        stringCells row.entries = some cells → (cells.map Prod.fst).Nodup := by
      intro row cells hcells
      have hnodup := row.nodup
      rw [stringCells_eq hcells,List.map_map] at hnodup
      exact List.Nodup.of_map some (by simpa [List.map_map,Function.comp_def] using hnodup)
    obtain ⟨htenant,hperm⟩ := rowHash_inj (hheaders hcells) (hheaders hcells') ht ht' happart
      (hpid.symm.trans (h.trans hpid'))
    refine ⟨htenant,?_⟩
    rw [SameCells,stringCells_eq hcells,stringCells_eq hcells']
    exact hperm.map _
  · rintro ⟨rfl,hsame⟩
    obtain ⟨e'',he'',hpid,_⟩ := normaliseFileRow_same hsame he
    obtain rfl := Except.ok.inj (he''.symm.trans he')
    exact hpid.symm

theorem slotTaken_change {s s' : Store} {f : Fresh} {received : Option LeadReceived}
    (h : Change s f s' received) {platformEventId : String} (hslot : SlotTaken s platformEventId) :
    SlotTaken s' platformEventId := by
  obtain ⟨r,hr,hpid⟩ := hslot
  obtain ⟨g,hg,hlogs⟩ | ⟨x,_,_,_,hlogs⟩ := h.logs
  · exact ⟨g r,by rw [hlogs]; exact List.mem_map_of_mem hr,
      (redactsLog_fields hg r).2.1.trans hpid⟩
  · exact ⟨r,by rw [hlogs]; exact List.mem_append_left _ hr,hpid⟩

theorem slotTaken_step {w w' : World} {a : Attempt} (h : Step w a w') {platformEventId : String}
    (hslot : SlotTaken w.store platformEventId) : SlotTaken w'.store platformEventId := by
  cases h with
  | commit hf hexec => exact slotTaken_change (Op.change hf hexec) hslot
  | rollback => exact hslot

theorem Uploads.slotTaken {w w' : World} {a : Attempt} (h : Step w a w') {t : UUID} {row : Row}
    (hup : Uploads a t row) :
    ∃ e, normaliseFileRow row t = .ok e ∧ SlotTaken w'.store e.platformEventId := by
  cases h with
  | rollback => cases hup.commits
  | @commit op f s received hf hexec =>
    have hrow : ∃ path : UploadPath, returned uploadRaised (path.row w.store f t row) =
        .ok (s,received) := by
      rcases hup.op with hop | hop
      · exact ⟨.inline,by rw [show op = _ from hop] at hexec; exact hexec⟩
      · exact ⟨.queued,by rw [show op = _ from hop] at hexec; exact hexec⟩
    obtain ⟨path,hreturned⟩ := hrow
    obtain ⟨c,hc,_⟩ := returned_ok hreturned
    obtain ⟨e,he,hdone⟩ := rowDone hf hc
    have hid : ¬ LacksIdentity e := fun hlacks =>
      (normaliseFileRow_ok he).2.1.mp hlacks hup.identity
    obtain ⟨r,hr,hpid,_⟩ := hdone.grows.2.2 hid
    exact ⟨e,he,r,hr,hpid⟩

theorem uploads_logged {w : World} {tr : List (Transition World Attempt)}
    (h : Path Step .empty tr w) {x : Transition World Attempt} (hx : x ∈ tr) {t : UUID} {row : Row}
    (hup : Uploads x.2.1 t row) :
    ∃ e, normaliseFileRow row t = .ok e ∧ SlotTaken w.store e.platformEventId := by
  induction h with
  | nil => cases hx
  | snoc _ hs ih =>
    rcases List.mem_append.mp hx with hx | hx
    · obtain ⟨e,he,hslot⟩ := ih hx
      exact ⟨e,he,slotTaken_step hs hslot⟩
    · obtain rfl := List.mem_singleton.mp hx
      exact hup.slotTaken hs

/-- In every history each uploaded row with an identity has one log row, and two of them have
the same one exactly when they are one row of one tenant, in any order of its columns. -/
theorem rows_logged_apart {w : World} {tr : List (Transition World Attempt)}
    (h : Path Step .empty tr w) {x x' : Transition World Attempt} (hx : x ∈ tr) (hx' : x' ∈ tr)
    {t t' : UUID} {row row' : Row} (hup : Uploads x.2.1 t row) (hup' : Uploads x'.2.1 t' row')
    (ht : t < 2^128) (ht' : t' < 2^128)
    (happart : ToldApart (hashedPayload t row) (hashedPayload t' row')) :
    (∃! r, r ∈ w.store.logs ∧ IsLogOf t row r) ∧
      ((∃ r ∈ w.store.logs, IsLogOf t row r ∧ IsLogOf t' row' r) ↔ t = t' ∧ SameCells row row') := by
  obtain ⟨e,he,r,hr,hpid⟩ := uploads_logged h hx hup
  obtain ⟨e',he',_⟩ := uploads_logged h hx' hup'
  have hslots := (consistent_of_reachable h.reachable).slots
  constructor
  · refine ⟨r,⟨hr,e,he,hpid⟩,?_⟩
    rintro r' ⟨hr',e'',he'',hpid'⟩
    obtain rfl := Except.ok.inj (he.symm.trans he'')
    exact List.inj_on_of_nodup_map hslots hr' hr (hpid'.trans hpid.symm)
  · rw [← eventId_eq_iff he he' ht ht' happart]
    constructor
    · rintro ⟨r',_,⟨e₁,he₁,hpid₁⟩,e₂,he₂,hpid₂⟩
      obtain rfl := Except.ok.inj (he.symm.trans he₁)
      obtain rfl := Except.ok.inj (he'.symm.trans he₂)
      exact hpid₁.symm.trans hpid₂
    · intro hsame
      exact ⟨r,hr,⟨e,he,hpid⟩,e',he',hpid.trans hsame⟩

end Runs

def cardOp : Op := .inlineRow 1 (stringifyRow cardRow)

def noteOp : Op := .batchRow 1 (stringifyRow noteRow)

def contactRows : List (Op × Fresh) := [(cardOp,Fresh.nth 0),(noteOp,Fresh.nth 1)]

/-- Two rows with one phone number are two log rows. -/
theorem contact_rows_apart :
    letI := uploadRuntime
    (∃! r, r ∈ (play .empty contactRows).store.logs ∧ IsLogOf 1 (stringifyRow cardRow) r) ∧
      ((∃ r ∈ (play .empty contactRows).store.logs, IsLogOf 1 (stringifyRow cardRow) r ∧
        IsLogOf 1 (stringifyRow noteRow) r) ↔
        (1 : UUID) = 1 ∧ SameCells (stringifyRow cardRow) (stringifyRow noteRow)) := by
  let := uploadRuntime
  have hphone : Identifies (some "Phone","+49 151") .phone :=
    ⟨by decide +kernel,"Phone",rfl,by decide +kernel⟩
  have hcard : Uploads ⟨cardOp,Fresh.nth 0,(cardOp.tried .empty (Fresh.nth 0)).1⟩ 1
      (stringifyRow cardRow) := ⟨by decide +kernel,Or.inl rfl,_,.head _,.phone,by decide,hphone⟩
  have hnote : Uploads ⟨noteOp,Fresh.nth 1,
      (noteOp.tried (play .empty [(cardOp,Fresh.nth 0)]) (Fresh.nth 1)).1⟩ 1
      (stringifyRow noteRow) := ⟨by decide +kernel,Or.inr rfl,_,.head _,.phone,by decide,hphone⟩
  have hapart : ToldApart (hashedPayload 1 (stringifyRow cardRow))
      (hashedPayload 1 (stringifyRow noteRow)) := fun h => absurd h (by decide +kernel)
  exact @rows_logged_apart uploadRuntime _ _ (@path_trace uploadRuntime .empty contactRows) _ _
    (mem_trace .empty [] cardOp [(noteOp,Fresh.nth 1)] (by decide +kernel))
    (mem_trace .empty [(cardOp,Fresh.nth 0)] noteOp [] (by decide +kernel)) 1 1
    (stringifyRow cardRow) (stringifyRow noteRow) hcard hnote (by decide) (by decide) hapart

end FileUpload
end LeadEngine
