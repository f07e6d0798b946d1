import LeadEngine.UploadRun

/-! The inline and the queued path of an upload side by side. Capturing does not look at
extra fields, so the paths agree on everything but the extra fields of the leads they
insert, and on these exactly when the row had nothing to strip. -/
namespace LeadEngine

/-- An event, a lead, a store without its extra fields. -/
def NormalisedChannelEvent.plain (e : NormalisedChannelEvent) : NormalisedChannelEvent :=
  { e with extraFields := .empty }

def Lead.plain (l : Lead) : Lead := { l with extraFields := none }

def Store.plain (s : Store) : Store := { s with leads := s.leads.map Lead.plain }

def Store.extras (s : Store) : List (Option (Dict String Json)) := s.leads.map Lead.extraFields

theorem Store.eq_iff {s s' : Store} (h : s.plain = s'.plain) : s = s' ↔ s.extras = s'.extras := by
  constructor
  · rintro rfl
    rfl
  · intro hextras
    have hleads : s.leads.map Lead.plain = s'.leads.map Lead.plain := congrArg Store.leads h
    have hpairs : s.leads = s'.leads := by
      have hlength : s.leads.length = s'.leads.length := by
        simpa using congrArg List.length hleads
      refine List.ext_getElem hlength fun i hi hi' => ?_
      have hplain : (s.leads[i]).plain = (s'.leads[i]).plain := by
        simpa [hi,hi'] using congrArg (fun rows => rows[i]?) hleads
      have hextra : (s.leads[i]).extraFields = (s'.leads[i]).extraFields := by
        simpa [Store.extras,hi,hi'] using congrArg (fun rows => rows[i]?) hextras
      have hrest := Lead.mk.inj hplain
      cases hl : s.leads[i]
      cases hl' : s'.leads[i]
      simp_all
    cases s
    cases s'
    simp_all [Store.plain]

namespace FileUpload

open Fallible Table Interpreter Repository Deduplicator TwoStageFilter Pipeline Normaliser
open DataPolicy History

def plainResult (result : Store × Captured) : Store × Captured :=
  (result.1.plain,⟨result.2.lead.plain,result.2.received⟩)

theorem scalarOneOrNone_map {α β ε : Type} (err : ε) (g : α → β) (rows : List α) :
    scalarOneOrNone err (rows.map g) = (scalarOneOrNone err rows).map (Option.map g) := by
  match rows with
  | [] => rfl
  | [_] => rfl
  | _ :: _ :: _ => rfl

theorem select_plain (s : Store) (keep : Lead → Bool) (hkeep : ∀ l, keep l.plain = keep l) :
    scalarOneOrNone CaptureError.multipleResultsFound (s.plain.leads.filter keep) =
      (scalarOneOrNone CaptureError.multipleResultsFound (s.leads.filter keep)).map
        (Option.map Lead.plain) := by
  have hcomp : keep ∘ Lead.plain = keep := funext hkeep
  rw [Store.plain,List.filter_map,hcomp,scalarOneOrNone_map]

theorem getLeadByPlatformEventId_plain (s : Store) (platformEventId : String) :
    getLeadByPlatformEventId s.plain platformEventId =
      (getLeadByPlatformEventId s platformEventId).map (Option.map Lead.plain) := by
  rw [getLeadByPlatformEventId,getLeadByPlatformEventId,← scalarOneOrNone_map]
  congr 1
  simp only [Store.plain,List.flatMap_map,List.map_flatMap,List.map_map]
  rfl

theorem conflicts_plain {κ : Type} (key : Lead → Option κ) (hkey : ∀ l : Lead, key l.plain = key l)
    (s : Store) (l : Lead) : Conflicts key s.plain.leads l.plain ↔ Conflicts key s.leads l := by
  simp only [Conflicts,Store.plain,List.mem_map,exists_exists_and_eq_and,hkey]

theorem insertLead_plain (s : Store) (l : Lead) :
    s.plain.insertLead l.plain = (s.insertLead l).map Store.plain := by
  unfold Store.insertLead
  rw [if_congr (conflicts_plain Lead.phoneKey (fun _ => rfl) s l) rfl rfl,
    if_congr (conflicts_plain Lead.emailKey (fun _ => rfl) s l) rfl rfl]
  split_ifs
  · rfl
  · rfl
  · simp [Except.map,Store.plain]

section Paths

variable [Interpreter]

theorem lookupPhone_plain (s : Store) (tenantId : UUID) (e : NormalisedChannelEvent) :
    lookupPhone s.plain tenantId e.plain =
      (lookupPhone s tenantId e).map (Option.map Lead.plain) := by
  have hstored : storedPhone e.plain = storedPhone e := rfl
  rw [lookupPhone,lookupPhone,hstored]
  cases storedPhone e with
  | none => rfl
  | some p => exact select_plain s (fun l => l.tenantId = tenantId ∧ l.phone = some p) fun _ => rfl

theorem lookupEmail_plain (s : Store) (tenantId : UUID) (e : NormalisedChannelEvent) :
    lookupEmail s.plain tenantId e.plain =
      (lookupEmail s tenantId e).map (Option.map Lead.plain) := by
  have hstored : storedEmail e.plain = storedEmail e := rfl
  rw [lookupEmail,lookupEmail,hstored]
  cases storedEmail e with
  | none => rfl
  | some m => exact select_plain s (fun l => l.tenantId = tenantId ∧ l.email = some m) fun _ => rfl

omit [Interpreter] in
theorem lookupPlace_plain (s : Store) (tenantId : UUID) (e : NormalisedChannelEvent) :
    lookupPlace s.plain tenantId e.plain =
      (lookupPlace s tenantId e).map (Option.map Lead.plain) := by
  have hname : e.plain.fullName = e.fullName := rfl
  have hplace : e.plain.location = e.location := rfl
  rw [lookupPlace,lookupPlace,hname,hplace]
  cases truthy e.fullName with
  | none => rfl
  | some name =>
    cases truthy e.location with
    | none => rfl
    | some place =>
      exact select_plain s (fun l => l.tenantId = tenantId ∧ l.fullName = some name ∧
        l.location = some place) fun _ => rfl

theorem findDuplicate_plain (s : Store) (tenantId : UUID) (e : NormalisedChannelEvent) :
    findDuplicate s.plain tenantId e.plain =
      (findDuplicate s tenantId e).map (Option.map Lead.plain) := by
  rw [findDuplicate,findDuplicate,lookupPhone_plain,lookupEmail_plain,lookupPlace_plain]
  match lookupPhone s tenantId e with
  | .error _ => rfl
  | .ok (some _) => rfl
  | .ok none =>
    match lookupEmail s tenantId e with
    | .error _ => rfl
    | .ok (some _) => rfl
    | .ok none => rfl

omit [Interpreter] in
theorem redelivered_plain (s : Store) (e : NormalisedChannelEvent) :
    redelivered s.plain e.plain = (redelivered s e).map plainResult := by
  have hpid : e.plain.platformEventId = e.platformEventId := rfl
  rw [redelivered,redelivered,hpid,getLeadByPlatformEventId_plain]
  match getLeadByPlatformEventId s e.platformEventId with
  | .error _ => rfl
  | .ok none => rfl
  | .ok (some _) => rfl

/-- Capturing does not look at extra fields. -/
theorem runCapture_plain (s : Store) (f : Fresh) (e : NormalisedChannelEvent) :
    runCapture s.plain f e.plain = (runCapture s f e).map plainResult := by
  by_cases hslot : SlotTaken s e.platformEventId
  · have hslot' : SlotTaken s.plain e.plain.platformEventId := hslot
    rw [runCapture_taken hslot,runCapture_taken hslot',redelivered_plain]
  · have hslot' : ¬ SlotTaken s.plain e.plain.platformEventId := hslot
    have hfind : findDuplicate { s.plain with logs := s.plain.logs ++ [pendingLog f e.plain] }
        e.plain.tenantId e.plain =
        (findDuplicate { s with logs := s.logs ++ [pendingLog f e] } e.tenantId e).map
          (Option.map Lead.plain) := findDuplicate_plain _ _ _
    have hinsert : Store.insertLead { s.plain with
          logs := s.plain.logs ++ [pendingLog f e.plain] } (newLead f e.plain) =
        (Store.insertLead { s with logs := s.logs ++ [pendingLog f e] } (newLead f e)).map
          Store.plain :=
      insertLead_plain { s with logs := s.logs ++ [pendingLog f e] } (newLead f e)
    simp only [runCapture,reserveEventSlot,hslot,hslot',if_false,hfind]
    cases findDuplicate { s with logs := s.logs ++ [pendingLog f e] } e.tenantId e with
    | error err => rfl
    | ok found =>
      cases found with
      | some existing => rfl
      | none =>
        simp only [Except.map,Option.map_none,hinsert]
        cases Store.insertLead { s with logs := s.logs ++ [pendingLog f e] } (newLead f e) <;> rfl

theorem storeRow_plain (s : Store) (f : Fresh) (tenantId : UUID) (row : Row)
    (e : NormalisedChannelEvent) : storeRow s.plain f tenantId row e.plain =
      (storeRow s f tenantId row e).map plainResult := by
  by_cases hid : LacksIdentity e
  · have hid' : LacksIdentity e.plain := hid
    rw [storeRow_blocked hid,storeRow_blocked hid']
    simp [Except.map,plainResult,withBlockedLead,Store.plain,blockedLead,Lead.plain,
      NormalisedChannelEvent.plain]
  · have hid' : ¬ LacksIdentity e.plain := hid
    rw [storeRow_capture hid,storeRow_capture hid',runCapture_plain]
    cases runCapture s f e <;> rfl

theorem prepare_plain (path : UploadPath) (e : NormalisedChannelEvent) :
    (path.prepare e).plain = e.plain := by
  rw [prepare_eq]
  rfl

theorem rowNext_plain (path : UploadPath) (s : Store) (f : Fresh) (tenantId : UUID) (row : Row) :
    (rowNext path s f tenantId row).plain = match normaliseFileRow row tenantId with
      | .error _ => s.plain
      | .ok e => match storeRow s.plain f tenantId row e.plain with
        | .error _ => s.plain
        | .ok result => result.1 := by
  unfold rowNext
  rw [row_eq]
  cases normaliseFileRow row tenantId with
  | error err => rfl
  | ok e =>
    dsimp only
    rw [← prepare_plain path e,storeRow_plain]
    cases storeRow s f tenantId row (path.prepare e) <;> rfl

theorem rowsNext_plain (draws : ℕ → Fresh) (tenantId : UUID) {s s' : Store}
    (h : s.plain = s'.plain) (n : ℕ) (rows : List Row) :
    (rowsNext .inline draws tenantId s n rows).plain =
      (rowsNext .queued draws tenantId s' n rows).plain := by
  induction rows generalizing s s' n with
  | nil => exact h
  | cons row rest ih =>
    refine ih ?_ (n+1)
    rw [rowNext_plain,rowNext_plain,h]

def Inserts (s : Store) (e : NormalisedChannelEvent) : Prop :=
  LacksIdentity e ∨
    ¬ SlotTaken s e.platformEventId ∧ findDuplicate s e.tenantId e = .ok none

omit [Interpreter] in
theorem map_plain_none {found : Except CaptureError (Option Lead)} :
    found.map (Option.map Lead.plain) = .ok none ↔ found = .ok none := by
  match found with
  | .error _ => simp [Except.map]
  | .ok none => simp [Except.map]
  | .ok (some _) => simp [Except.map]

theorem inserts_congr {s s' : Store} (h : s.plain = s'.plain) (e : NormalisedChannelEvent) :
    Inserts s e ↔ Inserts s' e := by
  have hlogs : s.plain.logs = s'.plain.logs := congrArg Store.logs h
  replace hlogs : s.logs = s'.logs := hlogs
  have hfind : findDuplicate s e.tenantId e = .ok none ↔
      findDuplicate s' e.tenantId e = .ok none := by
    rw [← map_plain_none,← findDuplicate_plain,h,findDuplicate_plain,map_plain_none]
  rw [Inserts,Inserts,SlotTaken,SlotTaken,hlogs,hfind]

def extraColumn (extra : Dict String Json) : Option (Dict String Json) :=
  if extra.isEmpty then none else some extra

omit [Interpreter] in
theorem extraColumn_inj {extra extra' : Dict String Json}
    (h : extraColumn extra = extraColumn extra') : extra = extra' := by
  have hempty : ∀ d : Dict String Json, d.isEmpty = true → d = .empty :=
    fun d hd => Dict.ext_entries ((Dict.isEmpty_iff d).mp hd)
  unfold extraColumn at h
  split_ifs at h with hd hd'
  · rw [hempty extra hd,hempty extra' hd']
  · exact Option.some.inj h

theorem runCapture_inserts {s : Store} {e : NormalisedChannelEvent} (f : Fresh)
    (hslot : ¬ SlotTaken s e.platformEventId) (hdup : findDuplicate s e.tenantId e = .ok none) :
    ∃ s' c, runCapture s f e = .ok (s',c) ∧ s'.leads = s.leads ++ [newLead f e] := by
  have hdup' : findDuplicate { s with logs := s.logs ++ [pendingLog f e] } e.tenantId e =
      .ok none := hdup
  simp only [runCapture,reserveEventSlot,hslot,if_false,hdup',insertLead_reserved f hdup]
  exact ⟨_,_,rfl,rfl⟩

theorem runCapture_keeps {s s' : Store} {f : Fresh} {e : NormalisedChannelEvent} {c : Captured}
    (hno : ¬ (¬ SlotTaken s e.platformEventId ∧ findDuplicate s e.tenantId e = .ok none))
    (h : runCapture s f e = .ok (s',c)) : s'.leads = s.leads := by
  by_cases hslot : SlotTaken s e.platformEventId
  · rw [runCapture_taken hslot] at h
    rw [(redelivered_ok h).1]
  · have hfind : findDuplicate { s with logs := s.logs ++ [pendingLog f e] } e.tenantId e =
        findDuplicate s e.tenantId e := rfl
    simp only [runCapture,reserveEventSlot,hslot,if_false,hfind] at h
    cases hdup : findDuplicate s e.tenantId e with
    | error err => simp [hdup] at h
    | ok found =>
      cases found with
      | none => exact absurd ⟨hslot,hdup⟩ hno
      | some existing =>
        simp only [hdup,Except.ok.injEq,Prod.mk.injEq] at h
        rw [← h.1]
        rfl

theorem storeRow_inserts {s : Store} {e : NormalisedChannelEvent} (f : Fresh) (tenantId : UUID)
    (row : Row) (h : Inserts s e) : ∃ s' c, storeRow s f tenantId row e = .ok (s',c) ∧
      s'.extras = s.extras ++ [extraColumn e.extraFields] := by
  by_cases hid : LacksIdentity e
  · refine ⟨_,_,storeRow_blocked hid,?_⟩
    simp [Store.extras,withBlockedLead,blockedLead,extraColumn]
  · obtain ⟨hslot,hdup⟩ := h.resolve_left hid
    obtain ⟨s',c,hrun,hleads⟩ := runCapture_inserts f hslot hdup
    refine ⟨s',c,by rw [storeRow_capture hid,hrun]; rfl,?_⟩
    simp [Store.extras,hleads,newLead,extraColumn]

theorem storeRow_keeps {s s' : Store} {f : Fresh} {tenantId : UUID} {row : Row}
    {e : NormalisedChannelEvent} {c : Captured} (hno : ¬ Inserts s e)
    (h : storeRow s f tenantId row e = .ok (s',c)) : s'.extras = s.extras := by
  have hid : ¬ LacksIdentity e := fun hid => hno (Or.inl hid)
  rw [storeRow_capture hid] at h
  have hrun : runCapture s f e = .ok (s',c) := mapError_eq_ok.mp h
  rw [Store.extras,Store.extras,runCapture_keeps (fun hnew => hno (Or.inr hnew)) hrun]

theorem inserts_prepare (path : UploadPath) (s : Store) (e : NormalisedChannelEvent) :
    Inserts s (path.prepare e) ↔ Inserts s e := by
  rw [prepare_eq]
  rfl

theorem rowNext_inserts (path : UploadPath) {s : Store} (f : Fresh) {tenantId : UUID} {row : Row}
    {e : NormalisedChannelEvent} (he : normaliseFileRow row tenantId = .ok e) (h : Inserts s e) :
    (rowNext path s f tenantId row).extras =
      s.extras ++ [extraColumn (path.keeps e.extraFields)] := by
  obtain ⟨s',c,hrow,hextras⟩ :=
    storeRow_inserts f tenantId row ((inserts_prepare path s e).mpr h)
  rw [rowNext,row_eq,he]
  dsimp only
  rw [hrow,← prepare_extraFields]
  exact hextras

theorem rowNext_keeps (path : UploadPath) {s : Store} (f : Fresh) {tenantId : UUID} {row : Row}
    (h : ∀ e, normaliseFileRow row tenantId = .ok e → ¬ Inserts s e) :
    (rowNext path s f tenantId row).extras = s.extras := by
  rw [rowNext,row_eq]
  cases he : normaliseFileRow row tenantId with
  | error err => rfl
  | ok e =>
    have hno : ¬ Inserts s (path.prepare e) := fun hp => h e he ((inserts_prepare path s e).mp hp)
    dsimp only
    cases hrow : storeRow s f tenantId row (path.prepare e) with
    | error err => rfl
    | ok result => exact storeRow_keeps hno hrow

/-- A row keeps the extra fields equal exactly when it inserts no lead or has nothing to
strip. -/
theorem rowNext_extras_iff {s s' : Store} (h : s.plain = s'.plain) (f : Fresh) (tenantId : UUID)
    (row : Row) : (rowNext .inline s f tenantId row).extras =
        (rowNext .queued s' f tenantId row).extras ↔
      s.extras = s'.extras ∧ ∀ e, normaliseFileRow row tenantId = .ok e → Inserts s' e →
        (stripSensitiveFields e.extraFields).2.isEmpty = true := by
  by_cases hins : ∃ e, normaliseFileRow row tenantId = .ok e ∧ Inserts s' e
  · obtain ⟨e,he,hs'⟩ := hins
    have hs : Inserts s e := (inserts_congr h e).mpr hs'
    have hevent : ∀ e', normaliseFileRow row tenantId = .ok e' → e' = e :=
      fun e' he' => Except.ok.inj (he'.symm.trans he)
    have hlength : s.extras.length = s'.extras.length := by
      have hleads : s.plain.leads.length = s'.plain.leads.length := by rw [h]
      simpa [Store.extras,Store.plain] using hleads
    rw [rowNext_inserts .inline f he hs,rowNext_inserts .queued f he hs']
    constructor
    · intro heq
      obtain ⟨hextras,hcolumn⟩ := List.append_inj heq hlength
      have hstrip := extraColumn_inj (List.cons.inj hcolumn).1
      refine ⟨hextras,fun e' he' _ => ?_⟩
      rw [hevent e' he',Dict.isEmpty_iff,← strip_eq_self_iff]
      exact hstrip
    · rintro ⟨hextras,hclean⟩
      have hstrip := (strip_eq_self_iff _).mpr ((Dict.isEmpty_iff _).mp (hclean e he hs'))
      rw [UploadPath.keeps,UploadPath.keeps,hstrip,hextras]
  · have hno' : ∀ e, normaliseFileRow row tenantId = .ok e → ¬ Inserts s' e :=
      fun e he hi => hins ⟨e,he,hi⟩
    have hno : ∀ e, normaliseFileRow row tenantId = .ok e → ¬ Inserts s e :=
      fun e he hi => hno' e he ((inserts_congr h e).mp hi)
    rw [rowNext_keeps .inline f hno,rowNext_keeps .queued f hno']
    exact ⟨fun hextras => ⟨hextras,fun e he hi => absurd hi (hno' e he)⟩,And.left⟩

/-- The same over the rows of a file. -/
theorem rowsNext_extras_iff (draws : ℕ → Fresh) (tenantId : UUID) {s s' : Store}
    (h : s.plain = s'.plain) (n : ℕ) (rows : List Row) :
    (rowsNext .inline draws tenantId s n rows).extras =
        (rowsNext .queued draws tenantId s' n rows).extras ↔
      s.extras = s'.extras ∧ ∀ pre row post, rows = pre ++ row :: post →
        ∀ e, normaliseFileRow row tenantId = .ok e →
          Inserts (rowsNext .queued draws tenantId s' n pre) e →
          (stripSensitiveFields e.extraFields).2.isEmpty = true := by
  induction rows generalizing s s' n with
  | nil => simp [rowsNext]
  | cons row rest ih =>
    have hnext : (rowNext .inline s (draws n) tenantId row).plain =
        (rowNext .queued s' (draws n) tenantId row).plain := by
      rw [rowNext_plain,rowNext_plain,h]
    rw [rowsNext,rowsNext,ih hnext,rowNext_extras_iff h]
    constructor
    · rintro ⟨⟨hextras,hfirst⟩,hlater⟩
      refine ⟨hextras,fun pre row' post hrows => ?_⟩
      cases pre with
      | nil =>
        obtain ⟨rfl,_⟩ := List.cons.inj hrows
        exact hfirst
      | cons x pre =>
        obtain ⟨rfl,hrest⟩ := List.cons.inj hrows
        exact hlater pre row' post hrest
    · rintro ⟨hextras,hall⟩
      refine ⟨⟨hextras,hall [] row rest rfl⟩,fun pre row' post hrest => ?_⟩
      exact hall (row :: pre) row' post (by rw [hrest]; rfl)

/-- The inline loop and the batch job leave the same rows but for extra fields, and the
same stores exactly when every row that inserts a lead has nothing to strip. -/
theorem paths_agree_iff {s s₁ s₂ : Store} {draws : ℕ → Fresh} {tenantId : UUID}
    {activeSignals : Except Unit (Option (List Signal))} {rows : List Row} {ids : List UUID}
    (hpass : Passes activeSignals)
    (hinline : inlineLoop draws tenantId s 0 rows = (s₁,.ok ids))
    (hbatch : runLeadCaptureBatch s draws tenantId activeSignals rows = .ok s₂) :
    s₁.plain = s₂.plain ∧ (s₁ = s₂ ↔ ∀ pre row post, rows = pre ++ row :: post →
      ∀ e, normaliseFileRow row tenantId = .ok e →
        Inserts (batchLoop draws tenantId s 0 pre) e →
        (stripSensitiveFields e.extraFields).2.isEmpty = true) := by
  have hplain := rowsNext_plain draws tenantId (s:=s) rfl 0 rows
  have hextras := rowsNext_extras_iff draws tenantId (s:=s) rfl 0 rows
  rw [← inlineLoop_ok hinline,← runLeadCaptureBatch_eq hpass hbatch] at hplain hextras
  refine ⟨hplain,?_⟩
  rw [Store.eq_iff hplain,hextras]
  simp only [true_and,batchLoop_eq]

end Paths

/-- A row with nothing to strip: the stores are equal. -/
theorem note_paths_agree :
    letI := uploadRuntime
    ∃ s₁ s₂, inlineLoop Fresh.nth 1 .empty 0 [stringifyRow noteRow] = (s₁,.ok [0]) ∧
      runLeadCaptureBatch .empty Fresh.nth 1 openConfig [stringifyRow noteRow] = .ok s₂ ∧
      s₁.extras.map (Option.map Dict.keys) = [some ["Note"]] ∧ s₁ = s₂ := by
  let := uploadRuntime
  have hinline : inlineLoop Fresh.nth 1 .empty 0 [stringifyRow noteRow] =
      ((inlineLoop Fresh.nth 1 .empty 0 [stringifyRow noteRow]).1,.ok [0]) :=
    eq_of_snd (by decide +kernel)
  have hbatch : runLeadCaptureBatch .empty Fresh.nth 1 openConfig [stringifyRow noteRow] =
      .ok (batchLoop Fresh.nth 1 .empty 0 [stringifyRow noteRow]) := rfl
  have hagree := (paths_agree_iff passes_openConfig hinline hbatch).2
  refine ⟨_,_,hinline,hbatch,by decide +kernel,hagree.mpr fun pre row post hrows e he _ => ?_⟩
  have hclean : ((normaliseFileRow (stringifyRow noteRow) 1).map fun e =>
      (stripSensitiveFields e.extraFields).2.isEmpty) = .ok true := by decide +kernel
  have hrow : row = stringifyRow noteRow := by
    have hmem : row ∈ [stringifyRow noteRow] := by rw [hrows]; simp
    exact List.mem_singleton.mp hmem
  rw [← hrow,he] at hclean
  exact Except.ok.inj hclean

/-- A card number is stripped on the inline path and stored by the batch job. -/
theorem card_paths_differ :
    letI := uploadRuntime
    ∃ s₁ s₂, Passes openConfig ∧
      inlineLoop Fresh.nth 1 .empty 0 [stringifyRow cardRow] = (s₁,.ok [0]) ∧
      runLeadCaptureBatch .empty Fresh.nth 1 openConfig [stringifyRow cardRow] = .ok s₂ ∧
      s₁.extras.map (Option.map Dict.keys) = [none] ∧
      s₂.extras.map (Option.map Dict.keys) = [some ["Card"]] := by
  let := uploadRuntime
  exact ⟨_,_,passes_openConfig,eq_of_snd (by decide +kernel),rfl,by decide +kernel,
    by decide +kernel⟩

end FileUpload
end LeadEngine
