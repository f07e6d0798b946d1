import Mathlib.Data.List.Perm.Basic
import LeadEngine.Minimisation
import LeadEngine.RowOutcome

/-! Uploading a file again. The event id of a row is a hash of its cells in the order of their
headers, so a row with an identity finds its own slot wherever its row and its columns are
moved; a row without an identity has no slot. -/
namespace LeadEngine
namespace FileUpload

open Table Interpreter Repository Deduplicator TwoStageFilter Pipeline Normaliser History

/-- The same cells, in any order of the columns. -/
def SameCells (row row' : Row) : Prop := row.entries.Perm row'.entries

def SameRows (rows rows' : List Row) : Prop :=
  ∃ moved, rows.Perm moved ∧ List.Forall₂ SameCells moved rows'

theorem stringCells_perm {cells cells' : List (Option String × String)} (h : cells.Perm cells')
    {named : List (String × String)} (hn : stringCells cells = some named) :
    ∃ named', stringCells cells' = some named' ∧ named.Perm named' := by
  have hsome : (stringCells cells').isSome := by
    rw [stringCells_isSome]
    intro cell hcell
    exact stringCells_isSome.mp (by simp [hn]) cell (h.mem_iff.mpr hcell)
  obtain ⟨named',hn'⟩ := Option.isSome_iff_exists.mp hsome
  refine ⟨named',hn',?_⟩
  have hinj : Function.Injective fun c : String × String => (some c.1,c.2) := by
    rintro ⟨a,b⟩ ⟨c,d⟩ h
    simpa using h
  rw [stringCells_eq hn,stringCells_eq hn'] at h
  exact (List.map_perm_map_iff hinj).mp h

theorem sortedCells_perm {cells cells' : List (String × String)} (h : cells.Perm cells')
    (hkeys : (cells.map Prod.fst).Nodup) : sortedCells cells = sortedCells cells' := by
  have htotal : Std.Total fun a b : String × String => a.1 ≤ b.1 :=
    ⟨fun a b => String.le_total a.1 b.1⟩
  have htrans : IsTrans (String × String) fun a b => a.1 ≤ b.1 :=
    ⟨fun _ _ _ hab hbc => String.le_trans hab hbc⟩
  have hperm : ∀ xs : List (String × String), (sortedCells xs).Perm xs :=
    fun xs => List.perm_insertionSort _ xs
  have hanti : ∀ a b, a ∈ sortedCells cells → b ∈ sortedCells cells' → a.1 ≤ b.1 → b.1 ≤ a.1 →
      a = b := by
    intro a b ha hb hab hba
    have ha' := (hperm cells).mem_iff.mp ha
    have hb' := h.mem_iff.mpr ((hperm cells').mem_iff.mp hb)
    exact List.inj_on_of_nodup_map hkeys ha' hb' (String.le_antisymm hab hba)
  exact List.Perm.eq_of_pairwise hanti (List.pairwise_insertionSort _ _)
    (List.pairwise_insertionSort _ _) ((hperm cells).trans (h.trans (hperm cells').symm))

section Upload

variable [Interpreter]

theorem rowHash_perm {cells cells' : List (String × String)} (h : cells.Perm cells')
    (hkeys : (cells.map Prod.fst).Nodup) (tenantId : UUID) :
    rowHash tenantId cells = rowHash tenantId cells' := by
  unfold rowHash rowPayload
  rw [sortedCells_perm h hkeys]

theorem hasIdentity_same {row row' : Row} (h : SameCells row row') :
    HasIdentity row' ↔ HasIdentity row := by
  simp only [HasIdentity,h.mem_iff]

theorem normaliseFileRow_same {row row' : Row} (h : SameCells row row') {tenantId : UUID}
    {e : NormalisedChannelEvent} (he : normaliseFileRow row tenantId = .ok e) :
    ∃ e', normaliseFileRow row' tenantId = .ok e' ∧ e'.platformEventId = e.platformEventId ∧
      (LacksIdentity e' ↔ LacksIdentity e) := by
  obtain ⟨hnamed,hidentity,cells,hcells,hpid⟩ := normaliseFileRow_ok he
  have hnamed' : Named row' := fun cell hcell => hnamed cell (h.mem_iff.mpr hcell)
  obtain ⟨e',he'⟩ := normalises_iff.mpr hnamed'
  obtain ⟨_,hidentity',cells',hcells',hpid'⟩ := normaliseFileRow_ok he'
  refine ⟨e',he',?_,by rw [hidentity',hidentity,hasIdentity_same h]⟩
  obtain ⟨moved,hmoved,hperm⟩ := stringCells_perm h hcells
  obtain rfl := Option.some.inj (hmoved.symm.trans hcells')
  have hheaders : ((cells.map Prod.fst).map some).Nodup := by
    have hnodup := row.nodup
    rw [stringCells_eq hcells] at hnodup
    simpa [List.map_map,Function.comp_def] using hnodup
  rw [hpid,hpid',rowHash_perm hperm hheaders.of_map]

structure Keyed (s : Store) : Prop where
  leadIds : (s.leads.map Lead.id).Nodup
  slots : (s.logs.map IntakeEventLog.platformEventId).Nodup

def LoggedFor (s : Store) (platformEventId : String) (id : UUID) : Prop :=
  ∃ r ∈ s.logs, r.platformEventId = platformEventId ∧ ∃ l ∈ s.leads, l.id = id ∧ r.leadId = some id

def StoredAs (s : Store) (tenantId : UUID) (row : Row) (id : UUID) : Prop :=
  ∃ e, normaliseFileRow row tenantId = .ok e ∧ ¬ LacksIdentity e ∧
    LoggedFor s e.platformEventId id

theorem storedAs_sameCells {s : Store} {tenantId : UUID} {rows rows' : List Row} {ids : List UUID}
    (h : List.Forall₂ SameCells rows rows') (hstored : List.Forall₂ (StoredAs s tenantId) rows ids) :
    List.Forall₂ (StoredAs s tenantId) rows' ids := by
  induction h generalizing ids with
  | nil => exact hstored
  | cons hcells _ ih =>
    cases hstored with
    | cons hrow hrest =>
      obtain ⟨e,he,hid,hlogged⟩ := hrow
      obtain ⟨e',he',hpid,hlacks⟩ := normaliseFileRow_same hcells he
      exact .cons ⟨e',he',mt hlacks.mp hid,hpid ▸ hlogged⟩ (ih hrest)

section Loops

variable {path : UploadPath} {s s' : Store} {f : Fresh} {tenantId : UUID} {row : Row}
  {e : NormalisedChannelEvent} {l : Lead}

omit [Interpreter] in
theorem loggedFor_of_lookup {platformEventId : String}
    (h : getLeadByPlatformEventId s platformEventId = .ok (some l)) :
    LoggedFor s platformEventId l.id := by
  rw [getLeadByPlatformEventId,scalarOneOrNone_some] at h
  have hmem := h ▸ List.mem_singleton_self l
  obtain ⟨l',hl',hjoined⟩ := List.mem_flatMap.mp hmem
  obtain ⟨r,hr,rfl⟩ := List.mem_map.mp hjoined
  obtain ⟨hr,hjoin⟩ := List.mem_filter.mp hr
  obtain ⟨hlead,hpid⟩ := of_decide_eq_true hjoin
  exact ⟨r,hr,hpid,l',hl',rfl,hlead⟩

theorem RowDone.grows (h : RowDone path s f tenantId row e s' l) :
    (∃ leads, s'.leads = s.leads ++ leads) ∧ (∃ logs, s'.logs = s.logs ++ logs) ∧
      (¬ LacksIdentity e → LoggedFor s' e.platformEventId l.id) := by
  have hlogged : ∀ {s' : Store} {l : Lead} {status : IntakeStatus}, l ∈ s'.leads →
      settledLog f (path.prepare e) l.id status ∈ s'.logs →
      LoggedFor s' e.platformEventId l.id := by
    intro s' l status hl hr
    exact ⟨_,hr,prepare_platformEventId path e,l,hl,rfl,rfl⟩
  cases h with
  | blocked hid => exact ⟨⟨_,rfl⟩,⟨[],(List.append_nil _).symm⟩,fun hno => absurd hid hno⟩
  | redelivered l hid hslot hlead =>
    exact ⟨⟨[],(List.append_nil _).symm⟩,⟨[],(List.append_nil _).symm⟩,
      fun _ => loggedFor_of_lookup hlead⟩
  | captured hid hslot hdup =>
    exact ⟨⟨_,rfl⟩,⟨_,rfl⟩,fun _ => hlogged (List.mem_append_right _ (List.mem_singleton_self _))
      (List.mem_append_right _ (List.mem_singleton_self _))⟩
  | attached l hid hslot hdup =>
    exact ⟨⟨[],(List.append_nil _).symm⟩,⟨_,rfl⟩,fun _ => hlogged (findDuplicate_mem hdup).1
      (List.mem_append_right _ (List.mem_singleton_self _))⟩

theorem RowDone.keeps_logged (h : RowDone path s f tenantId row e s' l) {platformEventId : String}
    {id : UUID} (hl : LoggedFor s platformEventId id) : LoggedFor s' platformEventId id := by
  obtain ⟨⟨leads,hleads⟩,⟨logs,hlogs⟩,_⟩ := h.grows
  obtain ⟨r,hr,hpid,x,hx,hlead⟩ := hl
  exact ⟨r,by rw [hlogs]; exact List.mem_append_left _ hr,hpid,x,
    by rw [hleads]; exact List.mem_append_left _ hx,hlead⟩

theorem RowDone.keyed (h : RowDone path s f tenantId row e s' l) (hf : f.For s) (hk : Keyed s) :
    Keyed s' := by
  have hlead : f.leadId ∉ s.leads.map Lead.id := by
    rintro hmem
    obtain ⟨x,hx,hid⟩ := List.mem_map.mp hmem
    exact hf.lead x hx hid
  have hadded : ∀ {leadId : UUID} {status : IntakeStatus}, ¬ SlotTaken s e.platformEventId →
      ((s.logs ++ [settledLog f (path.prepare e) leadId status]).map
        IntakeEventLog.platformEventId).Nodup := by
    intro leadId status hslot
    rw [List.map_append]
    apply nodup_append_singleton hk.slots
    intro hmem
    obtain ⟨r,hr,hpid⟩ := List.mem_map.mp hmem
    exact hslot ⟨r,hr,hpid.trans (prepare_platformEventId path e)⟩
  have hinserted : ∀ {l : Lead}, l.id = f.leadId → ((s.leads ++ [l]).map Lead.id).Nodup := by
    intro l hid
    rw [List.map_append]
    exact nodup_append_singleton hk.leadIds (by rwa [hid])
  cases h with
  | blocked => exact ⟨hinserted rfl,hk.slots⟩
  | redelivered => exact hk
  | captured hid hslot => exact ⟨hinserted rfl,hadded hslot⟩
  | attached l hid hslot => exact ⟨hk.leadIds,hadded hslot⟩

theorem RowDone.leads_length (h : RowDone path s f tenantId row e s' l) (hlacks : LacksIdentity e) :
    s'.leads.length = s.leads.length + 1 := by
  cases h with
  | blocked => simp [withBlockedLead]
  | redelivered l hid | captured hid | attached l hid => exact absurd hlacks hid

theorem row_stored (hk : Keyed s) {id : UUID} (h : StoredAs s tenantId row id) (path : UploadPath)
    (f : Fresh) : ∃ c, path.row s f tenantId row = .ok (s,c) ∧ c.lead.id = id := by
  obtain ⟨e,he,hid,r,hr,hpid,l,hl,rfl,hlead⟩ := h
  have hslot : SlotTaken s (path.prepare e).platformEventId :=
    ⟨r,hr,hpid.trans (prepare_platformEventId path e).symm⟩
  have hfound : getLeadByPlatformEventId s (path.prepare e).platformEventId = .ok (some l) := by
    rw [prepare_platformEventId,← hpid]
    exact getLeadByPlatformEventId_some hk.leadIds hk.slots hr hl hlead
  refine ⟨⟨l,none⟩,?_,rfl⟩
  rw [row_eq,he]
  simp only [storeRow_capture (mt (lacksIdentity_prepare path e).mp hid),runCapture_taken hslot,
    redelivered,hfound]
  rfl

theorem inlineLoop_stored (hk : Keyed s) {rows : List Row} {ids : List UUID}
    (h : List.Forall₂ (StoredAs s tenantId) rows ids) (draws : ℕ → Fresh) (n : ℕ) :
    inlineLoop draws tenantId s n rows = (s,.ok ids) := by
  induction h generalizing n with
  | nil => rfl
  | cons hrow _ ih =>
    obtain ⟨c,hc,rfl⟩ := row_stored hk hrow .inline (draws n)
    rw [UploadPath.row] at hc
    rw [inlineLoop,hc]
    simp only [ih]
    rfl

/-- What the rows of an upload leave: each row with an identity is stored as the lead that is
returned for it. -/
theorem inlineLoop_stores {draws : ℕ → Fresh} {s₀ : Store} (hd : Drawn draws s₀) {n : ℕ}
    {rows : List Row} {ids : List UUID} (hk : Keyed s) (hf : ∀ j, n ≤ j → (draws j).For s)
    (h : inlineLoop draws tenantId s n rows = (s',.ok ids)) :
    Keyed s' ∧ (∀ platformEventId id, LoggedFor s platformEventId id →
        LoggedFor s' platformEventId id) ∧
      List.Forall₂ (fun row id => HasIdentity row → StoredAs s' tenantId row id) rows ids := by
  induction rows generalizing s n ids with
  | nil =>
    simp only [inlineLoop,Prod.mk.injEq,Except.ok.injEq] at h
    obtain ⟨rfl,rfl⟩ := h
    exact ⟨hk,fun _ _ hl => hl,.nil⟩
  | cons row rest ih =>
    obtain ⟨s₁,c,ids₁,hrow,hloop,rfl⟩ := inlineLoop_cons_ok h
    have hfn := hf n le_rfl
    have hinline : UploadPath.inline.row s (draws n) tenantId row = .ok (s₁,c) := hrow
    obtain ⟨e,he,hdone⟩ := rowDone hfn hinline
    have hf₁ := hdone.keeps_fresh hd hf
    obtain ⟨hk',hkeeps,hstored⟩ := ih (hdone.keyed hfn hk) hf₁ hloop
    refine ⟨hk',fun pid id hl => hkeeps pid id (hdone.keeps_logged hl),.cons ?_ hstored⟩
    intro hidentity
    have hid : ¬ LacksIdentity e :=
      fun hlacks => (normaliseFileRow_ok he).2.1.mp hlacks hidentity
    exact ⟨e,he,hid,hkeeps _ _ (hdone.grows.2.2 hid)⟩

/-- A row without an identity adds a lead. -/
theorem inlineLoop_adds {draws : ℕ → Fresh} {s₀ : Store} (hd : Drawn draws s₀) {n : ℕ}
    {rows : List Row} {ids : List UUID} (hf : ∀ j, n ≤ j → (draws j).For s)
    (h : inlineLoop draws tenantId s n rows = (s',.ok ids)) :
    s.leads.length ≤ s'.leads.length ∧
      ((∃ row ∈ rows, ¬ HasIdentity row) → s.leads.length < s'.leads.length) := by
  induction rows generalizing s n ids with
  | nil =>
    simp only [inlineLoop,Prod.mk.injEq] at h
    rw [h.1]
    simp
  | cons row rest ih =>
    obtain ⟨s₁,c,ids₁,hrow,hloop,rfl⟩ := inlineLoop_cons_ok h
    have hinline : UploadPath.inline.row s (draws n) tenantId row = .ok (s₁,c) := hrow
    obtain ⟨e,he,hdone⟩ := rowDone (hf n le_rfl) hinline
    have hf₁ := hdone.keeps_fresh hd hf
    obtain ⟨hle,hlt⟩ := ih hf₁ hloop
    obtain ⟨⟨leads,hleads⟩,_⟩ := hdone.grows
    have hle₁ : s.leads.length ≤ s₁.leads.length := by
      rw [hleads,List.length_append]
      omega
    refine ⟨hle₁.trans hle,?_⟩
    rintro ⟨row',hrow',hno⟩
    rcases List.mem_cons.mp hrow' with rfl | hrow'
    · have hlacks := (normaliseFileRow_ok he).2.1.mpr hno
      have hblocked := hdone.leads_length hlacks
      omega
    · exact hle₁.trans_lt (hlt ⟨row',hrow',hno⟩)

end Loops

/-- An upload changed no row and returned the same leads as the one before it. -/
structure Repeats (s s' : Store) (ids ids' : List UUID) : Prop where
  leads : s'.leads = s.leads
  touchpoints : s'.touchpoints = s.touchpoints
  logs : s'.logs = s.logs
  returned : ∀ id, id ∈ ids' ↔ id ∈ ids

/-- A file that is uploaded again, in any order of its rows and columns, changes nothing exactly
when each of its rows has an identity. -/
theorem reupload_idempotent_iff {s s₁ : Store} (hk : Keyed s) {draws draws' : ℕ → Fresh}
    (hd : Drawn draws s) (hd' : Drawn draws' s₁) {tenantId : UUID}
    {atFirst atSecond : Except Unit (Option (List Signal))} {first second : Upload}
    {ids : List UUID} {count : ℕ}
    (hfirst : handleFileUpload s draws tenantId atFirst first = (s₁,.ok (.sync ids count)))
    (ha : Accepted second) (hpass : Passes atSecond) (hrows : SameRows first.rows second.rows) :
    (∃ s₂ ids', handleFileUpload s₁ draws' tenantId atSecond second =
        (s₂,.ok (.sync ids' count)) ∧ Repeats s₁ s₂ ids ids') ↔
      ∀ row ∈ first.rows, HasIdentity row := by
  obtain ⟨moved,hmoved,hcells⟩ := hrows
  have hlength : second.rows.length = first.rows.length :=
    hcells.length_eq.symm.trans hmoved.length_eq.symm
  rcases handleFileUpload_ok hfirst with hresult | ⟨ids₁,hloop,hresult,hsync⟩
  · simp at hresult
  obtain ⟨rfl,rfl⟩ := UploadResult.sync.inj hresult
  rw [handleFileUpload_inline ha hpass (hlength ▸ hsync) s₁ draws' tenantId]
  constructor
  · rintro ⟨s₂,ids',hsecond,hrepeats⟩ row hrow
    by_contra hno
    obtain ⟨hstore,hids⟩ := Prod.mk.inj hsecond
    obtain ⟨ids₂,hids₂,_⟩ := Fallible.map_eq_ok.mp hids
    have hblocked : ∃ row' ∈ second.rows, ¬ HasIdentity row' := by
      obtain ⟨row',hrow',hsame⟩ := exists_of_forall₂ hcells.flip row (hmoved.mem_iff.mp hrow)
      exact ⟨row',hrow',fun hid => hno ((hasIdentity_same hsame).mp hid)⟩
    have hadds := (inlineLoop_adds hd' (fun j _ => hd'.fresh j)
      (Prod.ext hstore hids₂ : inlineLoop draws' tenantId s₁ 0 second.rows = (s₂,.ok ids₂))).2
      hblocked
    rw [hrepeats.leads] at hadds
    exact Nat.lt_irrefl _ hadds
  · intro hidentity
    obtain ⟨hk₁,_,hstored⟩ := inlineLoop_stores hd hk (fun j _ => hd.fresh j) hloop
    have hall : List.Forall₂ (StoredAs s₁ tenantId) first.rows ids :=
      ((List.forall₂_and_left _ _).mpr ⟨hidentity,hstored⟩).imp fun _ _ h => h.2 h.1
    obtain ⟨ids',hall',hids⟩ := List.perm_comp_forall₂ hmoved.symm hall
    refine ⟨s₁,ids',?_,⟨rfl,rfl,rfl,fun id => hids.mem_iff⟩⟩
    rw [inlineLoop_stored hk₁ (storedAs_sameCells hcells hall') draws' 0,hlength]
    rfl

end Upload

theorem keyed_empty : Keyed .empty := ⟨List.nodup_nil,List.nodup_nil⟩

/-- The rows of `contactsUpload` the other way round and with the columns exchanged. -/
def movedUpload : Upload :=
  ⟨".csv",90,.ok
    [⟨[(some "Note",some "call back"),(some "Phone",some "+49 151")],by decide⟩,
      ⟨[(some "Card",some "4111 1111 1111 1111"),(some "Phone",some "+49 151")],by decide⟩],
    .ok ()⟩

theorem sameRows_moved : SameRows contactsUpload.rows movedUpload.rows :=
  ⟨_,List.Perm.swap _ _ _,.cons (List.Perm.swap _ _ _) (.cons (List.Perm.swap _ _ _) .nil)⟩

/-- The first row is captured and the second attached to its lead; neither is stored again. -/
theorem moved_rows_repeat :
    letI := uploadRuntime
    ∃ s₁ ids s₂ ids', handleFileUpload .empty Fresh.nth 1 openConfig contactsUpload =
        (s₁,.ok (.sync ids 2)) ∧
      handleFileUpload s₁ (fun n => Fresh.nth (n+2)) 1 openConfig movedUpload =
        (s₂,.ok (.sync ids' 2)) ∧ Repeats s₁ s₂ ids ids' := by
  let := uploadRuntime
  have hresult : (handleFileUpload .empty Fresh.nth 1 openConfig contactsUpload).2 =
      .ok (.sync [0,0] 2) := by decide +kernel
  have hdrawn : Drawn (fun n => Fresh.nth (n+2))
      (handleFileUpload .empty Fresh.nth 1 openConfig contactsUpload).1 :=
    drawn_nth_from (by decide +kernel) (by decide +kernel) (by decide +kernel)
  have hphone : Identifies (some "Phone","+49 151") .phone :=
    ⟨by decide +kernel,"Phone",rfl,by decide +kernel⟩
  obtain ⟨s₂,ids',hsecond,hrepeats⟩ := (reupload_idempotent_iff keyed_empty drawn_nth_empty hdrawn
    (eq_of_snd hresult) ⟨by decide,by decide,_,rfl⟩ passes_openConfig sameRows_moved).mpr (by
      intro row hrow
      refine ⟨(some "Phone","+49 151"),?_,.phone,by decide,hphone⟩
      rcases List.mem_pair.mp hrow with rfl | rfl
      · exact .head _
      · exact .head _)
  exact ⟨_,_,s₂,ids',eq_of_snd hresult,hsecond,hrepeats⟩

/-- A row with a note and nothing else. -/
def anonymousRow : RawRow := ⟨[(some "Notes",some "call later")],by decide⟩

/-- Each upload of the row adds a lead. -/
theorem anonymous_row_stored_again :
    letI := Interpreter.ascii id
    ∃ s₁ s₂, handleFileUpload .empty Fresh.nth 1 openConfig (oneRowUpload anonymousRow) =
        (s₁,.ok (.sync [0] 1)) ∧
      handleFileUpload s₁ (fun n => Fresh.nth (n+1)) 1 openConfig (oneRowUpload anonymousRow) =
        (s₂,.ok (.sync [1] 1)) ∧
      s₁.leads.length = 1 ∧ s₂.leads.length = 2 ∧ ¬ Repeats s₁ s₂ [0] [1] := by
  let := Interpreter.ascii id
  have hfirst : (handleFileUpload .empty Fresh.nth 1 openConfig (oneRowUpload anonymousRow)).2 =
      .ok (.sync [0] 1) := by decide +kernel
  have hsecond : (handleFileUpload
      (handleFileUpload .empty Fresh.nth 1 openConfig (oneRowUpload anonymousRow)).1
      (fun n => Fresh.nth (n+1)) 1 openConfig (oneRowUpload anonymousRow)).2 =
      .ok (.sync [1] 1) := by decide +kernel
  refine ⟨_,_,eq_of_snd hfirst,eq_of_snd hsecond,by decide +kernel,by decide +kernel,?_⟩
  intro hrepeats
  simpa using hrepeats.returned 0

end FileUpload
end LeadEngine
