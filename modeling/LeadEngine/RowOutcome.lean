import LeadEngine.UploadRun

/-! What becomes of one row of an upload: which rows can be normalised, which have an identity,
and the four ways in which a row that raises nothing ends. Neither depends on the order of the
columns. -/
namespace LeadEngine
namespace FileUpload

open Table Interpreter Repository Deduplicator Pipeline Normaliser History

def Named (row : Row) : Prop := ∀ cell ∈ row.entries, cell.1.isSome

instance (row : Row) : Decidable (Named row) := by unfold Named; infer_instance

theorem stringCells_isSome {cells : List (Option String × String)} :
    (stringCells cells).isSome ↔ ∀ cell ∈ cells, cell.1.isSome := by
  induction cells with
  | nil => simp [stringCells]
  | cons cell rest ih =>
    obtain ⟨header,value⟩ := cell
    cases header with
    | none => simp [stringCells]
    | some header => simp [stringCells,ih]

section Columns

variable [Interpreter]

def Identifies (cell : Option String × String) (field : CanonicalField) : Prop :=
  strip cell.2 ≠ "" ∧ ∃ header, cell.1 = some header ∧
    fieldMapLower (lower (strip header)) = some field

instance (cell : Option String × String) (field : CanonicalField) :
    Decidable (Identifies cell field) :=
  decidable_of_iff (strip cell.2 ≠ "" ∧
      (cell.1.bind fun header => fieldMapLower (lower (strip header))) = some field)
    (by simp [Identifies,Option.bind_eq_some_iff])

/-- Some cell of the row holds a name, a phone or an email. -/
def HasIdentity (row : Row) : Prop :=
  ∃ cell ∈ row.entries, ∃ field, field ≠ CanonicalField.location ∧ Identifies cell field

structure ReadFrom (cells : List (Option String × String)) (st : Cells) : Prop where
  nonempty : ∀ field, st.canonical.get? field ≠ some ""
  filled : ∀ field, (st.canonical.get? field).isSome ↔ ∃ cell ∈ cells, Identifies cell field

/-- A cell fills its field only if it is the first to do so. -/
theorem canonical_readCell {cell : Option String × String} {st st' : Cells}
    (hread : readCell st cell = .ok st') (field : CanonicalField) :
    st'.canonical.get? field = (st.canonical.get? field).or
      (if Identifies cell field then some (strip cell.2) else none) := by
  unfold readCell at hread
  dsimp only at hread
  split_ifs at hread with hempty
  · obtain rfl := Except.ok.inj hread
    simp [Identifies,hempty]
  cases hheader : cell.1 with
  | none => simp [hheader] at hread
  | some header =>
    have hfield : Identifies cell field ↔
        fieldMapLower (lower (strip header)) = some field := by
      simp [Identifies,hempty,hheader]
    simp only [hheader] at hread
    simp only [hfield]
    cases htarget : fieldMapLower (lower (strip header)) with
    | none =>
      simp only [htarget] at hread
      obtain rfl := Except.ok.inj hread
      simp
    | some target =>
      simp only [htarget] at hread
      split_ifs at hread with hfree
      · obtain rfl := Except.ok.inj hread
        by_cases heq : field = target
        · subst heq
          simp [Dict.get?_set,Option.isNone_iff_eq_none.mp hfree]
        · simp [Dict.get?_set,heq,Ne.symm heq]
      · obtain rfl := Except.ok.inj hread
        by_cases heq : target = field
        · subst heq
          obtain ⟨v,hv⟩ := Option.ne_none_iff_exists'.mp (by simpa using hfree)
          simp [hv]
        · simp [heq]

theorem canonical_readCells {cells : List (Option String × String)} {st st' : Cells}
    (hread : readCells st cells = .ok st') (field : CanonicalField) :
    st'.canonical.get? field = (st.canonical.get? field).or
      ((cells.find? fun cell => Identifies cell field).map fun cell => strip cell.2) := by
  induction cells generalizing st with
  | nil =>
    obtain rfl : st = st' := by simpa [readCells] using hread
    simp
  | cons cell rest ih =>
    rw [readCells] at hread
    cases hcell : readCell st cell with
    | error err => simp [hcell] at hread
    | ok next =>
      rw [hcell] at hread
      rw [ih hread,canonical_readCell hcell,Option.or_assoc,List.find?_cons]
      by_cases hid : Identifies cell field <;> simp [hid]

theorem readFrom {cells : List (Option String × String)} {st : Cells}
    (hread : readCells ⟨.empty,.empty⟩ cells = .ok st) : ReadFrom cells st := by
  have hget : ∀ field, st.canonical.get? field =
      (cells.find? fun cell => Identifies cell field).map fun cell => strip cell.2 := by
    intro field
    rw [canonical_readCells hread]
    rfl
  constructor
  · intro field hfield
    rw [hget] at hfield
    obtain ⟨cell,hcell,hempty⟩ := Option.map_eq_some_iff.mp hfield
    have hid : Identifies cell field := by simpa using List.find?_some hcell
    exact hid.1 hempty
  · intro field
    rw [hget,Option.isSome_map,List.find?_isSome]
    simp

theorem readCells_named {cells : List (Option String × String)}
    (h : ∀ cell ∈ cells, cell.1.isSome) (st : Cells) : ∃ st', readCells st cells = .ok st' := by
  induction cells generalizing st with
  | nil => exact ⟨st,rfl⟩
  | cons cell rest ih =>
    obtain ⟨hcell,hrest⟩ := List.forall_mem_cons.mp h
    obtain ⟨header,hheader⟩ := Option.isSome_iff_exists.mp hcell
    have hread : ∃ next, readCell st cell = .ok next := by
      unfold readCell
      simp only [hheader]
      split_ifs
      · exact ⟨_,rfl⟩
      · split
        · split_ifs <;> exact ⟨_,rfl⟩
        · exact ⟨_,rfl⟩
    obtain ⟨next,hnext⟩ := hread
    rw [readCells,hnext]
    exact ih hrest next

/-- What a normalised row shows of the row. -/
theorem normaliseFileRow_ok {row : Row} {tenantId : UUID} {e : NormalisedChannelEvent}
    (h : normaliseFileRow row tenantId = .ok e) :
    Named row ∧ (LacksIdentity e ↔ ¬ HasIdentity row) ∧
      ∃ cells, stringCells row.entries = some cells ∧ e.platformEventId = rowHash tenantId cells := by
  obtain ⟨st,cells,hread,hcells,rfl⟩ := normaliseFileRow_eq_ok.mp h
  refine ⟨stringCells_isSome.mp (by simp [hcells]),?_,cells,hcells,rfl⟩
  have hfrom : ReadFrom row.entries st := readFrom hread
  have htruthy : ∀ field, truthy (st.canonical.get? field) = none ↔
      ¬ ∃ cell ∈ row.entries, Identifies cell field := by
    intro field
    rw [← hfrom.filled]
    cases hvalue : st.canonical.get? field with
    | none => simp
    | some v =>
      have hne : v ≠ "" := fun hv => hfrom.nonempty field (hv ▸ hvalue)
      simp [truthy,hne]
  simp only [LacksIdentity,htruthy,HasIdentity]
  constructor
  · rintro ⟨hphone,hemail,hname⟩ ⟨cell,hcell,field,hfield,hid⟩
    cases field with
    | fullName => exact hname ⟨cell,hcell,hid⟩
    | phone => exact hphone ⟨cell,hcell,hid⟩
    | email => exact hemail ⟨cell,hcell,hid⟩
    | location => exact hfield rfl
  · intro hno
    refine ⟨?_,?_,?_⟩ <;>
    · rintro ⟨cell,hcell,hid⟩
      exact hno ⟨cell,hcell,_,by decide,hid⟩

theorem normalises_iff {row : Row} {tenantId : UUID} :
    (∃ e, normaliseFileRow row tenantId = .ok e) ↔ Named row := by
  constructor
  · rintro ⟨e,he⟩
    exact (normaliseFileRow_ok he).1
  · intro h
    obtain ⟨st,hst⟩ := readCells_named h ⟨.empty,.empty⟩
    obtain ⟨cells,hcells⟩ := Option.isSome_iff_exists.mp (stringCells_isSome.mpr h)
    exact ⟨_,normaliseFileRow_eq_ok.mpr ⟨st,cells,hst,hcells,rfl⟩⟩

end Columns

section Outcome

variable [Interpreter]

/-- How a row with the event `e` ends that raises nothing: the store it leaves, and its lead. -/
inductive RowDone (path : UploadPath) (s : Store) (f : Fresh) (tenantId : UUID) (row : Row)
    (e : NormalisedChannelEvent) : Store → Lead → Prop
  | blocked (h : LacksIdentity e) :
      RowDone path s f tenantId row e
        (withBlockedLead s f tenantId row (path.prepare e).extraFields)
        (blockedLead f tenantId row (path.prepare e).extraFields "insufficient_identity_fields")
  | redelivered (l : Lead) (hid : ¬ LacksIdentity e) (hslot : SlotTaken s e.platformEventId)
      (hlead : getLeadByPlatformEventId s e.platformEventId = .ok (some l)) :
      RowDone path s f tenantId row e s l
  | captured (hid : ¬ LacksIdentity e) (hslot : ¬ SlotTaken s e.platformEventId)
      (hdup : findDuplicate s e.tenantId e = .ok none) :
      RowDone path s f tenantId row e (withNewLead s f (path.prepare e))
        (newLead f (path.prepare e))
  | attached (l : Lead) (hid : ¬ LacksIdentity e) (hslot : ¬ SlotTaken s e.platformEventId)
      (hdup : findDuplicate s e.tenantId e = .ok (some l)) :
      RowDone path s f tenantId row e (withDuplicate s f (path.prepare e) l) l

theorem rowDone {path : UploadPath} {s s' : Store} {f : Fresh} {tenantId : UUID} {row : Row}
    {c : Captured} (hf : f.For s) (h : path.row s f tenantId row = .ok (s',c)) :
    ∃ e, normaliseFileRow row tenantId = .ok e ∧ RowDone path s f tenantId row e s' c.lead := by
  have hends := rowEnds path hf tenantId row
  generalize path.row s f tenantId row = result at hends h
  cases hends with
  | malformed err he => cases h
  | blocked e he hid =>
    obtain ⟨rfl,rfl⟩ := Prod.mk.inj (Except.ok.inj h)
    exact ⟨e,he,.blocked hid⟩
  | redelivered e he hid hslot =>
    rw [Fallible.mapError_eq_ok,Pipeline.redelivered,prepare_platformEventId] at h
    split at h
    · cases h
    · cases h
    · rename_i l hlead
      obtain ⟨rfl,rfl⟩ := Prod.mk.inj (Except.ok.inj h)
      exact ⟨e,he,.redelivered l hid hslot hlead⟩
  | ambiguous e err hdup => cases h
  | captured e he hid hslot hdup =>
    obtain ⟨rfl,rfl⟩ := Prod.mk.inj (Except.ok.inj h)
    exact ⟨e,he,.captured hid hslot hdup⟩
  | attached e l he hid hslot hdup =>
    obtain ⟨rfl,rfl⟩ := Prod.mk.inj (Except.ok.inj h)
    exact ⟨e,he,.attached l hid hslot hdup⟩

section Step

variable {path : UploadPath} {s s' : Store} {f : Fresh} {tenantId : UUID} {row : Row}
  {e : NormalisedChannelEvent} {l : Lead}

theorem RowDone.change (h : RowDone path s f tenantId row e s' l) :
    ∃ received, Change s f s' received := by
  cases h with
  | blocked => exact ⟨none,.blocked tenantId row _⟩
  | redelivered => exact ⟨none,.redacted (Redaction.refl s)⟩
  | captured hid hslot hdup =>
    rw [prepare_eq]
    exact ⟨_,.captured { e with extraFields := path.keeps e.extraFields } hslot hdup⟩
  | attached l hid hslot hdup =>
    rw [prepare_eq]
    exact ⟨none,.attached { e with extraFields := path.keeps e.extraFields } l hslot hdup⟩

theorem RowDone.keeps_fresh {draws : ℕ → Fresh} {s₀ : Store} (hd : Drawn draws s₀) {n : ℕ}
    (h : RowDone path s (draws n) tenantId row e s' l) (hf : ∀ j, n ≤ j → (draws j).For s) :
    ∀ j, n+1 ≤ j → (draws j).For s' := by
  obtain ⟨received,hchange⟩ := h.change
  exact hchange.keeps_draws hd hf

end Step

structure Accepted (upload : Upload) : Prop where
  suffix : upload.suffix ∈ [".csv",".xlsx"]
  size : upload.size ≤ maxFileSize
  parsed : ∃ rawRows, upload.parsed = .ok rawRows

theorem handleFileUpload_inline {upload : Upload} (h : Accepted upload)
    {activeSignals : Except Unit (Option (List TwoStageFilter.Signal))}
    (hpass : Passes activeSignals) (hcount : upload.rows.length ≤ syncThreshold) (s : Store)
    (draws : ℕ → Fresh) (tenantId : UUID) :
    handleFileUpload s draws tenantId activeSignals upload =
      ((inlineLoop draws tenantId s 0 upload.rows).1,
        (inlineLoop draws tenantId s 0 upload.rows).2.map fun ids =>
          .sync ids upload.rows.length) := by
  obtain ⟨rawRows,hparsed⟩ := h.parsed
  obtain ⟨config,signals,rfl,hcheck⟩ := hpass
  have hrows : upload.rows = rawRows.map stringifyRow := by simp [Upload.rows,hparsed]
  have hmany : ¬ maxRows < rawRows.length := by
    rw [hrows,List.length_map] at hcount
    have hthreshold : syncThreshold ≤ maxRows := by decide
    omega
  unfold handleFileUpload
  rw [if_neg (not_not.mpr h.suffix),if_neg (Nat.not_lt.mpr h.size),hparsed]
  simp only [if_neg hmany,hcheck]
  rw [← hrows,if_neg (Nat.not_lt.mpr hcount)]

end Outcome

end FileUpload
end LeadEngine
