import LeadEngine.CsvUpload

/-! What becomes of the cells of an uploaded table. Of several columns with one header the
dictionary of a row keeps the last, and of several headers of one field the first with a value
fills it; the cells pushed aside are lost unless a kept one repeats them. -/
namespace LeadEngine
namespace FileUpload

open Interpreter Normaliser

/-- A column of a table, seen from one row: the header and the cell under it. -/
abbrev Column := String × Option String

/-- The dictionary of a row, `dict(zip(headers,row))`. -/
def zipRow (columns : List Column) : RawRow :=
  columns.foldl (fun d c => d.set (some c.1) c.2) .empty

/-- `_parse_xlsx`, from the cells of the sheet by their `str()`; an empty cell is `none`. -/
def parseXlsx : List (List (Option String)) → List RawRow
  | [] => []
  | header :: lines => lines.map fun cells => zipRow ((header.map fun h => h.getD "").zip cells)

/-- The cells of an uploaded file, by the parser that reads them. They are those that its reader
yields: a CSV file with a cell of more than 131072 characters has none. -/
inductive Sheet
  | csv (lines : List (List String))
  | xlsx (lines : List (List (Option String)))

namespace Sheet

def rows [Interpreter] : Sheet → List RawRow
  | .csv lines => parseCsv lines
  | .xlsx lines => parseXlsx lines

def Even : Sheet → Prop
  | .csv lines => ∀ cells ∈ dataRows lines, cells.length = (headerOf lines).length
  | .xlsx lines => ∀ cells ∈ lines.tail, cells.length = (lines.headD []).length

instance : DecidablePred Even := fun
  | .csv lines =>
    inferInstanceAs (Decidable (∀ cells ∈ dataRows lines, cells.length = (headerOf lines).length))
  | .xlsx lines =>
    inferInstanceAs (Decidable (∀ cells ∈ lines.tail, cells.length = (lines.headD []).length))

def columns : Sheet → List (List Column)
  | .csv lines => (dataRows lines).map fun cells => (headerOf lines).zip (cells.map some)
  | .xlsx lines =>
    lines.tail.map fun cells => ((lines.headD []).map fun h => h.getD "").zip cells

theorem rows_of_even [Interpreter] {sheet : Sheet} (h : sheet.Even) :
    sheet.rows = sheet.columns.map zipRow := by
  cases sheet with
  | csv lines =>
    rw [rows,parseCsv,columns,List.map_map]
    refine List.map_congr_left fun cells hcells => ?_
    have hwidth : cells.length = (headerOf lines).length := h cells hcells
    rw [readRow,if_neg (by omega),List.drop_eq_nil_of_le hwidth.ge,List.foldl_nil]
    simp [zipRow,List.zip_map_right,List.foldl_map]
  | xlsx lines => cases lines <;> simp [rows,parseXlsx,columns]

end Sheet

section Zip

/-- The cell the row keeps under a header: that of its last column. -/
def cellUnder (columns : List Column) (header : String) : Option (Option String) :=
  (columns.reverse.find? fun c => c.1 = header).map Prod.snd

variable {columns : List Column}

theorem mem_of_cellUnder {header : String} {cell : Option String}
    (h : cellUnder columns header = some cell) : (header,cell) ∈ columns := by
  obtain ⟨c,hc,rfl⟩ := Option.map_eq_some_iff.mp h
  obtain rfl : c.1 = header := by simpa using List.find?_some hc
  simpa using List.mem_of_find?_eq_some hc

theorem get?_zipRow (header : String) :
    (stringifyRow (zipRow columns)).get? (some header) =
      (cellUnder columns header).map fun cell => cell.getD "" := by
  rw [stringifyRow,Dict.get?_mapValues,zipRow,Dict.get?_foldl_set]
  simp [cellUnder,Dict.get?]

theorem named_zipRow (columns : List Column) : Named (stringifyRow (zipRow columns)) := by
  rw [named_stringifyRow,zipRow,Dict.mem_keys_foldl_set]
  simp [Dict.keys]

theorem mem_zipRow {header : String} {text : String} :
    (some header,text) ∈ (stringifyRow (zipRow columns)).entries ↔
      ∃ cell, cellUnder columns header = some cell ∧ cell.getD "" = text := by
  rw [Dict.mem_entries,get?_zipRow,Option.map_eq_some_iff]

theorem before_zipRow {header : String} {other : Option String} :
    other ∈ (stringifyRow (zipRow columns)).keys.takeWhile (· ≠ some header) ↔
      ∃ h ∈ (columns.map Prod.fst).takeWhile (· ≠ header), some h = other := by
  rw [stringifyRow,Dict.keys_mapValues,zipRow,Dict.mem_takeWhile_foldl_set]
  have hkeys : (Dict.empty : RawRow).keys ++ columns.map (fun c => some c.1) =
      (columns.map Prod.fst).map some := by
    simp [Dict.keys]
  rw [hkeys,List.takeWhile_map,List.mem_map]
  simp [Function.comp_def]

end Zip

section Cells

variable [Interpreter]

def fieldOf (header : String) : Option CanonicalField := fieldMapLower (lower (strip header))

/-- The trimmed text of a cell. -/
def cellText (cell : Option String) : String := strip (cell.getD "")

/-- The cell is the one kept under its header, and no header that comes up before has a value for
the same field. -/
structure Kept (columns : List Column) (c : Column) : Prop where
  last : cellUnder columns c.1 = some c.2
  first : fieldOf c.1 ≠ none →
    ∀ header ∈ (columns.map Prod.fst).takeWhile (· ≠ c.1), fieldOf header = fieldOf c.1 →
      ∀ cell ∈ cellUnder columns header, cellText cell = ""

instance (columns : List Column) (c : Column) : Decidable (Kept columns c) :=
  decidable_of_iff (cellUnder columns c.1 = some c.2 ∧ (fieldOf c.1 ≠ none →
      ∀ header ∈ (columns.map Prod.fst).takeWhile (· ≠ c.1), fieldOf header = fieldOf c.1 →
        ∀ cell ∈ cellUnder columns header, cellText cell = ""))
    ⟨fun h => ⟨h.1,h.2⟩,fun h => ⟨h.last,h.first⟩⟩

/-- Every cell with a value that is pushed aside repeats a kept one, of its own field or of an
unrecognised header. -/
def AsideRepeated (columns : List Column) : Prop :=
  ∀ c ∈ columns, cellText c.2 ≠ "" → ¬ Kept columns c →
    ∃ d ∈ columns, Kept columns d ∧ cellText d.2 = cellText c.2 ∧
      (fieldOf d.1 = none ∨ fieldOf d.1 = fieldOf c.1)

instance (columns : List Column) : Decidable (AsideRepeated columns) := by
  unfold AsideRepeated; infer_instance

end Cells

def fieldValue (e : NormalisedChannelEvent) : CanonicalField → Option String
  | .fullName => e.fullName
  | .phone => e.phone
  | .email => e.email
  | .location => e.location

def InExtraFields (e : NormalisedChannelEvent) (text : String) : Prop :=
  ∃ entry ∈ e.extraFields.entries, entry.2.text? = some text

instance (e : NormalisedChannelEvent) (text : String) : Decidable (InExtraFields e text) := by
  unfold InExtraFields; infer_instance

/-- Every cell with a value is in the event, as the field of its header or in the extra fields;
under an unrecognised header it is in the extra fields. -/
def Holds [Interpreter] (columns : List Column) (e : NormalisedChannelEvent) : Prop :=
  ∀ c ∈ columns, cellText c.2 ≠ "" →
    ((fieldOf c.1).bind (fieldValue e) = some (cellText c.2) ∨ InExtraFields e (cellText c.2)) ∧
      (fieldOf c.1 = none → InExtraFields e (cellText c.2))

instance [Interpreter] (columns : List Column) (e : NormalisedChannelEvent) :
    Decidable (Holds columns e) := by
  unfold Holds; infer_instance

section Read

variable [Interpreter]

def Spare (cell : Option String × String) : Prop :=
  strip cell.2 ≠ "" ∧ ∃ header, cell.1 = some header ∧ fieldOf header = none

instance (cell : Option String × String) : Decidable (Spare cell) :=
  decidable_of_iff (strip cell.2 ≠ "" ∧ cell.1.map fieldOf = some none) (by simp [Spare])

theorem extra_readCell {cell : Option String × String} {st st' : Cells}
    (hread : readCell st cell = .ok st') :
    st'.extra = if Spare cell then st.extra.set (cell.1.getD "") (.str (strip cell.2))
      else st.extra := by
  unfold readCell at hread
  dsimp only at hread
  split_ifs at hread with hempty
  · obtain rfl := Except.ok.inj hread
    simp [Spare,hempty]
  cases hheader : cell.1 with
  | none => simp [hheader] at hread
  | some header =>
    simp only [hheader] at hread
    cases htarget : fieldMapLower (lower (strip header)) with
    | none =>
      simp only [htarget] at hread
      obtain rfl := Except.ok.inj hread
      simp [Spare,hempty,hheader,fieldOf,htarget]
    | some target =>
      have hspare : ¬ Spare cell := by simp [Spare,hheader,fieldOf,htarget]
      rw [if_neg hspare]
      simp only [htarget] at hread
      split_ifs at hread <;>
      · obtain rfl := Except.ok.inj hread
        rfl

theorem extra_readCells {cells : List (Option String × String)} {st st' : Cells}
    (hread : readCells st cells = .ok st') :
    st'.extra = (cells.filter fun cell => Spare cell).foldl
      (fun d cell => d.set (cell.1.getD "") (Json.str (strip cell.2))) st.extra := by
  induction cells generalizing st with
  | nil =>
    obtain rfl : st = st' := by simpa [readCells] using hread
    rfl
  | cons cell rest ih =>
    rw [readCells] at hread
    cases hcell : readCell st cell with
    | error err => simp [hcell] at hread
    | ok next =>
      rw [hcell] at hread
      rw [ih hread,extra_readCell hcell]
      by_cases hspare : Spare cell <;> simp [hspare]

/-- What an event made of a row shows of its cells. -/
theorem shown_of_normaliseFileRow {row : Row} {tenantId : UUID} {e : NormalisedChannelEvent}
    (h : normaliseFileRow row tenantId = .ok e) :
    (∀ field, fieldValue e field =
      (row.entries.find? fun cell => Identifies cell field).map fun cell => strip cell.2) ∧
    ∀ text, InExtraFields e text ↔ ∃ cell ∈ row.entries, Spare cell ∧ strip cell.2 = text := by
  obtain ⟨st,_,hread,_,rfl⟩ := normaliseFileRow_eq_ok.mp h
  constructor
  · intro field
    have hget := canonical_readCells hread field
    rw [show (Dict.empty : Dict CanonicalField String).get? field = none from rfl,
      Option.none_or] at hget
    cases field <;> exact hget
  · intro text
    have hnodup : ((row.entries.filter fun cell => Spare cell).map
        fun cell => cell.1.getD "").Nodup := by
      refine List.Nodup.map_on ?_ (row.nodup.of_map.filter _)
      intro c hc d hd hkey
      simp only [List.mem_filter,decide_eq_true_eq] at hc hd
      obtain ⟨hc,_,h₁,hh₁,_⟩ := hc
      obtain ⟨hd,_,h₂,hh₂,_⟩ := hd
      refine List.inj_on_of_nodup_map row.nodup hc hd ?_
      simp only [hh₁,hh₂,Option.getD_some] at hkey ⊢
      rw [hkey]
    have hextra : st.extra.entries = (row.entries.filter fun cell => Spare cell).map
        fun cell => (cell.1.getD "",Json.str (strip cell.2)) := by
      rw [extra_readCells hread]
      exact Dict.entries_foldl_set _ _ (d:=.empty) (by simpa [Dict.keys] using hnodup)
    simp only [InExtraFields,hextra,List.mem_map,List.mem_filter,decide_eq_true_eq,
      Json.text?_eq_some]
    constructor
    · rintro ⟨_,⟨cell,⟨hmem,hspare⟩,rfl⟩,htext⟩
      exact ⟨cell,hmem,hspare,Json.str.inj htext⟩
    · rintro ⟨cell,hmem,hspare,rfl⟩
      exact ⟨_,⟨cell,⟨hmem,hspare⟩,rfl⟩,rfl⟩

variable {columns : List Column} {tenantId : UUID} {e : NormalisedChannelEvent}

theorem inExtraFields_iff (h : normaliseFileRow (stringifyRow (zipRow columns)) tenantId = .ok e)
    {text : String} : InExtraFields e text ↔ text ≠ "" ∧
      ∃ c ∈ columns, Kept columns c ∧ fieldOf c.1 = none ∧ cellText c.2 = text := by
  rw [(shown_of_normaliseFileRow h).2]
  constructor
  · rintro ⟨⟨_,v⟩,hmem,⟨hne,header,rfl,hfield⟩,rfl⟩
    obtain ⟨cell,hcell,rfl⟩ := mem_zipRow.mp hmem
    exact ⟨hne,(header,cell),mem_of_cellUnder hcell,⟨hcell,fun hsome => absurd hfield hsome⟩,
      hfield,rfl⟩
  · rintro ⟨hne,⟨header,cell⟩,_,hkept,hfield,rfl⟩
    exact ⟨(some header,cell.getD ""),mem_zipRow.mpr ⟨cell,hkept.last,rfl⟩,
      ⟨hne,header,rfl,hfield⟩,rfl⟩

/-- A field holds the kept cell of its headers. -/
theorem fieldValue_iff (h : normaliseFileRow (stringifyRow (zipRow columns)) tenantId = .ok e)
    {field : CanonicalField} {text : String} : fieldValue e field = some text ↔ text ≠ "" ∧
      ∃ c ∈ columns, Kept columns c ∧ fieldOf c.1 = some field ∧ cellText c.2 = text := by
  rw [(shown_of_normaliseFileRow h).1,Option.map_eq_some_iff]
  constructor
  · rintro ⟨⟨key,v⟩,hfind,rfl⟩
    obtain ⟨hget,hid,hnone⟩ := Dict.find?_entries.mp hfind
    obtain ⟨hne,header,rfl,hfield⟩ : Identifies (key,v) field := by simpa using hid
    obtain ⟨cell,hcell,rfl⟩ := Option.map_eq_some_iff.mp ((get?_zipRow header).symm.trans hget)
    refine ⟨hne,(header,cell),mem_of_cellUnder hcell,⟨hcell,?_⟩,hfield,rfl⟩
    intro _ other hother hsame cell' hcell'
    by_contra hvalue
    have hno := hnone (some other) (before_zipRow.mpr ⟨other,hother,rfl⟩) (cell'.getD "")
      (by rw [get?_zipRow,hcell']; rfl)
    exact of_decide_eq_false hno ⟨hvalue,other,rfl,hsame.trans hfield⟩
  · rintro ⟨hne,⟨header,cell⟩,_,hkept,hfield,rfl⟩
    refine ⟨(some header,cell.getD ""),Dict.find?_entries.mpr ⟨?_,?_,?_⟩,rfl⟩
    · rw [get?_zipRow,hkept.last]
      rfl
    · exact decide_eq_true ⟨hne,header,rfl,hfield⟩
    · intro key hkey v hv
      obtain ⟨other,hother,rfl⟩ := before_zipRow.mp hkey
      obtain ⟨cell',hcell',rfl⟩ := Option.map_eq_some_iff.mp ((get?_zipRow other).symm.trans hv)
      refine decide_eq_false ?_
      rintro ⟨hvalue,header',hheader',hsame⟩
      obtain rfl := Option.some.inj hheader'
      exact hvalue (hkept.first (by simp [hfield]) other hother (hsame.trans hfield.symm)
        cell' hcell')

theorem holds_iff (h : normaliseFileRow (stringifyRow (zipRow columns)) tenantId = .ok e) :
    Holds columns e ↔ AsideRepeated columns := by
  refine forall₂_congr fun c hc => forall_congr' fun hvalue => ?_
  constructor
  · rintro ⟨hshown,hunrecognised⟩ _
    have hextra : InExtraFields e (cellText c.2) → ∃ d ∈ columns, Kept columns d ∧
        cellText d.2 = cellText c.2 ∧ (fieldOf d.1 = none ∨ fieldOf d.1 = fieldOf c.1) := by
      intro hin
      obtain ⟨_,d,hd,hkept,hfield,htext⟩ := (inExtraFields_iff h).mp hin
      exact ⟨d,hd,hkept,htext,Or.inl hfield⟩
    rcases hshown with hin | hin
    · obtain ⟨field,hfield,hin⟩ := Option.bind_eq_some_iff.mp hin
      obtain ⟨_,d,hd,hkept,hsame,htext⟩ := (fieldValue_iff h).mp hin
      exact ⟨d,hd,hkept,htext,Or.inr (hsame.trans hfield.symm)⟩
    · exact hextra hin
  · intro haside
    obtain ⟨d,hd,hkept,htext,hfield⟩ : ∃ d ∈ columns, Kept columns d ∧
        cellText d.2 = cellText c.2 ∧ (fieldOf d.1 = none ∨ fieldOf d.1 = fieldOf c.1) := by
      by_cases hkept : Kept columns c
      · exact ⟨c,hc,hkept,rfl,Or.inr rfl⟩
      · exact haside hkept
    have hextra : fieldOf d.1 = none → InExtraFields e (cellText c.2) := fun hnone =>
      (inExtraFields_iff h).mpr ⟨hvalue,d,hd,hkept,hnone,htext⟩
    refine ⟨?_,fun hnone => hextra (hfield.elim id fun hsame => hsame.trans hnone)⟩
    cases htarget : fieldOf d.1 with
    | none => exact Or.inr (hextra htarget)
    | some field =>
      have hsame : fieldOf c.1 = some field :=
        (hfield.resolve_left (by simp [htarget])).symm.trans htarget
      rw [hsame]
      exact Or.inl ((fieldValue_iff h).mpr ⟨hvalue,d,hd,hkept,htarget,htext⟩)

/-- Every data row becomes an event, and no cell of it is lost exactly when each cell that is
pushed aside is repeated by a kept one. -/
theorem no_cell_lost_iff {sheet : Sheet} (heven : sheet.Even) (tenantId : UUID) :
    List.Forall₂ (fun columns row => ∃ e, normaliseFileRow (stringifyRow row) tenantId = .ok e ∧
      (Holds columns e ↔ AsideRepeated columns)) sheet.columns sheet.rows := by
  rw [Sheet.rows_of_even heven,List.forall₂_map_right_iff,List.forall₂_same]
  intro columns _
  obtain ⟨e,he⟩ := normalises_iff.mpr (named_zipRow columns)
  exact ⟨e,he,holds_iff he⟩

end Read

def phonesSheet : Sheet :=
  .xlsx [[some "Name",some "Phone",some "Mobile",none],
    [some "Jane",some "+49 151",some " +49 151",some "call back"]]

theorem phonesSheet_repeated :
    letI := Interpreter.ascii id
    ∀ columns ∈ phonesSheet.columns, AsideRepeated columns := by
  decide +kernel

theorem repeated_phone_not_lost :
    letI := Interpreter.ascii id
    List.Forall₂ (fun columns row => ∃ e, normaliseFileRow (stringifyRow row) 1 = .ok e ∧
      Holds columns e) phonesSheet.columns phonesSheet.rows := by
  let := Interpreter.ascii id
  have hall := no_cell_lost_iff (show phonesSheet.Even by decide +kernel) 1
  refine List.forall₂_iff_zip.mpr ⟨hall.length_eq,fun hmem => ?_⟩
  obtain ⟨e,he,hiff⟩ := (List.forall₂_iff_zip.mp hall).2 hmem
  exact ⟨e,he,hiff.mpr (phonesSheet_repeated _ (List.of_mem_zip hmem).1)⟩

def notesSheet : Sheet := .csv [["Name","Notes","Notes"],["Jane","first","second"]]

/-- The first note is neither a field nor an extra field. -/
theorem first_note_lost :
    letI := Interpreter.ascii id
    notesSheet.Even ∧ ¬ List.Forall₂ (fun columns row =>
      ∃ e, normaliseFileRow (stringifyRow row) 1 = .ok e ∧ Holds columns e)
      notesSheet.columns notesSheet.rows := by
  let := Interpreter.ascii id
  refine ⟨by decide +kernel,fun hall => ?_⟩
  have hlost : ∀ pair ∈ notesSheet.columns.zip notesSheet.rows,
      (normaliseFileRow (stringifyRow pair.2) 1).toOption.any (Holds pair.1 ·) = false := by
    decide +kernel
  obtain ⟨pair,hmem⟩ : ∃ pair, pair ∈ notesSheet.columns.zip notesSheet.rows :=
    List.exists_mem_of_length_pos (by decide +kernel)
  obtain ⟨e,he,hholds⟩ := (List.forall₂_iff_zip.mp hall).2 hmem
  have hno := hlost pair hmem
  rw [he] at hno
  simp [Except.toOption,hholds] at hno

end FileUpload
end LeadEngine
