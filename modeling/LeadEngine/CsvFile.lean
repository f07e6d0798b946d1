import LeadEngine.ByteText
import LeadEngine.CsvText
import LeadEngine.CsvUpload

/-! CSV files byte by byte: which files `_parse_csv` takes, and that it gives back the cells of a
table whatever program wrote the file. -/
namespace LeadEngine
namespace FileUpload

open Interpreter CsvText ByteText

inductive CsvFailure
  | encoding
  | csv (err : CsvError)
  deriving DecidableEq

def byteOrderMark : List UInt8 := [0xef,0xbb,0xbf]

/-- `data.decode("utf-8-sig")`: one byte order mark in front is dropped. -/
def decodeUtf8Sig (data : List UInt8) : Option String :=
  utf8Decode (if byteOrderMark <+: data then data.drop byteOrderMark.length else data)

def cellTexts (table : List (List (List Char))) : List (List String) :=
  table.map fun cells => cells.map String.ofList

section Parse

variable [Interpreter]

def parseCsvFile (data : List UInt8) : Except CsvFailure (List RawRow) :=
  match decodeUtf8Sig data with
  | none => .error .encoding
  | some text =>
    match CsvText.read fieldSizeLimit text.toList with
    | .error err => .error (.csv err)
    | .ok table => .ok (parseCsv (cellTexts table))

/-- A CSV file is parsed exactly when it is UTF-8 and its text is a sequence of records whose
fields are within the size limit; the rows are those of the records. -/
theorem parseCsvFile_ok_iff {data : List UInt8} {rows : List RawRow} :
    parseCsvFile data = .ok rows ↔ ∃ text table, decodeUtf8Sig data = some text ∧
      Records table text.toList ∧ Within fieldSizeLimit table ∧
      rows = parseCsv (cellTexts table) := by
  constructor
  · intro h
    rw [parseCsvFile] at h
    split at h
    · cases h
    next text hdecode =>
      split at h
      · cases h
      next table hread =>
        obtain ⟨hrecords,hfit⟩ := read_eq_ok_iff.mp hread
        exact ⟨text,table,hdecode,hrecords,hfit,(Except.ok.inj h).symm⟩
  · rintro ⟨text,table,hdecode,hrecords,hfit,rfl⟩
    simp only [parseCsvFile,hdecode,read_of_records hrecords hfit]

omit [Interpreter] in
theorem cellsFit_cellTexts {table : List (List (List Char))} :
    CellsFit (cellTexts table) ↔ Within fieldSizeLimit table := by
  simp [CellsFit,Within,cellTexts,String.length_ofList]

/-- The bytes of a table of records are parsed as its cells are. -/
theorem parseCsvFile_eq_parseTable {data : List UInt8} {text : String}
    {table : List (List (List Char))} (hdecode : decodeUtf8Sig data = some text)
    (hrecords : Records table text.toList) :
    (parseCsvFile data).mapError (fun _ => ()) = parseTable (cellTexts table) := by
  rw [parseTable]
  by_cases hfit : Within fieldSizeLimit table
  · rw [if_pos (cellsFit_cellTexts.mpr hfit),
      parseCsvFile_ok_iff.mpr ⟨text,table,hdecode,hrecords,hfit,rfl⟩]
    rfl
  · rw [if_neg (mt cellsFit_cellTexts.mp hfit)]
    cases hparsed : parseCsvFile data with
    | error _ => rfl
    | ok rows =>
      obtain ⟨text',table',hdecode',hrecords',hfit',_⟩ := parseCsvFile_ok_iff.mp hparsed
      obtain rfl := Option.some.inj (hdecode.symm.trans hdecode')
      exact absurd (hrecords.unique hrecords' ▸ hfit') hfit

def columnsOf : List String → List String → List (Option String × Option String)
  | [],_ => []
  | name :: header,cells => (some name,cells.head?) :: columnsOf header cells.tail

omit [Interpreter] in
theorem columnsOf_eq (header cells : List String) :
    columnsOf header cells =
      ((header.zip cells).map fun c => (some c.1,some c.2)) ++
        (header.drop cells.length).map fun name => (some name,none) := by
  induction header generalizing cells with
  | nil => simp [columnsOf]
  | cons name header ih => cases cells <;> simp [columnsOf,ih]

omit [Interpreter] in
theorem nodup_columns {header : List String} (h : header.Nodup) (cells : List String) :
    (((header.zip cells).map fun c => some c.1) ++
      (header.drop cells.length).map (some : String → Option String)).Nodup := by
  have hkeys : ((header.zip cells).map fun c => some c.1) ++
      (header.drop cells.length).map (some : String → Option String) = header.map some := by
    have hcolumns := congrArg (List.map Prod.fst) (columnsOf_eq header cells)
    have hnames : (columnsOf header cells).map Prod.fst = header.map some := by
      induction header generalizing cells with
      | nil => rfl
      | cons name header ih =>
        simp only [columnsOf,List.map_cons,
          ih (List.nodup_cons.mp h).2 cells.tail (congrArg (List.map Prod.fst) (columnsOf_eq _ _))]
    simpa [hnames,Function.comp_def] using hcolumns.symm
  rw [hkeys]
  exact h.map (Option.some_injective String)

/-- Under distinct header names every cell stands in the column that it was written in; the
surplus cells of a row come last, under `None`. -/
theorem entries_readRow {header : List String} (h : header.Nodup) (cells : List String) :
    (readRow header cells).entries = columnsOf header cells ++
      if header.length < cells.length then
        [(none,some (str (.arr ((cells.drop header.length).map Json.str))))]
      else [] := by
  have hnodup := nodup_columns h cells
  have hzip : ((header.zip cells).foldl (fun (d : RawRow) c => d.set (some c.1) (some c.2))
      .empty).entries = (header.zip cells).map fun c => (some c.1,some c.2) :=
    Dict.entries_foldl_set (fun c : String × String => some c.1) (fun c => some c.2)
      (d:=.empty) (List.nodup_append.mp hnodup).1
  have hkeys : ((header.zip cells).foldl (fun (d : RawRow) c => d.set (some c.1) (some c.2))
      .empty).keys = (header.zip cells).map fun c => some c.1 := by
    rw [Dict.keys,hzip,List.map_map]
    rfl
  rw [columnsOf_eq,readRow]
  split_ifs with hlong
  · have hnone : none ∉ ((header.zip cells).foldl
        (fun (d : RawRow) c => d.set (some c.1) (some c.2)) .empty).keys := by
      rw [hkeys]
      simp
    have hset : ∀ {d : RawRow} {k v : Option String}, k ∉ d.keys →
        (d.set k v).entries = d.entries ++ [(k,v)] := fun hk => by rw [Dict.set,dif_neg hk]
    rw [hset hnone,hzip,List.drop_eq_nil_of_le hlong.le,List.map_nil,List.append_nil]
  · rw [Dict.entries_foldl_set (fun name : String => some name) (fun _ => none)
      (by rwa [hkeys]),hzip,List.append_nil]

end Parse

section Write

def fileBytes (mark : Bool) (text : List Char) : List UInt8 :=
  (if mark then byteOrderMark else []) ++ utf8Encode (String.ofList text)

theorem head_of_mark {text : List Char} (h : byteOrderMark <+: utf8Encode (String.ofList text)) :
    text.head? = some '\ufeff' := by
  obtain ⟨rest,hrest⟩ := h
  have hmark : ['\ufeff'].utf8Encode = byteOrderMark.toByteArray := by
    rw [List.utf8Encode]
    exact congrArg List.toByteArray (by decide +kernel)
  have hbytes : ['\ufeff'].utf8Encode ++ rest.toByteArray = text.utf8Encode := by
    rw [hmark,← List.toByteArray_append,hrest,utf8Encode,← String.toByteArray_ofList]
    apply ByteArray.ext
    rw [List.data_toByteArray]
    exact Array.toArray_toList ..
  obtain ⟨tail,rfl⟩ := List.isPrefix_of_utf8Encode_append_eq_utf8Encode _ hbytes
  rfl

theorem decodeUtf8Sig_fileBytes {mark : Bool} {text : List Char}
    (h : mark = true ∨ text.head? ≠ some '\ufeff') :
    decodeUtf8Sig (fileBytes mark text) = some (String.ofList text) := by
  rw [decodeUtf8Sig,fileBytes]
  cases mark with
  | true =>
    rw [if_pos rfl,if_pos (List.prefix_append _ _),List.drop_left,utf8Decode_encode]
  | false =>
    have hfree : ¬ byteOrderMark <+: utf8Encode (String.ofList text) := fun hmark =>
      h.resolve_left (by simp) (head_of_mark hmark)
    simp only [Bool.false_eq_true,if_false,List.nil_append,if_neg hfree,utf8Decode_encode]

variable [Interpreter]

def Written.texts (line : Written) : List String := line.fields.map String.ofList

/-- A file is parsed to the table that was written, under any choice of the byte order mark, of the
fields that are quoted without need and of the line ends: every cell stands under the name of its
column, for every line that is not blank. -/
theorem parseCsvFile_fileBytes {mark final : Bool} {header : Written} {lines : List Written}
    (hfit : Within fieldSizeLimit ((header :: lines).map Written.fields))
    (hmark : mark = true ∨ (write final (header :: lines)).head? ≠ some '\ufeff')
    (hheader : header.fields.Nodup) :
    ∃ rows, parseCsvFile (fileBytes mark (write final (header :: lines))) = .ok rows ∧
      rows.map Dict.entries = ((lines.map Written.texts).filter (· ≠ [])).map fun cells =>
        columnsOf (Written.texts header) cells ++
          if (Written.texts header).length < cells.length then
            [(none,some (str (.arr ((cells.drop (Written.texts header).length).map Json.str))))]
          else [] := by
  have hread := read_write final hfit
  refine ⟨parseCsv (cellTexts ((header :: lines).map Written.fields)),?_,?_⟩
  · simp only [parseCsvFile,decodeUtf8Sig_fileBytes hmark,String.toList_ofList,hread]
  · have hnodup : (Written.texts header).Nodup := hheader.map fun _ _ => String.ofList_injective
    have htable : cellTexts ((header :: lines).map Written.fields) =
        Written.texts header :: lines.map Written.texts := by
      simp [cellTexts,Written.texts]
    rw [htable,parseCsv,List.map_map]
    exact List.map_congr_left fun cells _ => entries_readRow hnodup cells

end Write

def quotedHeader : Written := ⟨[(false,"Phone".toList),(true,"Note".toList)],true⟩

def quotedLines : List Written :=
  [⟨[],false⟩,⟨[(false,"+49 151".toList),(false,"said \"yes\",\nringing".toList)],true⟩]

theorem quotedLines_parsed :
    letI := Interpreter.ascii id
    ∃ rows, parseCsvFile (fileBytes true (write false (quotedHeader :: quotedLines))) = .ok rows ∧
      rows.map Dict.entries =
        [[(some "Phone",some "+49 151"),(some "Note",some "said \"yes\",\nringing")]] := by
  let := Interpreter.ascii id
  obtain ⟨rows,hparsed,hrows⟩ := @parseCsvFile_fileBytes _ true false quotedHeader quotedLines
    (by decide +kernel) (.inl rfl) (by decide +kernel)
  exact ⟨rows,hparsed,hrows.trans (by decide +kernel)⟩

end FileUpload
end LeadEngine
