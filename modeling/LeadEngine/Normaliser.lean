import Mathlib.Data.List.Sort
import LeadEngine.JsonText
import LeadEngine.Schema

/-! Source adapters: uploaded rows and Lead Ads submissions as normalised events. -/
namespace LeadEngine
namespace Normaliser

open Interpreter
open ByteText (hexDigits)
open JsonText (quote)

inductive CanonicalField
  | fullName | phone | email | location
  deriving DecidableEq

def standardFieldMap : List (String × CanonicalField) :=
  [("Mobile",.phone),("Phone",.phone),("Phone Number",.phone),("Cell",.phone),
    ("Contact Number",.phone),("Email",.email),("Email Address",.email),("E-mail",.email),
    ("Contact Name",.fullName),("Name",.fullName),("Full Name",.fullName),
    ("Customer Name",.fullName),("Location",.location),("City",.location),
    ("Address",.location),("Area",.location)]

/-- A row of an upload after `_stringify_row`. The header is `none` where `csv.DictReader`
collects surplus cells. -/
abbrev Row := Dict (Option String) String

/-- A header that is not a string breaks the normaliser: `AttributeError` in the loop, or
an error when the row is hashed or validated. -/
inductive RowError
  | badHeader
  deriving DecidableEq

section Hash

def uuidText (u : UUID) : List Char :=
  hexDigits 8 (u >>> 96) ++ '-' :: hexDigits 4 (u >>> 80) ++ '-' :: hexDigits 4 (u >>> 64) ++
    '-' :: hexDigits 4 (u >>> 48) ++ '-' :: hexDigits 12 u

def jsonMembers : List (List Char × List Char) → List Char
  | [] => []
  | [(k,v)] => quote k ++ [':',' '] ++ v
  | (k,v) :: rest => quote k ++ [':',' '] ++ v ++ [',',' '] ++ jsonMembers rest

def jsonObject (members : List (List Char × List Char)) : List Char :=
  '{' :: jsonMembers members ++ ['}']

def sortedCells (cells : List (String × String)) : List (String × String) :=
  cells.insertionSort fun a b => a.1 ≤ b.1

def rowPayload (tenantId : UUID) (cells : List (String × String)) : String :=
  String.ofList (jsonObject
    [(['r'],jsonObject ((sortedCells cells).map fun c => (c.1.toList,quote c.2.toList))),
      (['t'],quote (uuidText tenantId))])

def rowHash [Interpreter] (tenantId : UUID) (cells : List (String × String)) : String :=
  String.ofList ("file-".toList ++ ((sha256 (rowPayload tenantId cells)).toList.take 40))

end Hash

section FileRow

variable [Interpreter]

def fieldMapLower (header : String) : Option CanonicalField :=
  (standardFieldMap.find? fun e => lower e.1 = header).map Prod.snd

structure Cells where
  canonical : Dict CanonicalField String
  extra : Dict String Json

def readCell (st : Cells) (cell : Option String × String) : Except RowError Cells :=
  let strValue := strip cell.2
  if strValue = "" then .ok st
  else
    match cell.1 with
    | none => .error .badHeader
    | some header =>
      match fieldMapLower (lower (strip header)) with
      | some target =>
        if (st.canonical.get? target).isNone then
          .ok { st with canonical := st.canonical.set target strValue }
        else .ok st
      | none => .ok { st with extra := st.extra.set header (.str strValue) }

def readCells : Cells → List (Option String × String) → Except RowError Cells
  | st,[] => .ok st
  | st,cell :: rest =>
    match readCell st cell with
    | .error err => .error err
    | .ok st' => readCells st' rest

def stringCells : List (Option String × String) → Option (List (String × String))
  | [] => some []
  | (none,_) :: _ => none
  | (some header,value) :: rest => (stringCells rest).map ((header,value) :: ·)

def normaliseFileRow (row : Row) (tenantId : UUID) : Except RowError NormalisedChannelEvent :=
  match readCells ⟨.empty,.empty⟩ row.entries with
  | .error err => .error err
  | .ok st =>
    match stringCells row.entries with
    | none => .error .badHeader
    | some cells => .ok {
        tenantId := tenantId
        channelConnectionId := none
        source := .fileUpload
        platformEventId := rowHash tenantId cells
        fullName := st.canonical.get? .fullName
        phone := st.canonical.get? .phone
        email := st.canonical.get? .email
        location := st.canonical.get? .location
        rawText := none
        rawEventJson := .obj (cells.map fun c => (c.1,.str c.2))
        extraFields := st.extra }

theorem normaliseFileRow_eq_ok {row : Row} {tenantId : UUID} {e : NormalisedChannelEvent} :
    normaliseFileRow row tenantId = .ok e ↔
      ∃ st cells, readCells ⟨.empty,.empty⟩ row.entries = .ok st ∧
        stringCells row.entries = some cells ∧
        e = ⟨tenantId,none,.fileUpload,rowHash tenantId cells,st.canonical.get? .fullName,
          st.canonical.get? .phone,st.canonical.get? .email,st.canonical.get? .location,none,
          .obj (cells.map fun c => (c.1,.str c.2)),st.extra⟩ := by
  unfold normaliseFileRow
  cases hread : readCells ⟨.empty,.empty⟩ row.entries with
  | error err => simp
  | ok st =>
    cases hcells : stringCells row.entries with
    | none => simp
    | some cells => simp [eq_comm]

end FileRow

section LeadAdForm

variable [Interpreter]

/-- One item of a Lead Ads submission; a missing name or value list is `none`. -/
structure FieldItem where
  name : Option Json
  values : Option (List Json)

/-- `item.get("values", [])`, first value only, as trimmed text. -/
def firstValue (item : FieldItem) : String :=
  match item.values.getD [] with
  | [] => ""
  | value :: _ => strip (str value)

def flattenItem (flat : Dict String String) (item : FieldItem) : Dict String String :=
  let value := firstValue item
  if value = "" then flat else flat.set (lower (str (item.name.getD (.str "")))) value

def flattenItems (fieldData : List FieldItem) : Dict String String :=
  fieldData.foldl flattenItem .empty

def locationFields : List String := ["city","state","zip_code","postal_code","country"]

def consumedFields : List String :=
  ["full_name","first_name","last_name","email","phone_number","work_phone_number"] ++
    locationFields

def adFullName (flat : Dict String String) : Option String :=
  match flat.get? "full_name" with
  | some name => some name
  | none =>
    let first := (flat.get? "first_name").getD ""
    let last := (flat.get? "last_name").getD ""
    truthy (some (strip (String.ofList (first.toList ++ ' ' :: last.toList))))

def adPhone (flat : Dict String String) : Option String :=
  match truthy (flat.get? "phone_number") with
  | some phone => some phone
  | none => flat.get? "work_phone_number"

/-- The location parts in the iteration order of the set `_location_fields`. -/
def adLocation (order : List String) (flat : Dict String String) : Option String :=
  truthy (some (String.intercalate ", " (order.filterMap flat.get?)))

def leadAdEventId (leadgenId : String) : String := "leadgen-" ++ leadgenId

def fieldItemJson (item : FieldItem) : Json :=
  .obj ((item.name.map (("name",·))).toList ++
    (item.values.map fun vs => ("values",Json.arr vs)).toList)

/-- `raw_event_json or {...}`; an absent or empty payload is replaced. -/
def leadAdRaw (leadgenId : String) (fieldData : List FieldItem) :
    Option (List (String × Json)) → Json
  | some (kv :: kvs) => .obj (kv :: kvs)
  | _ => .obj [("leadgen_id",.str leadgenId),("field_data",.arr (fieldData.map fieldItemJson))]

def normaliseLeadAdForm (order : List String) (fieldData : List FieldItem) (leadgenId : String)
    (tenantId : UUID) (channelConnectionId : Option UUID)
    (rawEventJson : Option (List (String × Json))) : NormalisedChannelEvent :=
  let flat := flattenItems fieldData
  { tenantId := tenantId
    channelConnectionId := channelConnectionId
    source := .facebookLeadAds
    platformEventId := leadAdEventId leadgenId
    fullName := adFullName flat
    phone := adPhone flat
    email := (truthy (flat.get? "email")).map lower
    location := adLocation order flat
    rawText := none
    rawEventJson := leadAdRaw leadgenId fieldData rawEventJson
    extraFields := (flat.filter fun k _ => k ∉ consumedFields).mapValues Json.str }

end LeadAdForm

end Normaliser
end LeadEngine
