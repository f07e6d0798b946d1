import LeadEngine.Schema

/-! The two checks in front of the message pipeline: the two-stage noise filter
and the pre-flight check of the tenant's configuration. -/
namespace LeadEngine
namespace TwoStageFilter

open Interpreter

inductive FilterClassification
  | lead | noise | unclear | existingCustomer
  deriving DecidableEq

/-- `FilterClassification(value)`: only the four member strings are accepted. -/
def FilterClassification.ofValue : Json → Option FilterClassification
  | .str "LEAD" => some .lead
  | .str "NOISE" => some .noise
  | .str "UNCLEAR" => some .unclear
  | .str "EXISTING_CUSTOMER" => some .existingCustomer
  | _ => none

structure FilterResult where
  classification : FilterClassification
  extractedFields : List (String × Json)
  confidence : Option ℚ

/-- `FilterClientError`, `ExternalServiceError` and the built-in errors a malformed
classifier answer runs into. -/
inductive FilterError
  | filterClient | externalService | typeError | validationError
  deriving DecidableEq

def stage1NoiseWords : List String :=
  ["hi","hello","hey","ok","okay","thanks","thank","k","yes","no","bye","good","fine","sure"]

def emojiRanges : List (ℕ × ℕ) :=
  [(0x1F000,0x1FFFF),(0x2600,0x27BF),(0x1FA00,0x1FA9F),(0x2702,0x27B0),(0x1F900,0x1F9FF),
    (0x2194,0x2199),(0x2300,0x23FF),(0x2B50,0x2B50),(0x2B55,0x2B55),(0x200D,0x200D),
    (0xFE0F,0xFE0F),(0x20E3,0x20E3)]

section Stages

variable [Interpreter]

def emojiOnly (text : String) : Bool :=
  text.toList.all fun c => isSpace c || emojiRanges.any fun r => r.1 ≤ c.toNat && c.toNat ≤ r.2

def isStage1Noise (text : String) : Bool :=
  let stripped := strip text
  stripped = "" || emojiOnly stripped ||
    String.ofList ((lower stripped).toList.filter isWord) ∈ stage1NoiseWords

end Stages

/-- The double nearest to 0.7, which the confidence is compared with. -/
def confidenceFloor : ℚ := 3152519739159347 / 4503599627370496

/-- The least integer that is too large for a `float`. -/
def floatLimit : ℕ := Nat.pow 2 1024 - Nat.pow 2 970

/-- The confidence of an answer as a number; a value without an order raises, and the result model
rejects an integer that no `float` holds. -/
def confidenceOf : Option Json → Except FilterError (Option ℚ)
  | none | some .null => .ok none
  | some (.int n) => if n.natAbs < floatLimit then .ok (some n) else .error .validationError
  | some (.float q) => .ok (some q)
  | some (.bool b) => .ok (some (if b then 1 else 0))
  | some _ => .error .typeError

/-- Low confidence turns every class but LEAD and UNCLEAR into LEAD. -/
def calibrate (classification : FilterClassification) (confidence : Option ℚ) :
    FilterClassification :=
  match confidence with
  | none => classification
  | some q =>
    if q < confidenceFloor ∧ classification ≠ .lead ∧ classification ≠ .unclear then .lead
    else classification

/-- The `extracted_fields` of an answer, `{}` when missing. -/
def extractedOf : Option Json → Except FilterError (List (String × Json))
  | none => .ok []
  | some (.obj kvs) => .ok kvs
  | some _ => .error .validationError

def readAnswer (raw : Json) : Except FilterError FilterResult :=
  match raw with
  | .obj _ =>
    match (raw.get? "classification").bind FilterClassification.ofValue with
    | none => .error .filterClient
    | some classification =>
      match confidenceOf (raw.get? "confidence") with
      | .error err => .error err
      | .ok confidence =>
        match extractedOf (raw.get? "extracted_fields") with
        | .error err => .error err
        | .ok extracted => .ok ⟨calibrate classification confidence,extracted,confidence⟩
  | _ => .error .typeError

def runFilter [Interpreter] (text : String) (classifyMessage : String → Except FilterError Json) :
    Except FilterError FilterResult :=
  if isStage1Noise text then .ok ⟨.noise,[],none⟩
  else
    match classifyMessage text with
    | .error err => .error err
    | .ok raw => readAnswer raw

inductive Dimension
  | fit | intent | engagement | behaviour | context
  deriving DecidableEq

structure Signal where
  id : String
  dimension : Dimension
  question : String

inductive PreFlightHalt
  | noActiveConfig | emptySignals
  deriving DecidableEq

def PreFlightHalt.reason : PreFlightHalt → String
  | .noActiveConfig => "no_active_config"
  | .emptySignals => "empty_signals"

def checkPreFlight (activeSignals : Option (List Signal)) : Except PreFlightHalt (List Signal) :=
  match activeSignals with
  | none => .error .noActiveConfig
  | some [] => .error .emptySignals
  | some signals => .ok signals

end TwoStageFilter
end LeadEngine
