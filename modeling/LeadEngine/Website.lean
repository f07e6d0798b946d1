import LeadEngine.TenantConfig

/-! The part of an onboarding run that writes nothing: the tenant's website is fetched, its
text goes through the three agents, and their answers become a config payload. -/
namespace LeadEngine
namespace Onboarding

open TwoStageFilter TenantConfigs Interpreter

inductive BusinessType
  | b2b | b2c
  deriving DecidableEq

inductive TenantStatus
  | created | active | suspended | churned
  deriving DecidableEq

inductive OnboardingStatus
  | pending | running | complete | failed
  deriving DecidableEq

structure Tenant where
  id : UUID
  companyName : String
  businessType : BusinessType
  websiteUrl : String
  onboardingStatus : OnboardingStatus
  status : TenantStatus
  activatedAt : Option Time

inductive PipelineError
  | raised (message : String)
  | httpStatus (code : ℕ)
  | validation (message : String)
  | notFound (id : UUID)
  | conflict (id : UUID) (status : TenantStatus)
  | config (err : ConfigError)
  | flush
  | pendingRollback

structure Response where
  statusCode : ℕ
  text : String

def isSchemeChar (c : Char) : Bool :=
  c.isAlphanum || c = '+' || c = '-' || c = '.'

/-- What follows the scheme of a URL, or the whole URL when it has none. -/
def afterScheme (url : List Char) : List Char :=
  let scheme := url.takeWhile (· ≠ ':')
  if (scheme.head?.any Char.isAlpha && scheme.all isSchemeChar && scheme.length < url.length)
  then url.drop (scheme.length + 1) else url

/-- `urlparse(url).netloc`. -/
def extractDomain (url : String) : String :=
  match afterScheme url.toList with
  | '/' :: '/' :: rest => String.ofList (rest.takeWhile fun c => c ≠ '/' ∧ c ≠ '?' ∧ c ≠ '#')
  | _ => ""

/-- Replace each match from left to right. `next` gives what follows a match that starts at
the head of the text, and never matches the empty string. -/
def substitute (next : List Char → Option (List Char)) (by' : List Char) :
    ℕ → List Char → List Char
  | 0,text => text
  | _+1,[] => []
  | fuel+1,c :: rest =>
    match next (c :: rest) with
    | some after => by' ++ substitute next by' fuel after
    | none => c :: substitute next by' fuel rest

/-- `re.sub(pattern, by, text)`. -/
def sub (next : List Char → Option (List Char)) (by' text : List Char) : List Char :=
  substitute next by' (text.length+1) text

def foldLetter (c : Char) : Char := if c = 'İ' then 'i' else c.toLower

/-- A letter of a pattern under `re.IGNORECASE`; two letters have a further variant. -/
def matchesLetter (p c : Char) : Bool :=
  foldLetter c = p || (p = 's' && c = 'ſ') || (p = 'i' && c = 'ı')

def afterName (same : Char → Char → Bool) : List Char → List Char → Option (List Char)
  | [],rest => some rest
  | _ :: _,[] => none
  | p :: name,c :: rest => if same p c then afterName same name rest else none

def afterBracket : List Char → Option (List Char)
  | [] => none
  | c :: rest => if c = '>' then some rest else afterBracket rest

def afterClose (name : List Char) : List Char → Option (List Char)
  | [] => none
  | c :: rest =>
    match afterName (fun p c => foldLetter p = foldLetter c) ('<' :: '/' :: (name ++ ['>']))
        (c :: rest) with
    | some after => some after
    | none => afterClose name rest

/-- `<(script|style)[^>]*>.*?</\1>` -/
def afterElement : List Char → Option (List Char)
  | '<' :: rest => ["script","style"].findSome? fun name => do
    let attributes ← afterName matchesLetter name.toList rest
    let content ← afterBracket attributes
    afterClose (rest.take name.length) content
  | _ => none

/-- `<[^>]+>` -/
def afterTag : List Char → Option (List Char)
  | '<' :: c :: rest => if c = '>' then none else afterBracket rest
  | _ => none

section Text

variable [Interpreter]

/-- `\s+` -/
def afterSpaces : List Char → Option (List Char)
  | c :: rest => if isSpace c then some (rest.dropWhile isSpace) else none
  | [] => none

def stripHtml (html : String) : String :=
  let text := sub afterTag [' '] (sub afterElement [] html.toList)
  strip (String.ofList (sub afterSpaces [' '] text))

def combinePageTexts (results : List (Except PipelineError Response)) : String :=
  "\n\n".intercalate (results.filterMap fun r =>
    match r with
    | .error _ => none
    | .ok response => if response.statusCode = 200 then some (stripHtml response.text) else none)

def raiseForStatus (response : Response) : Except PipelineError Response :=
  if 200 ≤ response.statusCode ∧ response.statusCode < 300 then .ok response
  else .error (.httpStatus response.statusCode)

end Text

def dimensionNames : List (Dimension × String) :=
  [(.behaviour,"BEHAVIOUR"),(.context,"CONTEXT"),(.engagement,"ENGAGEMENT"),(.fit,"FIT"),
    (.intent,"INTENT")]

def missingNames (signals : List Signal) : List String :=
  (dimensionNames.filter fun d => d.1 ∉ signals.map Signal.dimension).map Prod.snd

theorem covers_of_missingNames {signals : List Signal} (h : missingNames signals = []) :
    ∀ d ∈ dimensions, d ∈ signals.map Signal.dimension := by
  intro d _
  have hall : ∀ x ∈ dimensionNames, x.1 ∈ signals.map Signal.dimension := by
    simpa [missingNames,List.filter_eq_nil_iff] using h
  cases d with
  | fit => exact hall (.fit,"FIT") (by simp [dimensionNames])
  | intent => exact hall (.intent,"INTENT") (by simp [dimensionNames])
  | engagement => exact hall (.engagement,"ENGAGEMENT") (by simp [dimensionNames])
  | behaviour => exact hall (.behaviour,"BEHAVIOUR") (by simp [dimensionNames])
  | context => exact hall (.context,"CONTEXT") (by simp [dimensionNames])

section Payload

variable [DoubleArithmetic]

/-- `TenantConfigCreate(...)` on values whose weights and thresholds are already checked. -/
def tenantConfigCreate (businessProfile icp : List (String × Json)) (signals : List Signal)
    (weights : { w : Weights // w.Valid }) (thresholds : { t : Thresholds // t.Valid }) :
    Except PipelineError TenantConfigCreate :=
  if hne : signals = [] then .error (.validation "signals must not be empty")
  else if hids : (signals.map Signal.id).Nodup then
    if hcov : missingNames signals = [] then
      .ok { businessProfile := businessProfile
            icp := icp
            signals := signals
            weights := weights
            thresholds := thresholds
            nonempty := hne
            uniqueIds := hids
            covers := covers_of_missingNames hcov
            weights_valid := weights.2
            thresholds_valid := thresholds.2 }
    else .error (.validation ("every dimension needs at least one signal; missing: " ++
      ", ".intercalate (missingNames signals)))
  else .error (.validation "signal ids must be unique within a version")

/-- What an onboarding run meets outside the database: the search, the n-th page fetch and
the three agents, each of which may raise. -/
structure Services where
  searchSitePages : String → ℕ → Except PipelineError (List String)
  get : ℕ → String → Except PipelineError Response
  persona : String → BusinessType → String → Except PipelineError (List (String × Json))
  icp : List (String × Json) → Except PipelineError (List (String × Json))
  signals : List (String × Json) → List (String × Json) →
    Except PipelineError (List Signal × { w : Weights // w.Valid } × { t : Thresholds // t.Valid })

variable [Interpreter]

def fallbackFetch (services : Services) (n : ℕ) (url : String) : Except PipelineError String := do
  let response ← services.get n url
  let response ← raiseForStatus response
  return stripHtml response.text

def websiteText (services : Services) (tenant : Tenant) : Except PipelineError String := do
  let urls ← services.searchSitePages (extractDomain tenant.websiteUrl) 5
  let text := combinePageTexts (urls.mapIdx services.get)
  if text = "" then fallbackFetch services urls.length tenant.websiteUrl else return text

/-- The steps of `run_pipeline` between reading the tenant and writing the config. -/
def prepare (services : Services) (tenant : Tenant) : Except PipelineError TenantConfigCreate := do
  let text ← websiteText services tenant
  let businessProfile ← services.persona tenant.companyName tenant.businessType text
  let icp ← services.icp businessProfile
  let (signals,weights,thresholds) ← services.signals businessProfile icp
  tenantConfigCreate businessProfile icp signals weights thresholds

end Payload

/-- Scripts, tags and runs of white space go; what is left of an empty pair of brackets stays. -/
example :
    letI := Interpreter.ascii id
    stripHtml "<h1>Hello</h1><SCRIPT a=1>bad()</script>\n <> <p>World</p>" = "Hello <> World" := by
  decide +kernel

example : extractDomain "https://acme.com/about" = "acme.com" := by decide +kernel

end Onboarding
end LeadEngine
