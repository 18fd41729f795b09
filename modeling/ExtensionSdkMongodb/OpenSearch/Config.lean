import ExtensionSdkMongodb.Data.Json
import ExtensionSdkMongodb.Data.Text
import ExtensionSdkMongodb.Sdk.Error

/-!
# The configuration of the OpenSearch extensions

The extension options are a JSON object or lines; either gives the list of endpoints, which is
not empty and holds URLs of the two HTTP schemes.
-/

set_option autoImplicit false

namespace ExtensionSdkMongodb.OpenSearch

structure OpenSearchConfig where
  endpoints : List String
  deriving DecidableEq, Repr

/-- `String::from_utf8` and `serde_json::from_str` on the options, each with the text of its
errors. -/
structure OptionReaders where
  fromUtf8 : Bytes → Except String String
  fromStr : String → Except String Json

/-- The check of `config_from_endpoints` on one endpoint. -/
def httpUrl (endpoint : String) : Bool :=
  let lower := toAsciiLowercase endpoint
  (stripPrefix "http://" lower).isSome || (stripPrefix "https://" lower).isSome

/-- `config_from_endpoints`. -/
def configFromEndpoints (endpoints : List String) : Except ExtensionError OpenSearchConfig :=
  if endpoints.isEmpty then
    .error (.badValue "endpoints must contain at least one OpenSearch URL")
  else
    match endpoints.find? fun endpoint => !httpUrl endpoint with
    | some endpoint =>
      .error (.badValue
        ("OpenSearch endpoint must start with http:// or https://: " ++ endpoint))
    | none => .ok ⟨endpoints⟩

/-- The closure over the items of the JSON form. -/
def jsonEndpoint (v : Json) : Except ExtensionError String :=
  match v.asStr with
  | none => .error (.badValue "endpoints must contain strings")
  | some s =>
    if trim s = "" then .error (.badValue "endpoints must contain strings") else .ok (trim s)

/-- The JSON form. -/
def jsonConfig (value : Json) : Except ExtensionError OpenSearchConfig :=
  match (value.get "endpoints").bind Json.asArray with
  | none => .error (.badValue "endpoints must be an array")
  | some items => do
    let endpoints ← items.mapM jsonEndpoint
    configFromEndpoints endpoints

/-- One endpoint of the line form. -/
def lineEndpoint (s : String) : String := trimMatches (· == '\'') (trimMatches (· == '"') (trim s))

/-- The error of options without endpoints. -/
def noEndpoints : ExtensionError := .badValue "OpenSearch extension config must define endpoints"

/-- The loop over the lines of the line form. -/
def lineConfig : List String → Except ExtensionError OpenSearchConfig
  | [] => .error noEndpoints
  | line :: rest =>
    let line := trim line
    if line = "" ∨ line.toList.head? = some '#' then lineConfig rest
    else
      match stripPrefix "endpoints:" line with
      | none => lineConfig rest
      | some entries =>
        configFromEndpoints (((splitAt ',' entries).map lineEndpoint).filter (· ≠ ""))

/-- `parse_config`. -/
def parseConfig (readers : OptionReaders) (raw : Option Bytes) :
    Except ExtensionError OpenSearchConfig :=
  match raw with
  | none => .error noEndpoints
  | some raw =>
    match readers.fromUtf8 raw with
    | .error e => .error (.failedToParse ("extension config utf8: " ++ e))
    | .ok text =>
      let trimmed := trim text
      if trimmed.toList.head? = some '\x7b' then
        match readers.fromStr trimmed with
        | .error e => .error (.failedToParse ("extension config json: " ++ e))
        | .ok value => jsonConfig value
      else lineConfig (lines trimmed)

example : lineConfig ["# local", "endpoints: http://a:9200, 'HTTPS://b'", "rest"] =
    .ok ⟨["http://a:9200", "HTTPS://b"]⟩ := by decide

/-- The endpoints of a configuration are not empty and of the two schemes. -/
theorem configFromEndpoints_ok {endpoints : List String} {config : OpenSearchConfig}
    (parsed : configFromEndpoints endpoints = .ok config) :
    config.endpoints = endpoints ∧ endpoints ≠ [] ∧ ∀ e ∈ endpoints, httpUrl e = true := by
  unfold configFromEndpoints at parsed
  split at parsed
  · cases parsed
  · next nonempty =>
    split at parsed
    · cases parsed
    · next valid =>
      cases parsed
      refine ⟨rfl, by simpa using nonempty, ?_⟩
      simpa using valid

end ExtensionSdkMongodb.OpenSearch
