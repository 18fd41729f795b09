import ExtensionSdkMongodb.Library.Url
import ExtensionSdkMongodb.OpenSearch.Config
import ExtensionSdkMongodb.OpenSearch.Deadline

/-!
# Sending a request, signed or not

A request to OpenSearch is signed for AWS when the environment names a region. Three checks decide:
the configuration accepts an endpoint, the credentials are loaded from the environment, and the
scheme of the URL is one that may be signed. `SignsAsConfigured` is the policy they are meant to be.

The configuration takes a scheme in any case, the last check takes it in lower case only. A variable
that is set to something else than Unicode is read as one that is not set, so a request with such a
region goes out unsigned. `postSearch_signs_iff` says that the policy is kept except where one of
these matters.
-/

set_option autoImplicit false

namespace ExtensionSdkMongodb.OpenSearch

/-! ## Credentials -/

/-- `std::env::VarError`. -/
inductive VarError where
  | notPresent
  | notUnicode
  deriving DecidableEq, Repr

/-- `std::env::var`. -/
abbrev Environment := String → Except VarError String

/-- `std::env::var(key).ok()`, which keeps neither error. -/
def Environment.read (env : Environment) (key : String) : Option String := (env key).toOption

/-- `Credentials` of the signing crate. -/
structure Credentials where
  accessKeyId : String
  secretAccessKey : String
  sessionToken : Option String
  deriving DecidableEq, Repr

structure AwsAuth where
  region : String
  credentials : Credentials
  allowHttp : Bool
  deriving DecidableEq, Repr

/-- A character of a region name. -/
def regionChar (c : Char) : Bool := c.isLower || c.isDigit || c == '-'

/-- The check of `AwsAuth::load` on the region. -/
def validRegion (region : String) : Bool := region ≠ "" && region.toList.all regionChar

/-- The closure `required` of `AwsAuth::load`. -/
def required (get : String → Option String) (name : String) : Except String String :=
  match (get name).filter (trim · ≠ "") with
  | some value => .ok value
  | none => .error (name ++ " is required for AWS signing")

/-- `AwsAuth::load`. -/
def AwsAuth.load (get : String → Option String) : Except String (Option AwsAuth) :=
  match get "OPENSEARCH_AWS_REGION" with
  | none => .ok none
  | some region =>
    if validRegion region then do
      let accessKeyId ← required get "AWS_ACCESS_KEY_ID"
      let secretAccessKey ← required get "AWS_SECRET_ACCESS_KEY"
      let sessionToken := (get "AWS_SESSION_TOKEN").filter (· ≠ "")
      return some {
        region
        credentials := ⟨accessKeyId, secretAccessKey, sessionToken⟩
        allowHttp := get "OPENSEARCH_AWS_ALLOW_HTTP" == some "true" }
    else .error "OPENSEARCH_AWS_REGION must be a valid region name"

/-! ## Signing -/

abbrev Headers := List (String × String)

/-- The step at which the signing crate fails. -/
inductive SigningFault where
  | parameters
  | requestUrl
  | signature
  deriving DecidableEq, Repr

/-- The text of a failing step. -/
def SigningFault.message : SigningFault → String
  | .parameters => "Invalid AWS signing parameters"
  | .requestUrl => "Invalid AWS request URL"
  | .signature => "AWS signing failed"

/-- The signing crate: the headers of a POST request with JSON, for the service `es`. -/
abbrev Signer := String → Credentials → (url : String) → (body : Bytes) → (time : ℕ) →
  Except SigningFault Headers

/-- The scheme check of `AwsAuth::headers`. -/
def schemeAllowed (allowHttp : Bool) (url : String) : Bool :=
  (stripPrefix "https://" url).isSome || (allowHttp && (stripPrefix "http://" url).isSome)

/-- `AwsAuth::headers`. -/
def AwsAuth.headers (auth : AwsAuth) (sign : Signer) (url : String) (body : Bytes) (time : ℕ) :
    Except String Headers :=
  if schemeAllowed auth.allowHttp url then
    (sign auth.region auth.credentials url body time).mapError SigningFault.message
  else
    .error ("AWS OpenSearch requires HTTPS; HTTP is allowed only with the explicit local override")

/-! ## Requests -/

/-- `MAX_RESPONSE_BYTES`. -/
def maxResponseBytes : ℕ := 4 * 1024 * 1024

/-- A POST request, which follows no redirects. -/
structure Request where
  url : String
  headers : Headers
  body : Bytes
  timeout : Duration

/-- A response body as a reader: its bytes, and whether reading fails after them. -/
structure Body where
  bytes : Bytes
  fails : Bool

/-- What the HTTP client reports of a request. -/
inductive Exchange where
  | errorStatus (status : ℕ)
  | transportError
  | response (status : ℕ) (body : Body)

/-- The crates and the surroundings that a request goes through. -/
structure Transport where
  toVec : Json → Except String Bytes
  fromSlice : Bytes → Except String Json
  env : Environment
  now : ℕ
  sign : Signer
  send : Request → Exchange

/-- `read_json_capped`. -/
def Transport.readJsonCapped (t : Transport) (reader : Body) (max : ℕ) : Except String Json :=
  let body := reader.bytes.take (max + 1)
  if reader.fails ∧ body.length ≤ max then .error "OpenSearch transport failed"
  else if max < body.length then
    .error ("OpenSearch response too large (limit " ++ toString max ++ " bytes)")
  else (t.fromSlice body).mapError fun _ => "Invalid OpenSearch JSON response"

/-- What `post_search` makes of an exchange. -/
def Transport.receive (t : Transport) : Exchange → Except String Json
  | .errorStatus status => .error ("OpenSearch HTTP " ++ toString status)
  | .transportError => .error "OpenSearch transport failed"
  | .response status body =>
    if status = 200 then t.readJsonCapped body maxResponseBytes
    else .error ("OpenSearch HTTP " ++ toString status)

/-- The headers that `post_search` adds for AWS. -/
def Transport.authHeaders (t : Transport) (url : String) (body : Bytes) :
    Except String Headers := do
  match ← AwsAuth.load t.env.read with
  | none => return []
  | some auth => auth.headers t.sign url body t.now

/-- `post_search`, with the requests it sent. -/
def postSearch (t : Transport) (url : String) (body : Json) (timeout : Duration) :
    Except String Json × List Request :=
  match t.toVec body with
  | .error _ => (.error "Cannot encode OpenSearch request", [])
  | .ok bytes =>
    match t.authHeaders url bytes with
    | .error e => (.error e, [])
    | .ok auth =>
      let request : Request :=
        { url, headers := ("Content-Type", "application/json") :: auth, body := bytes, timeout }
      (t.receive (t.send request), [request])

/-! ## The policy -/

/-- The endpoint has this scheme, in any case. -/
def SchemeIs (scheme endpoint : String) : Prop :=
  (stripPrefix (scheme ++ "://") (toAsciiLowercase endpoint)).isSome = true

/-- The variable is set to a text that is not blank. What is no Unicode is no credential. -/
def Present (env : Environment) (name : String) : Prop :=
  ∃ value, env name = .ok value ∧ trim value ≠ ""

/-- The environment has a valid region and both credentials. -/
structure Configured (env : Environment) : Prop where
  region : ∃ region, env "OPENSEARCH_AWS_REGION" = .ok region ∧ validRegion region = true
  accessKey : Present env "AWS_ACCESS_KEY_ID"
  secretKey : Present env "AWS_SECRET_ACCESS_KEY"

/-- The environment asks for signed requests to the endpoint. -/
structure SigningDue (env : Environment) (endpoint : String) : Prop extends Configured env where
  scheme : SchemeIs "https" endpoint ∨
    SchemeIs "http" endpoint ∧ env "OPENSEARCH_AWS_ALLOW_HTTP" = .ok "true"

/-- The headers authorize the request. -/
def Authorized (request : Request) : Prop := ∃ value, ("authorization", value) ∈ request.headers

/-- What the environment and the endpoint say about a request, and what becomes of it. A region that
is no Unicode is set. -/
structure SignsAsConfigured (t : Transport) (endpoint : String)
    (outcome : Except String Json × List Request) : Prop where
  signed : (∃ request ∈ outcome.2, Authorized request) ↔ SigningDue t.env endpoint
  unsigned : t.env "OPENSEARCH_AWS_REGION" = .error .notPresent →
    ∃ request, outcome.2 = [request] ∧
      request.headers = [("Content-Type", "application/json")]
  refused : t.env "OPENSEARCH_AWS_REGION" ≠ .error .notPresent → ¬ SigningDue t.env endpoint →
    ∃ e, outcome = (.error e, [])

/-! ### Loading -/

theorem Environment.read_eq_some_iff {env : Environment} {key value : String} :
    env.read key = some value ↔ env key = .ok value := by
  unfold Environment.read
  cases env key <;> simp [Except.toOption]

theorem Environment.read_eq_none {env : Environment} {key : String} {e : VarError}
    (failed : env key = .error e) : env.read key = none := by
  rw [Environment.read, failed]
  rfl

theorem required_ok_iff {env : Environment} {name value : String} :
    required env.read name = .ok value ↔ env name = .ok value ∧ trim value ≠ "" := by
  have filtered : (env.read name).filter (trim · ≠ "") = some value ↔
      env name = .ok value ∧ trim value ≠ "" := by
    rw [Option.filter_eq_some_iff, decide_eq_true_iff, Environment.read_eq_some_iff]
  rw [← filtered]
  unfold required
  cases (env.read name).filter (trim · ≠ "") with
  | none => simp
  | some value => simp

/-- A region that cannot be read is no region. -/
theorem load_unread {env : Environment} {e : VarError}
    (unread : env "OPENSEARCH_AWS_REGION" = .error e) : AwsAuth.load env.read = .ok none := by
  simp [AwsAuth.load, Environment.read_eq_none unread]

theorem required_error {env : Environment} {name : String} (absent : ¬ Present env name) :
    ∃ e, required env.read name = .error e := by
  cases needed : required env.read name with
  | error e => exact ⟨e, rfl⟩
  | ok value => exact absurd ⟨value, required_ok_iff.mp needed⟩ absent

/-- Credentials are loaded exactly if the environment has them. -/
theorem load_of_configured {env : Environment} (configured : Configured env) :
    ∃ auth, AwsAuth.load env.read = .ok (some auth) ∧ validRegion auth.region = true ∧
      (auth.allowHttp = true ↔ env "OPENSEARCH_AWS_ALLOW_HTTP" = .ok "true") := by
  obtain ⟨⟨region, set, valid⟩, ⟨key, hasKey⟩, ⟨secret, hasSecret⟩⟩ := configured
  refine ⟨⟨region, ⟨key, secret, (env.read "AWS_SESSION_TOKEN").filter (· ≠ "")⟩,
    env.read "OPENSEARCH_AWS_ALLOW_HTTP" == some "true"⟩, ?_, valid, ?_⟩
  · simp [AwsAuth.load, Environment.read_eq_some_iff.mpr set, valid, required_ok_iff.mpr hasKey,
      required_ok_iff.mpr hasSecret, bind, Except.bind, pure, Except.pure]
  · rw [beq_iff_eq, Environment.read_eq_some_iff]

theorem load_error {env : Environment} {region : String}
    (set : env "OPENSEARCH_AWS_REGION" = .ok region) (unconfigured : ¬ Configured env) :
    ∃ e, AwsAuth.load env.read = .error e := by
  have read := Environment.read_eq_some_iff.mpr set
  by_cases valid : validRegion region = true
  · by_cases hasKey : Present env "AWS_ACCESS_KEY_ID"
    · have noSecret : ¬ Present env "AWS_SECRET_ACCESS_KEY" := fun hasSecret =>
        unconfigured ⟨⟨region, set, valid⟩, hasKey, hasSecret⟩
      obtain ⟨key, hasKey⟩ := hasKey
      obtain ⟨e, missing⟩ := required_error noSecret
      exact ⟨e, by simp [AwsAuth.load, read, valid, required_ok_iff.mpr hasKey, missing, bind,
        Except.bind]⟩
    · obtain ⟨e, missing⟩ := required_error hasKey
      exact ⟨e, by simp [AwsAuth.load, read, valid, missing, bind, Except.bind]⟩
  · exact ⟨_, by simp [AwsAuth.load, read, valid]; rfl⟩

/-! ### Schemes -/

theorem schemeIs_iff {scheme endpoint : String} :
    SchemeIs scheme endpoint ↔
      (scheme ++ "://").toList <+: endpoint.toList.map Char.toLower := by
  rw [SchemeIs, stripPrefix_isSome_iff, toAsciiLowercase, String.toList_ofList]

theorem httpUrl_iff {endpoint : String} :
    httpUrl endpoint = true ↔ SchemeIs "http" endpoint ∨ SchemeIs "https" endpoint := by
  simp only [httpUrl, Bool.or_eq_true]
  exact Iff.rfl

/-- The character of an endpoint that tells the schemes apart. -/
theorem fourth_of_scheme {scheme endpoint : String} {x : Char} (is : SchemeIs scheme endpoint)
    (fourth : (scheme ++ "://").toList[4]? = some x) :
    ∃ c, endpoint.toList[4]? = some c ∧ c.toLower = x := by
  obtain ⟨rest, same⟩ := schemeIs_iff.mp is
  have inside : 4 < (scheme ++ "://").toList.length := (List.getElem?_eq_some_iff.mp fourth).1
  have lowered : (endpoint.toList.map Char.toLower)[4]? = some x := by
    rw [← same, List.getElem?_append_left inside, fourth]
  simpa using lowered

/-- The URL has that character of the endpoint. -/
theorem url_getElem?_four {endpoint path : String} {c : Char}
    (fourth : endpoint.toList[4]? = some c) (kept : c ≠ '/') :
    (trimEndMatches (· == '/') endpoint ++ "/" ++ path).toList[4]? = some c := by
  obtain ⟨inside, at4⟩ := List.getElem?_eq_some_iff.mp fourth
  have front : endpoint.toList.take 5 = endpoint.toList.take 4 ++ [c] := by
    rw [List.take_add_one, fourth]
    rfl
  have whole : (endpoint.toList.take 5).rdropWhile (· == '/') = endpoint.toList.take 5 := by
    rw [front]
    exact List.rdropWhile_concat_neg _ _ _ (by simpa using kept)
  have trimmed := Url.rdropWhile_append whole (endpoint.toList.drop 5)
  rw [List.take_append_drop] at trimmed
  have long : 4 < (endpoint.toList.take 5).length := by
    rw [List.length_take]
    omega
  simp only [trimEndMatches, String.toList_append, String.toList_ofList, trimmed,
    List.append_assoc]
  rw [List.getElem?_append_left long, List.getElem?_take_of_lt (by decide), fourth]

/-- The URL has its scheme in lower case. -/
def LowercaseScheme (url : String) : Prop :=
  "https://".toList <+: url.toList ∨ "http://".toList <+: url.toList

section Url

variable {endpoint path : String}

theorem fourth_of_accepted (path : String) {x : Char} {scheme : String}
    (is : SchemeIs scheme endpoint) (fourth : (scheme ++ "://").toList[4]? = some x)
    (kept : x ≠ '/') :
    ∃ c, (trimEndMatches (· == '/') endpoint ++ "/" ++ path).toList[4]? = some c ∧
      c.toLower = x := by
  obtain ⟨c, at4, lower⟩ := fourth_of_scheme is fourth
  refine ⟨c, url_getElem?_four at4 ?_, lower⟩
  rintro rfl
  exact kept lower.symm

theorem getElem?_four_of_begins {head : List Char} {url : String} {x : Char}
    (begins : head <+: url.toList) (fourth : head[4]? = some x) : url.toList[4]? = some x := by
  obtain ⟨rest, same⟩ := begins
  rw [← same, List.getElem?_append_left (List.getElem?_eq_some_iff.mp fourth).1, fourth]

/-- The scheme of the URL and that of the endpoint agree in the character that tells them apart. -/
theorem fourth_agrees (first second : String) {x y : Char}
    (begins : (first ++ "://").toList <+:
      (trimEndMatches (· == '/') endpoint ++ "/" ++ path).toList)
    (firstFourth : (first ++ "://").toList[4]? = some x) (is : SchemeIs second endpoint)
    (secondFourth : (second ++ "://").toList[4]? = some y) (kept : y ≠ '/') : x.toLower = y := by
  obtain ⟨c, at4, lower⟩ := fourth_of_accepted path is secondFourth kept
  rw [getElem?_four_of_begins begins firstFourth, Option.some.injEq] at at4
  exact at4 ▸ lower

/-- The URL of an accepted endpoint may be signed exactly if its scheme is in lower case and may
be signed in any case. -/
theorem schemeAllowed_iff (path : String) (allow : Bool) (accepted : httpUrl endpoint = true) :
    schemeAllowed allow (trimEndMatches (· == '/') endpoint ++ "/" ++ path) = true ↔
      LowercaseScheme (trimEndMatches (· == '/') endpoint ++ "/" ++ path) ∧
        (SchemeIs "https" endpoint ∨ SchemeIs "http" endpoint ∧ allow = true) := by
  simp only [schemeAllowed, Bool.or_eq_true, Bool.and_eq_true, stripPrefix_isSome_iff,
    LowercaseScheme]
  constructor
  · rintro (https | ⟨allowed, http⟩)
    · refine ⟨.inl https, .inl ((httpUrl_iff.mp accepted).resolve_left fun is => ?_)⟩
      exact absurd (fourth_agrees "https" "http" https rfl is rfl (by decide)) (by decide)
    · refine ⟨.inr http, .inr ⟨(httpUrl_iff.mp accepted).resolve_right fun is => ?_, allowed⟩⟩
      exact absurd (fourth_agrees "http" "https" http rfl is rfl (by decide)) (by decide)
  · rintro ⟨https | http, due⟩
    · exact .inl https
    · rcases due with is | ⟨_, allowed⟩
      · exact absurd (fourth_agrees "http" "https" http rfl is rfl (by decide)) (by decide)
      · exact .inr ⟨allowed, http⟩

end Url

/-! ### Outcomes -/

section Outcomes

variable {t : Transport} {url : String} {body : Json} {timeout : Duration} {bytes : Bytes}

theorem postSearch_error {e : String} (encoded : t.toVec body = .ok bytes)
    (failed : t.authHeaders url bytes = .error e) :
    postSearch t url body timeout = (.error e, []) := by
  simp [postSearch, encoded, failed]

theorem postSearch_sent (timeout : Duration) {headers : Headers}
    (encoded : t.toVec body = .ok bytes)
    (added : t.authHeaders url bytes = .ok headers) :
    ∃ request, (postSearch t url body timeout).2 = [request] ∧
      request.headers = ("Content-Type", "application/json") :: headers := by
  simp [postSearch, encoded, added]

/-- The signing crate signs requests to the URL. -/
def Signs (sign : Signer) (url : String) : Prop :=
  ∀ region credentials body time, validRegion region = true →
    ∃ headers, sign region credentials url body time = .ok headers ∧
      ∃ value, ("authorization", value) ∈ headers

theorem headers_allowed {auth : AwsAuth} {sign : Signer} {time : ℕ} (signs : Signs sign url)
    (valid : validRegion auth.region = true) (allowed : schemeAllowed auth.allowHttp url = true) :
    ∃ headers, auth.headers sign url bytes time = .ok headers ∧
      ∃ value, ("authorization", value) ∈ headers := by
  obtain ⟨headers, signed, authorization⟩ := signs auth.region auth.credentials bytes time valid
  refine ⟨headers, ?_, authorization⟩
  rw [AwsAuth.headers, if_pos allowed, signed]
  rfl

theorem headers_refused {auth : AwsAuth} {sign : Signer} {time : ℕ}
    (refused : ¬ schemeAllowed auth.allowHttp url = true) :
    ∃ e, auth.headers sign url bytes time = .error e :=
  ⟨_, if_neg refused⟩

end Outcomes

/-- Nothing is sent where signing is asked for and not due. -/
theorem SignsAsConfigured.of_refused {t : Transport} {endpoint e : String}
    (set : t.env "OPENSEARCH_AWS_REGION" ≠ .error .notPresent)
    (notDue : ¬ SigningDue t.env endpoint) : SignsAsConfigured t endpoint (.error e, []) where
  signed := by simp [notDue]
  unsigned none := absurd none set
  refused _ _ := ⟨e, rfl⟩

/-- **Requests are signed as the environment and the endpoint say if and only if the region is not
set to something else than Unicode and the URL has its scheme in lower case where they are to be
signed.** -/
theorem postSearch_signs_iff (t : Transport) (endpoint path : String) (body : Json)
    (timeout : Duration) (bytes : Bytes) (accepted : httpUrl endpoint = true)
    (encoded : t.toVec body = .ok bytes)
    (signs : Signs t.sign (trimEndMatches (· == '/') endpoint ++ "/" ++ path)) :
    SignsAsConfigured t endpoint
        (postSearch t (trimEndMatches (· == '/') endpoint ++ "/" ++ path) body timeout) ↔
      t.env "OPENSEARCH_AWS_REGION" ≠ .error .notUnicode ∧
        (SigningDue t.env endpoint →
          LowercaseScheme (trimEndMatches (· == '/') endpoint ++ "/" ++ path)) := by
  have allowed_iff := fun allow => schemeAllowed_iff path allow accepted
  generalize trimEndMatches (· == '/') endpoint ++ "/" ++ path = url at *
  cases region : t.env "OPENSEARCH_AWS_REGION" with
  | error unread =>
      have notDue : ¬ SigningDue t.env endpoint := by
        intro due
        obtain ⟨_, set, _⟩ := due.region
        rw [region] at set
        cases set
      have added : t.authHeaders url bytes = .ok [] := by
        simp [Transport.authHeaders, load_unread region, bind, Except.bind, pure, Except.pure]
      obtain ⟨request, sent, headers⟩ := postSearch_sent timeout encoded added
      cases unread with
      | notPresent =>
          refine iff_of_true ⟨?_, fun _ => ⟨request, sent, headers⟩, fun set => absurd region set⟩
            ⟨by simp, fun due => absurd due notDue⟩
          simp [sent, Authorized, headers, notDue]
      | notUnicode =>
          -- The request goes out, though the region is set.
          refine iff_of_false ?_ fun readable => readable.1 rfl
          intro kept
          obtain ⟨e, unsent⟩ := kept.refused (by simp [region]) notDue
          rw [unsent] at sent
          cases sent
  | ok name =>
      have readable : (Except.ok name : Except VarError String) ≠ .error .notUnicode := by simp
      have set : t.env "OPENSEARCH_AWS_REGION" ≠ .error .notPresent := by simp [region]
      rw [and_iff_right readable]
      by_cases configured : Configured t.env
      · obtain ⟨auth, loaded, valid, allow⟩ := load_of_configured configured
        have added : t.authHeaders url bytes = auth.headers t.sign url bytes t.now := by
          simp [Transport.authHeaders, loaded, bind, Except.bind]
        have due_iff : SigningDue t.env endpoint ↔ SchemeIs "https" endpoint ∨
            SchemeIs "http" endpoint ∧ auth.allowHttp = true := by
          rw [allow]
          exact ⟨SigningDue.scheme, fun scheme => ⟨configured, scheme⟩⟩
        have allowed_iff := allowed_iff auth.allowHttp
        rw [← due_iff] at allowed_iff
        by_cases allowed : schemeAllowed auth.allowHttp url = true
        · obtain ⟨lowercase, due⟩ := allowed_iff.mp allowed
          obtain ⟨headers, signed, value, authorization⟩ := headers_allowed signs valid allowed
          obtain ⟨request, sent, all⟩ := postSearch_sent timeout encoded (added.trans signed)
          refine iff_of_true ⟨?_, fun none => absurd none set, fun _ notDue => absurd due notDue⟩
            fun _ => lowercase
          have authorized : Authorized request :=
            ⟨value, all ▸ List.mem_cons_of_mem _ authorization⟩
          simp [sent, authorized, due]
        · obtain ⟨e, refused⟩ := headers_refused allowed
          rw [postSearch_error encoded (added.trans refused)]
          constructor
          · intro kept due
            simpa using kept.signed.mpr due
          · intro lowercase
            exact .of_refused set fun due => allowed (allowed_iff.mpr ⟨lowercase due, due⟩)
      · have notDue : ¬ SigningDue t.env endpoint := fun due => configured due.toConfigured
        obtain ⟨e, failed⟩ := load_error region configured
        have added : t.authHeaders url bytes = .error e := by
          simp [Transport.authHeaders, failed, bind, Except.bind]
        rw [postSearch_error encoded added]
        exact iff_of_true (.of_refused set notDue) fun due => absurd due notDue

/-! ### An endpoint in upper case and a region that is no Unicode -/

/-- The environment of a signed deployment, with this region. -/
def signedEnv (region : Except VarError String) : Environment
  | "OPENSEARCH_AWS_REGION" => region
  | "AWS_ACCESS_KEY_ID" => .ok "key"
  | "AWS_SECRET_ACCESS_KEY" => .ok "secret"
  | _ => .error .notPresent

/-- A transport in that environment, with a signer that adds one header. -/
def signedTransport (region : Except VarError String) : Transport where
  toVec _ := .ok []
  fromSlice _ := .ok .null
  env := signedEnv region
  now := 0
  sign _ _ _ _ _ := .ok [("authorization", "AWS4-HMAC-SHA256")]
  send _ := .response 200 ⟨[], false⟩

theorem postSearch_signs_lowercase :
    SignsAsConfigured (signedTransport (.ok "us-east-1")) "https://search:9200/"
      (postSearch (signedTransport (.ok "us-east-1"))
        "https://search:9200/mongodb.shop.items/_search" .null ⟨1⟩) :=
  (postSearch_signs_iff (signedTransport (.ok "us-east-1")) "https://search:9200/"
    "mongodb.shop.items/_search" .null ⟨1⟩ [] (by decide) rfl
    fun _ _ _ _ _ => ⟨_, rfl, _, List.mem_singleton.mpr rfl⟩).mpr
    ⟨by simp [signedTransport, signedEnv], fun _ => .inl (by decide)⟩

/-- An endpoint that the configuration accepts, with all that signing needs, and no request. And a
region that is no Unicode, with a request that is not signed. -/
theorem uppercase_scheme_not_signed :
    (parseConfig ⟨fun _ => .ok "endpoints: HTTPS://search:9200", fun _ => .error ""⟩ (some []) =
        .ok ⟨["HTTPS://search:9200"]⟩ ∧
      SigningDue (signedEnv (.ok "us-east-1")) "HTTPS://search:9200" ∧
      (postSearch (signedTransport (.ok "us-east-1"))
        "HTTPS://search:9200/mongodb.shop.items/_search" .null ⟨1⟩).2 = [] ∧
      ¬ SignsAsConfigured (signedTransport (.ok "us-east-1")) "HTTPS://search:9200"
        (postSearch (signedTransport (.ok "us-east-1"))
          "HTTPS://search:9200/mongodb.shop.items/_search" .null ⟨1⟩)) ∧
    ((postSearch (signedTransport (.error .notUnicode))
        "https://search:9200/mongodb.shop.items/_search" .null ⟨1⟩).2.map Request.headers =
        [[("Content-Type", "application/json")]] ∧
      ¬ SignsAsConfigured (signedTransport (.error .notUnicode)) "https://search:9200"
        (postSearch (signedTransport (.error .notUnicode))
          "https://search:9200/mongodb.shop.items/_search" .null ⟨1⟩)) := by
  refine ⟨?_, ?_⟩
  · have due : SigningDue (signedEnv (.ok "us-east-1")) "HTTPS://search:9200" :=
      ⟨⟨⟨"us-east-1", rfl, by decide⟩, ⟨"key", rfl, by decide⟩, ⟨"secret", rfl, by decide⟩⟩,
        .inl (by unfold SchemeIs; decide)⟩
    have unsent : (postSearch (signedTransport (.ok "us-east-1"))
        "HTTPS://search:9200/mongodb.shop.items/_search" .null ⟨1⟩).2 = [] := by decide
    refine ⟨by decide, due, unsent, fun kept => ?_⟩
    obtain ⟨request, sent, _⟩ := kept.signed.mpr due
    rw [unsent] at sent
    cases sent
  · have plain : (postSearch (signedTransport (.error .notUnicode))
        "https://search:9200/mongodb.shop.items/_search" .null ⟨1⟩).2.map Request.headers =
          [[("Content-Type", "application/json")]] := by decide
    have notDue : ¬ SigningDue (signedTransport (.error .notUnicode)).env
        "https://search:9200" := by
      intro due
      obtain ⟨_, set, _⟩ := due.region
      cases set
    refine ⟨plain, fun kept => ?_⟩
    obtain ⟨e, unsent⟩ := kept.refused (fun none => by cases none) notDue
    rw [unsent] at plain
    cases plain

end ExtensionSdkMongodb.OpenSearch
