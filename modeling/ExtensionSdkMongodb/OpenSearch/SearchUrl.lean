import ExtensionSdkMongodb.Library.Url
import ExtensionSdkMongodb.OpenSearch.Fetch

/-!
# The URLs of the searches

Both searches splice the index of the collection into the path of the endpoint, as it is. The URL
addresses the index of the collection if and only if the names of the database and the collection
are plain (`search_urls_address_iff`). A name with a character that URLs give a meaning addresses
another path, which can be the index of another collection (`collection_addresses_other`).

A URL is read here by the rules that matter to a name in it: the first `?` or `#` ends the path, `/`
separates segments, and percent escapes are decoded. An HTTP client may follow the longer rules of
the URL standard, which also drop tabs, line feeds and carriage returns, read a backslash as a slash
and resolve dot segments.
-/

set_option autoImplicit false

namespace ExtensionSdkMongodb.OpenSearch

/-! ## Requests -/

/-- The URL that `fetch_candidates` builds. -/
def searchUrl (index endpoint : String) : String :=
  trimEndMatches (· == '/') endpoint ++ "/" ++ index ++ "/_search"

/-- The URL that `fetch` of mongos builds. -/
def routerSearchUrl (index endpoint : String) : String :=
  trimEndMatches (· == '/') endpoint ++ "/" ++ index ++
    "/_search?allow_partial_search_results=false"

section Requests

variable (readers : KeyReaders) (toValue : Bson → Option Json) (world : World) (log : FetchLog)

theorem fetchCandidates_urls (state : SearchState) :
    fetchCandidates toValue world state log =
      Failover.run
        (world.outside (searchUrl state.index) (opensearchBody toValue state.args) state.timeout)
        (candidatesPolicy state.args.limitUsize) state.config.endpoints [] log := rfl

theorem fetch_urls (state : RouterState) :
    fetch readers toValue world state log =
      Failover.run
        (world.outside (routerSearchUrl state.index) (opensearchBody toValue state.args)
          defaultTimeout)
        (hitsPolicy readers state.args.limitUsize) state.config.endpoints [] log := rfl

end Requests

/-- `RouterVectorSearch::open`, given the extension options. -/
def routerOpen (readers : OptionReaders) (options : Option Bytes) (args : QueryArgs)
    (ctx : StageContext) : Except ExtensionError RouterState :=
  match ctx.catalog.filter (·.inRouter) with
  | none => .error (invalid "OpenSearch mongos extension must execute on mongos")
  | some catalog => do
    let config ← parseConfig readers options
    return { args, index := "mongodb." ++ catalog.namespaceText, config, rows := none }

/-- The index of a collection. -/
def collectionIndex (catalog : CatalogContext) : String :=
  "mongodb." ++ catalog.databaseName ++ "." ++ catalog.collectionName

section Opened

variable {readers : OptionReaders} {options : Option Bytes} {args : QueryArgs} {ctx : StageContext}
  {catalog : CatalogContext}

theorem openState_index {state : SearchState} (bound : ctx.catalog = some catalog)
    (opened : openState readers options args ctx = .ok state) :
    state.index = collectionIndex catalog := by
  unfold openState at opened
  rw [bound] at opened
  obtain ⟨config, _, same⟩ := bind_ok.mp opened
  cases same
  simp [collectionIndex, CatalogContext.namespaceText, String.append_assoc]

theorem routerOpen_index {state : RouterState} (bound : ctx.catalog = some catalog)
    (opened : routerOpen readers options args ctx = .ok state) :
    state.index = collectionIndex catalog := by
  unfold routerOpen at opened
  rw [bound] at opened
  cases router : catalog.inRouter with
  | false => simp [Option.filter, router] at opened
  | true =>
      simp only [Option.filter, router, if_true] at opened
      obtain ⟨config, _, same⟩ := bind_ok.mp opened
      cases same
      simp [collectionIndex, CatalogContext.namespaceText, String.append_assoc]

end Opened

/-! ## What the URLs say -/

/-- The query string of the requests of mongos. -/
def wholeResults : List Char := "allow_partial_search_results=false".toList

/-- What a URL says that addresses the index of a collection at an endpoint: the path of the
endpoint without slashes at its end, then two segments, and the query string. -/
def indexTarget (endpoint : Url.Base) (catalog : CatalogContext) (query : Option (List Char)) :
    Url.Target where
  scheme := endpoint.scheme
  authority := endpoint.authority
  segments := (Url.pathSegments (endpoint.path.rdropWhile (· == '/'))).map Url.percentDecode ++
    [Url.utf8 (collectionIndex catalog).toList, Url.utf8 "_search".toList]
  query
  fragment := none

def Addresses (endpoint : Url.Base) (catalog : CatalogContext) (query : Option (List Char))
    (url : String) : Prop := Url.read url.toList = some (indexTarget endpoint catalog query)

/-- The names of a namespace are plain. -/
def PlainNamespace (catalog : CatalogContext) : Prop :=
  Url.Plain catalog.databaseName.toList ∧ Url.Plain catalog.collectionName.toList

theorem plain_append_dot_iff {first second : List Char} :
    Url.Plain (first ++ '.' :: second) ↔ Url.Plain first ∧ Url.Plain second := by
  unfold Url.Plain
  rw [Url.unescaped_append_cons_iff (by decide) (by decide)]
  simp only [List.mem_append, List.mem_cons, not_or, or_imp, forall_and, forall_eq]
  have slash : '/' ≠ '.' := by decide
  have dot : Url.endsPath '.' = false := by decide
  tauto

theorem plain_collectionIndex_iff {catalog : CatalogContext} :
    Url.Plain (collectionIndex catalog).toList ↔ PlainNamespace catalog := by
  have unescaped : Url.Unescaped "mongodb".toList := (Url.percentDecode_eq_iff _).mp (by decide)
  have fixed : Url.Plain "mongodb".toList := ⟨by decide, by simp [Url.endsPath], unescaped⟩
  have text : (collectionIndex catalog).toList = "mongodb".toList ++
      '.' :: (catalog.databaseName.toList ++ '.' :: catalog.collectionName.toList) := by
    simp [collectionIndex]
  rw [text, plain_append_dot_iff, plain_append_dot_iff]
  exact and_iff_right fixed

theorem plain_search : Url.Plain "_search".toList :=
  ⟨by decide, by simp [Url.endsPath], (Url.percentDecode_eq_iff _).mp (by decide)⟩

/-- The index spliced into the path of an endpoint, before a fixed query string. -/
theorem read_index_iff (endpoint : Url.Base) (catalog : CatalogContext)
    {query : Option (List Char)} (whole : ∀ q ∈ query, '#' ∉ q) :
    Url.read (endpoint.trimmed.text ++ '/' :: (collectionIndex catalog).toList ++
        '/' :: "_search".toList ++ Url.queryText query) =
        some (indexTarget endpoint catalog query) ↔
      PlainNamespace catalog := by
  rw [← plain_collectionIndex_iff]
  exact Url.read_spliced_iff endpoint.trimmed _ plain_search whole

theorem addresses_searchUrl_iff (endpoint : Url.Base) (catalog : CatalogContext) :
    Addresses endpoint catalog none
        (searchUrl (collectionIndex catalog) (String.ofList endpoint.text)) ↔
      PlainNamespace catalog := by
  have text : (searchUrl (collectionIndex catalog) (String.ofList endpoint.text)).toList =
      endpoint.trimmed.text ++ '/' :: (collectionIndex catalog).toList ++
        '/' :: "_search".toList ++ Url.queryText none := by
    simp [searchUrl, trimEndMatches, Url.Base.text_trimmed, Url.queryText]
  rw [Addresses, text]
  exact read_index_iff endpoint catalog (by simp)

theorem addresses_routerSearchUrl_iff (endpoint : Url.Base) (catalog : CatalogContext) :
    Addresses endpoint catalog (some wholeResults)
        (routerSearchUrl (collectionIndex catalog) (String.ofList endpoint.text)) ↔
      PlainNamespace catalog := by
  have text : (routerSearchUrl (collectionIndex catalog) (String.ofList endpoint.text)).toList =
      endpoint.trimmed.text ++ '/' :: (collectionIndex catalog).toList ++
        '/' :: "_search".toList ++ Url.queryText (some wholeResults) := by
    have fixed : "/_search?allow_partial_search_results=false".toList =
        '/' :: "_search".toList ++ '?' :: wholeResults := rfl
    have slash : "/".toList = ['/'] := rfl
    simp only [routerSearchUrl, trimEndMatches, String.toList_append, String.toList_ofList,
      Url.Base.text_trimmed, Url.queryText, fixed, slash, List.append_assoc, List.cons_append,
      List.nil_append]
  have whole : ∀ q ∈ some wholeResults, '#' ∉ q := by
    rintro q ⟨⟩
    decide
  rw [Addresses, text]
  exact read_index_iff endpoint catalog whole

/-- The database and the collection can be read off an index, when the database has no dot. -/
theorem collectionIndex_inj {first second : CatalogContext}
    (firstDotless : '.' ∉ first.databaseName.toList)
    (secondDotless : '.' ∉ second.databaseName.toList)
    (same : collectionIndex first = collectionIndex second) :
    first.databaseName = second.databaseName ∧ first.collectionName = second.collectionName := by
  have texts := congrArg String.toList same
  simp only [collectionIndex, String.toList_append, List.append_assoc,
    List.append_cancel_left_eq] at texts
  have front : ∀ catalog : CatalogContext, '.' ∉ catalog.databaseName.toList →
      (catalog.databaseName.toList ++ '.' :: catalog.collectionName.toList).takeWhile (· != '.') =
          catalog.databaseName.toList ∧
        (catalog.databaseName.toList ++ '.' :: catalog.collectionName.toList).dropWhile (· != '.') =
          '.' :: catalog.collectionName.toList := by
    intro catalog dotless
    exact Url.takeWhile_append_cons _ (Url.bne_of_notMem dotless) (by simp)
  obtain ⟨database, collection⟩ := front first firstDotless
  obtain ⟨database', collection'⟩ := front second secondDotless
  have databases := database.symm.trans ((congrArg _ texts).trans database')
  have collections := collection.symm.trans ((congrArg _ texts).trans collection')
  exact ⟨String.toList_inj.mp databases, String.toList_inj.mp (List.cons.inj collections).2⟩

/-- The URLs of different collections address different targets. -/
theorem namespace_of_target {endpoint : Url.Base} {first second : CatalogContext}
    {query : Option (List Char)} (firstDotless : '.' ∉ first.databaseName.toList)
    (secondDotless : '.' ∉ second.databaseName.toList)
    (same : indexTarget endpoint first query = indexTarget endpoint second query) :
    first.databaseName = second.databaseName ∧ first.collectionName = second.collectionName := by
  have segments := congrArg Url.Target.segments same
  simp only [indexTarget, List.append_cancel_left_eq, List.cons.injEq, and_true] at segments
  exact collectionIndex_inj firstDotless secondDotless
    (String.toList_inj.mp (Url.utf8_injective segments))

/-- **The URLs of both searches address the index of the collection if and only if its names are
plain**, and then they tell the collection. -/
theorem search_urls_address_iff (readers : OptionReaders) (options : Option Bytes)
    (args : QueryArgs) (endpoint : Url.Base) :
    (∀ ctx catalog state, ctx.catalog = some catalog →
      openState readers options args ctx = .ok state →
      (Addresses endpoint catalog none (searchUrl state.index (String.ofList endpoint.text)) ↔
        PlainNamespace catalog)) ∧
    (∀ ctx catalog state, ctx.catalog = some catalog →
      routerOpen readers options args ctx = .ok state →
      (Addresses endpoint catalog (some wholeResults)
          (routerSearchUrl state.index (String.ofList endpoint.text)) ↔
        PlainNamespace catalog)) ∧
    ∀ first second query url url', '.' ∉ first.databaseName.toList →
      '.' ∉ second.databaseName.toList → Addresses endpoint first query url →
      Addresses endpoint second query url' → Url.read url.toList = Url.read url'.toList →
      first.databaseName = second.databaseName ∧
        first.collectionName = second.collectionName := by
  refine ⟨?_, ?_, ?_⟩
  · intro ctx catalog state bound opened
    rw [openState_index bound opened]
    exact addresses_searchUrl_iff endpoint catalog
  · intro ctx catalog state bound opened
    rw [routerOpen_index bound opened]
    exact addresses_routerSearchUrl_iff endpoint catalog
  · intro first second query url url' firstDotless secondDotless one other same
    rw [one, other, Option.some.injEq] at same
    exact namespace_of_target firstDotless secondDotless same

/-! ## A collection that addresses another -/

/-- The endpoint `http://localhost:9200`. -/
def localEndpoint : Url.Base :=
  ⟨"http".toList, "localhost:9200".toList, [], by decide, by decide, by decide, .inl rfl,
    by simp [Url.endsPath]⟩

def shopCollection (name : String) : CatalogContext := ⟨"shop", name, none, false, 0⟩

/-- A search on the collection `items/_search#` asks the index of the collection `items`. -/
theorem collection_addresses_other :
    ¬ Addresses localEndpoint (shopCollection "items/_search#") none
        (searchUrl (collectionIndex (shopCollection "items/_search#")) "http://localhost:9200") ∧
    Url.read (searchUrl (collectionIndex (shopCollection "items/_search#"))
        "http://localhost:9200").toList =
      some { indexTarget localEndpoint (shopCollection "items") none with
        fragment := some "/_search".toList } := by
  refine ⟨?_, by decide⟩
  unfold Addresses
  decide

end ExtensionSdkMongodb.OpenSearch
