import ExtensionSdkMongodb.Library.Machine
import ExtensionSdkMongodb.SourceStage.Entries
import ExtensionSdkMongodb.SourceStage.Planning

/-!
# The root extension

The host asks for an extension and then initializes it. A request that is accepted installs its
stages in a cell of the process that is set once, and so is the cell of the host services; the
extension that it gives out is whatever is installed. Initializing it registers the installed
stages one after the other.

So the first accepted request of a process decides. `extension_requests_install` says which requests
are accepted, that the others change nothing, and what initializing registers.
-/

set_option autoImplicit false

namespace ExtensionSdkMongodb.SourceStage

variable {ω : Type}

/-! ## Requests -/

/-- `MongoExtensionAPIVersion`. -/
structure ApiVersion where
  major : UInt32
  minor : UInt32
  deriving DecidableEq, Repr

/-- `EXTENSION_API_VERSION`. -/
def extensionApiVersion : ApiVersion := ⟨1, 0⟩

/-- `supports_selected_version`. -/
def supportsSelectedVersion (selected : ApiVersion) : Bool :=
  selected.major == extensionApiVersion.major && selected.minor == extensionApiVersion.minor

/-- The cells of the process: `HOST_SERVICES_VTABLE_ADDR`, the descriptors of
`EXTENSION_OBJ_ADDR`, and `EXTENSION_OPTIONS_SNAPSHOT`. -/
structure Process (ω : Type) where
  services : Option ℕ
  installed : Option (List (SourceTable ω))
  options : Option Bytes

namespace Process

def fresh : Process ω := ⟨none, none, none⟩

/-- `set_host_services`: the first registration wins. -/
def setHostServices (p : Process ω) (vtable : ℕ) : Process ω :=
  { p with services := some (p.services.getD vtable) }

/-- `cache_extension_options_from_portal`. -/
def cacheExtensionOptions (p : Process ω) (view : Option Bytes) : Process ω :=
  { p with options := some (view.getD []) }

end Process

/-- The arguments of `get_multi_source_extension_impl`: the vtable of the host services, if the
pointer is not null, and whether there is an output pointer. -/
structure Request (ω : Type) where
  ops : List (SourceTable ω)
  version : ApiVersion
  hostServices : Option ℕ
  hasOut : Bool

/-- The loops of `get_multi_source_extension_impl` over the names: the text of the first error. -/
def invalidNames : List (SourceTable ω) → Option String
  | [] => none
  | lhs :: rest =>
    if lhs.name = "" then some "source stage name must not be empty"
    else if rest.any fun rhs => lhs.name == rhs.name then
      some ("duplicate source stage name " ++ lhs.name)
    else invalidNames rest

/-- What a request gives: a status, and the descriptors of the extension if its pointer was
written. -/
structure Given (ω : Type) where
  status : Status
  written : Option (List (SourceTable ω))

/-- A rejection. -/
def Given.rejected (reason : String) : Given ω := ⟨newErrorStatus (-1) reason, none⟩

/-- `get_multi_source_extension_impl`. -/
def getMultiSourceExtension (p : Process ω) (r : Request ω) : Given ω × Process ω :=
  match r.hostServices with
  | none => (.rejected "null parameter to get_mongodb_extension", p)
  | some vtable =>
    if r.hasOut = false then (.rejected "null parameter to get_mongodb_extension", p)
    else if r.ops.isEmpty then
      (.rejected "source extension must register at least one stage", p)
    else
      match invalidNames r.ops with
      | some reason => (.rejected reason, p)
      | none =>
        if supportsSelectedVersion r.version then
          let p := p.setHostServices vtable
          let installed := p.installed.getD r.ops
          (⟨statusOk, some installed⟩, { p with installed := some installed })
        else (.rejected "incompatible extension API version", p)

/-! ## Initializing -/

/-- What the portal answers: the extension options, and a code for the stage of a name if it returns
a status. -/
structure Portal where
  options : Option Bytes
  register : String → Option Int32

/-- The loop of `ext_init`, with the names of the stages that were put to the host. -/
def registerStages (register : String → Option Int32) :
    List (SourceTable ω) → HookOutcome ExtensionError Unit × List String
  | [] => (.ok (), [])
  | table :: tables =>
    match table.onExtensionInitialized.getD (.ok ()) with
    | .error fault => (.error fault, [])
    | .ok () =>
      match register table.name with
      | none =>
        (.error (.error (.runtime "null status from register_stage_descriptor")), [table.name])
      | some code =>
        if code = statusOkCode then
          let (outcome, names) := registerStages register tables
          (outcome, table.name :: names)
        else
          (.error (.error (.runtime ("register_stage_descriptor failed for " ++ table.name))),
            [table.name])

/-- What initializing does: its status, and the names that were put to the host. -/
structure Initialized where
  status : Status
  registered : List String
  deriving DecidableEq

/-- `ext_init`. -/
def extInit (p : Process ω) (portal : Portal) : Initialized × Process ω :=
  let p := p.cacheExtensionOptions portal.options
  let run : HookOutcome ExtensionError Unit × List String :=
    match p.installed with
    | none => (.error (.error (.runtime "extension object not installed")), [])
    | some tables => registerStages portal.register tables
  let status :=
    match ffiBoundary run.1 with
    | none =>
      (ExtensionError.runtime "panic during extension initialize").intoRawStatus
    | some (.error e) => e.intoRawStatus
    | some (.ok ()) => statusOk
  (⟨status, run.2⟩, p)

/-- The loop without the names is the one of the entry. -/
theorem registerStages_outcome (register : String → Option Int32)
    (tables : List (SourceTable ω)) :
    (registerStages register tables).1 = initStages register tables := by
  induction tables with
  | nil => rfl
  | cons table tables ih =>
      simp only [registerStages, initStages, bind, Except.bind]
      cases table.onExtensionInitialized.getD (.ok ()) with
      | error fault => rfl
      | ok _ =>
          cases register table.name with
          | none => rfl
          | some code =>
              simp only [← ih]
              split <;> rfl

/-- A call of the host. -/
inductive ApiCall (ω : Type) where
  | getExtension (r : Request ω)
  | extInit (portal : Portal)

/-- The process under the calls of the host. -/
def processMachine : Machine (Process ω) (ApiCall ω) (Given ω ⊕ Initialized) :=
  fun p call =>
    match call with
    | .getExtension r =>
      let (given, p) := getMultiSourceExtension p r
      (.inl given, p)
    | .extInit portal =>
      let (initialized, p) := extInit p portal
      (.inr initialized, p)

/-! ## What is accepted, and what it installs -/

/-- A request that should be accepted. -/
structure Acceptable (r : Request ω) : Prop where
  services : r.hostServices.isSome = true
  out : r.hasOut = true
  nonempty : r.ops ≠ []
  named : ∀ table ∈ r.ops, table.name ≠ ""
  distinct : (r.ops.map fun table => table.name).Nodup
  version : r.version = extensionApiVersion

theorem invalidNames_none_iff {ops : List (SourceTable ω)} :
    invalidNames ops = none ↔
      (∀ table ∈ ops, table.name ≠ "") ∧ (ops.map fun table => table.name).Nodup := by
  induction ops with
  | nil => simp [invalidNames]
  | cons lhs rest ih =>
      simp only [invalidNames, List.forall_mem_cons, List.map_cons, List.nodup_cons, List.mem_map,
        not_exists, not_and]
      by_cases empty : lhs.name = ""
      · simp [empty]
      · by_cases repeated : (rest.any fun rhs => lhs.name == rhs.name) = true
        · obtain ⟨rhs, member, same⟩ := List.any_eq_true.mp repeated
          rw [if_neg empty, if_pos repeated]
          refine iff_of_false (by simp) fun valid => ?_
          exact valid.2.1 rhs member (beq_iff_eq.mp same).symm
        · have others : ∀ rhs ∈ rest, ¬ rhs.name = lhs.name := by
            intro rhs member same
            exact repeated (List.any_eq_true.mpr ⟨rhs, member, beq_iff_eq.mpr same.symm⟩)
          rw [if_neg empty, if_neg repeated, ih]
          exact ⟨fun valid => ⟨⟨empty, valid.1⟩, others, valid.2⟩,
            fun valid => ⟨valid.1.2, valid.2.2⟩⟩

theorem supportsSelectedVersion_iff {version : ApiVersion} :
    supportsSelectedVersion version = true ↔ version = extensionApiVersion := by
  obtain ⟨major, minor⟩ := version
  simp [supportsSelectedVersion, extensionApiVersion]

/-- An acceptable request gets what is installed, which is its own list when nothing was. -/
theorem getMultiSourceExtension_accepted {p : Process ω} {r : Request ω}
    (acceptable : Acceptable r) :
    ∃ vtable, r.hostServices = some vtable ∧ getMultiSourceExtension p r =
      (⟨statusOk, some (p.installed.getD r.ops)⟩,
        { p.setHostServices vtable with installed := some (p.installed.getD r.ops) }) := by
  obtain ⟨vtable, services⟩ := Option.isSome_iff_exists.mp acceptable.services
  have names := invalidNames_none_iff.mpr ⟨acceptable.named, acceptable.distinct⟩
  have version := supportsSelectedVersion_iff.mpr acceptable.version
  refine ⟨vtable, services, ?_⟩
  simp [getMultiSourceExtension, services, acceptable.out, acceptable.nonempty, names, version,
    Process.setHostServices]

/-- Any other request is rejected, and changes nothing. -/
theorem getMultiSourceExtension_rejected {p : Process ω} {r : Request ω}
    (unacceptable : ¬ Acceptable r) :
    ∃ reason, getMultiSourceExtension p r = (.rejected reason, p) := by
  cases services : r.hostServices with
  | none => exact ⟨_, by simp only [getMultiSourceExtension, services]; rfl⟩
  | some vtable =>
      simp only [getMultiSourceExtension, services]
      by_cases out : r.hasOut = true
      · by_cases nonempty : r.ops = []
        · exact ⟨_, by simp [out, nonempty]; rfl⟩
        · cases names : invalidNames r.ops with
          | some reason => exact ⟨reason, by simp [out, nonempty]⟩
          | none =>
              obtain ⟨named, distinct⟩ := invalidNames_none_iff.mp names
              have version : ¬ supportsSelectedVersion r.version = true := fun supported =>
                unacceptable ⟨by simp [services], out, nonempty, named, distinct,
                  supportsSelectedVersion_iff.mp supported⟩
              exact ⟨_, by simp [out, nonempty, version]; rfl⟩
      · exact ⟨_, by simp [out]; rfl⟩

/-- The list of the first acceptable request among calls. -/
def FirstAccepted : List (ApiCall ω) → List (SourceTable ω) → Prop
  | [], _ => False
  | .getExtension r :: calls, ops =>
    Acceptable r ∧ ops = r.ops ∨ ¬ Acceptable r ∧ FirstAccepted calls ops
  | .extInit _ :: calls, ops => FirstAccepted calls ops

theorem FirstAccepted.acceptable {calls : List (ApiCall ω)} {ops : List (SourceTable ω)}
    (first : FirstAccepted calls ops) : ∃ r, Acceptable r ∧ ops = r.ops := by
  induction calls with
  | nil => exact first.elim
  | cons call calls ih =>
      cases call with
      | getExtension r => exact first.elim (fun own => ⟨r, own⟩) fun later => ih later.2
      | extInit portal => exact ih first

/-- **What is installed after calls is the list of the first acceptable request**, unless something
was installed before. -/
theorem installed_after_iff (p : Process ω) (calls : List (ApiCall ω))
    (ops : List (SourceTable ω)) :
    (processMachine.after p calls).installed = some ops ↔
      p.installed = some ops ∨ p.installed = none ∧ FirstAccepted calls ops := by
  induction calls generalizing p with
  | nil => simp [FirstAccepted]
  | cons call calls ih =>
      rw [Machine.after_cons, ih]
      cases call with
      | extInit portal => exact Iff.rfl
      | getExtension r =>
          by_cases acceptable : Acceptable r
          · obtain ⟨vtable, _, given⟩ := getMultiSourceExtension_accepted (p := p) acceptable
            simp only [processMachine, given, FirstAccepted, acceptable]
            cases p.installed with
            | none => simp [eq_comm]
            | some installed => simp
          · obtain ⟨reason, given⟩ := getMultiSourceExtension_rejected (p := p) acceptable
            simp only [processMachine, given, FirstAccepted, acceptable]
            simp

/-! ## What initializing registers -/

/-- The init hooks are absent or succeed. -/
def HooksSucceed (tables : List (SourceTable ω)) : Prop :=
  ∀ table ∈ tables, table.onExtensionInitialized.getD (.ok ()) = .ok ()

/-- The host registers the stage of this name. -/
def Portal.accepts (portal : Portal) (name : String) : Bool :=
  portal.register name == some statusOkCode

/-- The stages are put to the host in order, up to the first that it does not register, and the run
succeeds exactly if there is none. -/
theorem registerStages_spec {tables : List (SourceTable ω)} (succeed : HooksSucceed tables)
    (portal : Portal) :
    (registerStages portal.register tables).2 =
        (tables.map fun table => table.name).takeWhile portal.accepts ++
          ((tables.map fun table => table.name).dropWhile portal.accepts).head?.toList ∧
      ((∃ text, (registerStages portal.register tables).1 = .error (.error (.runtime text))) ∧
          (∃ table ∈ tables, portal.accepts table.name = false) ∨
        (registerStages portal.register tables).1 = .ok () ∧
          ∀ table ∈ tables, portal.accepts table.name = true) := by
  induction tables with
  | nil => simp [registerStages]
  | cons table tables ih =>
      obtain ⟨hook, others⟩ := List.forall_mem_cons.mp succeed
      obtain ⟨names, outcome⟩ := ih others
      simp only [registerStages, hook]
      have answer : portal.accepts table.name = (portal.register table.name == some statusOkCode) :=
        rfl
      cases register : portal.register table.name with
      | none =>
          rw [register] at answer
          refine ⟨by simp [answer], .inl ⟨⟨_, rfl⟩, table, List.mem_cons_self, by simp [answer]⟩⟩
      | some code =>
          rw [register] at answer
          by_cases ok : code = statusOkCode
          · simp only [ok, if_true]
            have accepted : portal.accepts table.name = true := by simp [answer, ok]
            refine ⟨by simp [accepted, names], outcome.imp (fun failed => ⟨failed.1, ?_⟩)
              fun succeeded => ⟨succeeded.1, List.forall_mem_cons.mpr ⟨accepted, succeeded.2⟩⟩⟩
            obtain ⟨bad, member, refused⟩ := failed.2
            exact ⟨bad, List.mem_cons_of_mem _ member, refused⟩
          · have refused : portal.accepts table.name = false := by simp [answer, ok]
            simp only [ok, if_false]
            exact ⟨by simp [refused], .inl ⟨⟨_, rfl⟩, table, List.mem_cons_self, refused⟩⟩

/-- Initializing puts the stages to the host in order, each once, up to the first failure, and
succeeds exactly if every stage is registered. -/
structure Registers (tables : List (SourceTable ω)) (portal : Portal) (done : Initialized) :
    Prop where
  registered : done.registered =
    (tables.map fun table => table.name).takeWhile portal.accepts ++
      ((tables.map fun table => table.name).dropWhile portal.accepts).head?.toList
  once : done.registered.Nodup
  ok : done.status.isOk = true ↔ ∀ table ∈ tables, portal.accepts table.name = true

theorem takeWhile_head_begins {α : Type} (p : α → Bool) (l : List α) :
    l.takeWhile p ++ (l.dropWhile p).head?.toList <+: l := by
  conv => rhs; rw [← List.takeWhile_append_dropWhile (p := p) (l := l)]
  refine (List.prefix_append_right_inj _).mpr ?_
  cases l.dropWhile p with
  | nil => exact List.nil_prefix
  | cons a rest => exact ⟨rest, rfl⟩

theorem extInit_registers {p : Process ω} {tables : List (SourceTable ω)}
    (installed : p.installed = some tables) (succeed : HooksSucceed tables)
    (distinct : (tables.map fun table => table.name).Nodup) (portal : Portal) :
    Registers tables portal (extInit p portal).1 := by
  obtain ⟨names, outcome⟩ := registerStages_spec succeed portal
  have run : (extInit p portal).1.registered = (registerStages portal.register tables).2 := by
    simp [extInit, Process.cacheExtensionOptions, installed]
  refine ⟨run.trans names, ?_, ?_⟩
  · rw [run, names]
    exact distinct.sublist (takeWhile_head_begins _ _).sublist
  · have status : (extInit p portal).1.status =
        match ffiBoundary (registerStages portal.register tables).1 with
        | none => (ExtensionError.runtime "panic during extension initialize").intoRawStatus
        | some (.error e) => e.intoRawStatus
        | some (.ok ()) => statusOk := by
      simp [extInit, Process.cacheExtensionOptions, installed]
    rw [status]
    rcases outcome with ⟨⟨text, failed⟩, table, member, refused⟩ | ⟨succeeded, all⟩
    · rw [failed]
      refine iff_of_false (by simp [ffiBoundary, ExtensionError.intoRawStatus_isOk]) fun every => ?_
      rw [every table member] at refused
      cases refused
    · rw [succeeded]
      exact iff_of_true rfl all

/-- **A request is accepted exactly if it is acceptable, and a rejected one changes nothing; after
any calls an accepted request gives out the list of the first acceptable one, and initializing
registers that list.** -/
theorem extension_requests_install (calls : List (ApiCall ω)) :
    let p := processMachine.after .fresh calls
    (∀ r, (getMultiSourceExtension p r).1.status.isOk = true ↔ Acceptable r) ∧
      (∀ r, ¬ Acceptable r →
        (getMultiSourceExtension p r).1.written = none ∧ (getMultiSourceExtension p r).2 = p) ∧
      (∀ r, Acceptable r → ∃ ops, FirstAccepted (calls ++ [.getExtension r]) ops ∧
        (getMultiSourceExtension p r).1.written = some ops) ∧
      ∀ ops portal, FirstAccepted calls ops → HooksSucceed ops →
        Registers ops portal (extInit p portal).1 := by
  intro p
  have rejected : ∀ r, ¬ Acceptable r → (getMultiSourceExtension p r).1.status.isOk = false ∧
      (getMultiSourceExtension p r).1.written = none ∧ (getMultiSourceExtension p r).2 = p := by
    intro r unacceptable
    obtain ⟨reason, given⟩ := getMultiSourceExtension_rejected (p := p) unacceptable
    rw [given]
    exact ⟨rfl, rfl, rfl⟩
  refine ⟨fun r => ⟨fun ok => ?_, fun acceptable => ?_⟩, fun r unacceptable =>
    (rejected r unacceptable).2, fun r acceptable => ?_, fun ops portal first succeed => ?_⟩
  · by_contra unacceptable
    rw [(rejected r unacceptable).1] at ok
    cases ok
  · obtain ⟨vtable, _, given⟩ := getMultiSourceExtension_accepted (p := p) acceptable
    rw [given]
    rfl
  · obtain ⟨vtable, _, given⟩ := getMultiSourceExtension_accepted (p := p) acceptable
    refine ⟨p.installed.getD r.ops, ?_, by rw [given]⟩
    have after : (processMachine.after .fresh (calls ++ [.getExtension r])).installed =
        some (p.installed.getD r.ops) := by
      rw [Machine.after_append]
      simp only [Machine.after_cons, Machine.after_nil, processMachine]
      exact congrArg (fun given => given.2.installed) given
    rcases (installed_after_iff _ _ _).mp after with before | first
    · cases before
    · exact first.2
  · obtain ⟨r, acceptable, rfl⟩ := first.acceptable
    refine extInit_registers ((installed_after_iff _ _ _).mpr (.inr ⟨rfl, first⟩)) succeed
      acceptable.distinct portal

/-! ### Two requests -/

/-- A request for one stage of this name. -/
def oneStage (name : String) : Request Unit :=
  ⟨[{ limitedSource none with name }], extensionApiVersion, some 1, true⟩

/-- After two accepted requests, initializing registers the stage of the first. -/
theorem second_request_registers_first :
    let p := processMachine.after .fresh
      [.getExtension (oneStage "$a"), .getExtension (oneStage "$b")]
    let portal : Portal := ⟨none, fun _ => some 0⟩
    Acceptable (oneStage "$b") ∧ (extInit p portal).1 = ⟨statusOk, ["$a"]⟩ ∧
      ¬ Registers (oneStage "$b").ops portal (extInit p portal).1 := by
  intro p portal
  have acceptable : Acceptable (oneStage "$b") :=
    ⟨rfl, rfl, by simp [oneStage], by simp [oneStage], by simp [oneStage], rfl⟩
  have initialized : (extInit p portal).1 = ⟨statusOk, ["$a"]⟩ := by decide
  refine ⟨acceptable, initialized, fun registers => ?_⟩
  have other := registers.registered
  rw [initialized] at other
  revert other
  decide

end ExtensionSdkMongodb.SourceStage
