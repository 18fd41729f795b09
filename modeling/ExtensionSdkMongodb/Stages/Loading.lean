import ExtensionSdkMongodb.MapTransform.Buffers
import ExtensionSdkMongodb.SourceStage.Extension

/-!
# Loading a map or passthrough extension

The loader asks a library for its versions, chooses one that it supports itself, requests the
extension and initializes it. The root extensions of map and passthrough stages are copies of one
another up to the init hook of map stages, which can read the options and set statics of the
library.

A process installs the stage of the first request that it accepts. Every later request gives out
that stage, every initialization runs its hook and then registers it, and the statics are what the
hooks of these initializations made of them, one after the other (`loads`).
-/

set_option autoImplicit false

namespace ExtensionSdkMongodb.Stages

open SourceStage (ApiVersion extensionApiVersion supportsSelectedVersion supportsSelectedVersion_iff
  Portal)

/-! ## Versions -/

/-- `SUPPORTED_EXTENSION_API_VERSIONS`, which `write_supported_versions` gives to the loader. -/
def supportedExtensionApiVersions : List ApiVersion := [extensionApiVersion]

/-- The loop of `host_supports_extension`, with its two flags. -/
def scanVersions (version : ApiVersion) : List ApiVersion → Bool × Bool → Bool × Bool
  | [], found => found
  | host :: hosts, (major, minor) =>
    if host.major = version.major then
      if version.minor ≤ host.minor then (true, true) else scanVersions version hosts (true, minor)
    else scanVersions version hosts (major, minor)

/-- `host_supports_extension`; a null vector is empty. -/
def hostSupportsExtension (hosts : List ApiVersion) (version : ApiVersion) : Bool :=
  if hosts.isEmpty then false
  else
    let (major, minor) := scanVersions version hosts (false, false)
    major && minor

/-- The host has a slot for an extension of this version. -/
def Compatible (version host : ApiVersion) : Prop :=
  host.major = version.major ∧ version.minor ≤ host.minor

theorem scanVersions_iff {version : ApiVersion} {hosts : List ApiVersion} (major : Bool) :
    (scanVersions version hosts (major, false)).2 = true ↔
      ∃ host ∈ hosts, Compatible version host := by
  induction hosts generalizing major with
  | nil => simp [scanVersions]
  | cons host hosts ih =>
      simp only [scanVersions, List.exists_mem_cons_iff, Compatible]
      by_cases same : host.major = version.major
      · by_cases enough : version.minor ≤ host.minor
        · simp [same, enough]
        · simp [same, enough, ih, Compatible]
      · simp [same, ih, Compatible]

/-- The second flag is set with the first one. -/
theorem scanVersions_major {version : ApiVersion} {hosts : List ApiVersion} (major : Bool)
    (minor : (scanVersions version hosts (major, false)).2 = true) :
    (scanVersions version hosts (major, false)).1 = true := by
  induction hosts generalizing major with
  | nil => simp [scanVersions] at minor
  | cons host hosts ih =>
      simp only [scanVersions] at minor ⊢
      split
      · split
        · rfl
        · next same older => exact ih _ (by simpa [same, older] using minor)
      · next other => exact ih _ (by simpa [other] using minor)

/-- **A host supports an extension exactly if one of its versions has a slot for it.** -/
theorem hostSupportsExtension_iff {hosts : List ApiVersion} {version : ApiVersion} :
    hostSupportsExtension hosts version = true ↔ ∃ host ∈ hosts, Compatible version host := by
  unfold hostSupportsExtension
  split
  · next empty => simp [List.isEmpty_iff.mp empty]
  · rw [← scanVersions_iff false]
    simp only [Bool.and_eq_true]
    exact ⟨fun both => both.2, fun minor => ⟨scanVersions_major _ minor, minor⟩⟩

/-! ## The root extension -/

variable {γ ω : Type}

/-- What the copies of the root extension differ in, for globals `γ` and statics `ω`: what the init
hook does with the options, and what `ext_init` runs into without globals. -/
structure RootExtension (γ ω : Type) where
  name : γ → String
  onExtensionInitialized : γ → Option Bytes → ω → HookOutcome String Unit × ω
  uninstalled : HookOutcome String Unit

/-- A map stage whose init hook acts on the statics that its callbacks read. -/
structure MapExport (ω : Type) where
  name : String
  callbacks : ω → MapTransform.MapStageGlobals
  onExtensionInitialized : Option (Option Bytes → ω → HookOutcome String Unit × ω)

/-- The root extension of `map_transform`. `map_globals` panics without globals. -/
def mapRoot : RootExtension (MapExport ω) ω where
  name := MapExport.name
  onExtensionInitialized := fun mg view w =>
    match mg.onExtensionInitialized with
    | none => (.ok (), w)
    | some hook => hook view w
  uninstalled := .error .panic

/-- The root extension of `passthrough`, which has no hook and looks at no globals. -/
def passthroughRoot : RootExtension String Unit where
  name := id
  onExtensionInitialized := fun _ _ w => (.ok (), w)
  uninstalled := .ok ()

/-- The cells of the process. Globals and extension object are installed together. -/
structure Process (γ ω : Type) where
  services : Option ℕ
  installed : Option γ
  options : Option Bytes
  statics : ω

def Process.fresh (statics : ω) : Process γ ω := ⟨none, none, none, statics⟩

/-- The arguments of `get_map_extension_impl` and `get_extension_impl`. -/
structure Request (γ : Type) where
  globals : γ
  version : ApiVersion
  hostServices : Option ℕ
  hasOut : Bool

/-- `get_map_extension_impl` and `get_extension_impl`. What is delivered is the one extension of the
process, by the stage that it registers. -/
def getExtensionImpl (p : Process γ ω) (r : Request γ) : Delivery γ × Process γ ω :=
  match r.hostServices with
  | none => (⟨newErrorStatus (-1) "null parameter to get_mongodb_extension", none⟩, p)
  | some vtable =>
    if r.hasOut = false then
      (⟨newErrorStatus (-1) "null parameter to get_mongodb_extension", none⟩, p)
    else if supportsSelectedVersion r.version then
      let installed := p.installed.getD r.globals
      (⟨statusOk, some installed⟩,
        { p with services := some (p.services.getD vtable), installed := some installed })
    else (⟨newErrorStatus (-1) "incompatible extension API version", none⟩, p)

/-- The registration of a stage at the host. -/
def registerStage (portal : Portal) (name : String) : HookOutcome String Unit :=
  match portal.register name with
  | none => .error (.error "null status from register_stage_descriptor")
  | some code =>
    if code = statusOkCode then .ok () else .error (.error "register_stage_descriptor failed")

/-- What initializing does: its status, and the name that was put to the host. -/
structure Initialized where
  status : Status
  registered : Option String
  deriving DecidableEq

/-- `ext_init`. -/
def extInit (root : RootExtension γ ω) (p : Process γ ω) (portal : Portal) :
    Initialized × Process γ ω :=
  let p := { p with options := some (portal.options.getD []) }
  let (begun, statics) :=
    match p.installed with
    | none => (root.uninstalled, p.statics)
    | some globals => root.onExtensionInitialized globals portal.options p.statics
  let (outcome, registered) : HookOutcome String Unit × Option String :=
    match begun, p.installed with
    | .error fault, _ => (.error fault, none)
    | .ok (), none => (.error (.error "extension object not installed"), none)
    | .ok (), some globals => (registerStage portal (root.name globals), some (root.name globals))
  let status :=
    match outcome with
    | .ok () => statusOk
    | .error fault => MapTransform.faultStatus "panic during extension initialize" fault
  (⟨status, registered⟩, { p with statics })

/-- A call of the loader. -/
inductive LoaderCall (γ : Type) where
  | getExtension (r : Request γ)
  | extInit (portal : Portal)

/-- The process under the calls of the loader. -/
def processMachine (root : RootExtension γ ω) :
    Machine (Process γ ω) (LoaderCall γ) (Delivery γ ⊕ Initialized) :=
  fun p call =>
    match call with
    | .getExtension r =>
      let (given, p) := getExtensionImpl p r
      (.inl given, p)
    | .extInit portal =>
      let (initialized, p) := extInit root p portal
      (.inr initialized, p)

/-! ## What calls leave -/

/-- A request that should be accepted. -/
def Request.acceptable (r : Request γ) : Bool :=
  r.hostServices.isSome && r.hasOut && supportedExtensionApiVersions.contains r.version

/-- The globals of a request that is accepted. -/
def LoaderCall.accepted : LoaderCall γ → Option γ
  | .getExtension r => if r.acceptable then some r.globals else none
  | .extInit _ => none

/-- The globals of the first request that is accepted. -/
def firstAccepted (calls : List (LoaderCall γ)) : Option γ := calls.findSome? LoaderCall.accepted

/-- The portal of an initialization. -/
def LoaderCall.portal : LoaderCall γ → Option Portal
  | .getExtension _ => none
  | .extInit portal => some portal

/-- The portals of the initializations, in order. -/
def portals (calls : List (LoaderCall γ)) : List Portal := calls.filterMap LoaderCall.portal

/-- The portals of the initializations of what is installed. -/
def hookedPortals (calls : List (LoaderCall γ)) : List Portal :=
  portals (calls.dropWhile fun call => call.accepted.isNone)

/-- The statics after the hooks of some initializations. -/
def RootExtension.hooked (root : RootExtension γ ω) (globals : γ) (w : ω) (portals : List Portal) :
    ω :=
  portals.foldl (fun w portal => (root.onExtensionInitialized globals portal.options w).2) w

theorem acceptable_iff {r : Request γ} :
    r.acceptable = true ↔
      r.hostServices.isSome = true ∧ r.hasOut = true ∧
        r.version ∈ supportedExtensionApiVersions := by
  simp [Request.acceptable, and_assoc]

/-- An acceptable request gets what is installed, and installs itself if nothing was. -/
theorem getExtensionImpl_accepted {p : Process γ ω} {r : Request γ}
    (acceptable : r.acceptable = true) :
    ∃ vtable, r.hostServices = some vtable ∧ getExtensionImpl p r =
      (⟨statusOk, some (p.installed.getD r.globals)⟩,
        { p with
          services := some (p.services.getD vtable),
          installed := some (p.installed.getD r.globals) }) := by
  obtain ⟨services, out, version⟩ := acceptable_iff.mp acceptable
  obtain ⟨vtable, services⟩ := Option.isSome_iff_exists.mp services
  have supported : supportsSelectedVersion r.version = true := by
    rw [supportsSelectedVersion_iff]
    simpa [supportedExtensionApiVersions] using version
  exact ⟨vtable, services, by simp [getExtensionImpl, services, out, supported]⟩

/-- Any other request is rejected, and changes nothing. -/
theorem getExtensionImpl_rejected {p : Process γ ω} {r : Request γ}
    (unacceptable : r.acceptable = false) :
    ∃ reason, getExtensionImpl p r = (⟨newErrorStatus (-1) reason, none⟩, p) := by
  cases services : r.hostServices with
  | none => exact ⟨_, by simp only [getExtensionImpl, services]; rfl⟩
  | some vtable =>
      cases out : r.hasOut with
      | false => exact ⟨_, by simp only [getExtensionImpl, services, out, if_true]; rfl⟩
      | true =>
          have unsupported : supportsSelectedVersion r.version = false := by
            apply Bool.eq_false_iff.mpr
            rw [ne_eq, supportsSelectedVersion_iff]
            simpa [Request.acceptable, services, out, supportedExtensionApiVersions]
              using unacceptable
          exact ⟨_, by simp [getExtensionImpl, services, out, unsupported]; rfl⟩

/-- A call with other globals. A library passes the same ones in every request. -/
def LoaderCall.withGlobals {δ : Type} (globals : δ) : LoaderCall γ → LoaderCall δ
  | .getExtension r => .getExtension { r with globals }
  | .extInit portal => .extInit portal

/-- A library's own globals change neither what is accepted nor what is initialized. -/
theorem hookedPortals_withGlobals {δ : Type} (globals : δ) (calls : List (LoaderCall γ)) :
    firstAccepted (calls.map (LoaderCall.withGlobals globals)) =
        (firstAccepted calls).map (fun _ => globals) ∧
      hookedPortals (calls.map (LoaderCall.withGlobals globals)) = hookedPortals calls := by
  have portals_ : ∀ calls : List (LoaderCall γ),
      portals (calls.map (LoaderCall.withGlobals globals)) = portals calls := by
    intro calls
    rw [portals, List.filterMap_map]
    congr 1
    funext call
    cases call <;> rfl
  induction calls with
  | nil => exact ⟨rfl, rfl⟩
  | cons call calls ih =>
      obtain ⟨first, hooked⟩ := ih
      have accepted : (call.withGlobals globals).accepted = call.accepted.map fun _ => globals := by
        cases call with
        | extInit portal => rfl
        | getExtension r =>
            have same : Request.acceptable { r with globals } = r.acceptable := rfl
            simp only [LoaderCall.withGlobals, LoaderCall.accepted, same]
            cases r.acceptable <;> rfl
      simp only [firstAccepted, hookedPortals] at first hooked ⊢
      rw [List.map_cons, List.findSome?_cons, List.findSome?_cons, accepted]
      cases here : call.accepted with
      | some g =>
          refine ⟨rfl, ?_⟩
          rw [List.dropWhile_cons_of_neg (by simp [accepted, here]),
            List.dropWhile_cons_of_neg (by simp [here]), ← List.map_cons]
          exact portals_ _
      | none =>
          refine ⟨first, ?_⟩
          rw [List.dropWhile_cons_of_pos (by simp [accepted, here]),
            List.dropWhile_cons_of_pos (by simp [here])]
          exact hooked

/-! ## Runs of the loader -/

section Runs

variable (root : RootExtension γ ω)

/-- **What is installed stays, and the first request that is accepted installs.** -/
theorem installed_after (p : Process γ ω) (calls : List (LoaderCall γ)) :
    ((processMachine root).after p calls).installed = p.installed.or (firstAccepted calls) := by
  induction calls generalizing p with
  | nil => simp [firstAccepted]
  | cons call calls ih =>
      rw [Machine.after_cons, ih]
      cases call with
      | extInit portal => rfl
      | getExtension r =>
          cases acceptable : r.acceptable with
          | true =>
              obtain ⟨vtable, -, given⟩ := getExtensionImpl_accepted (p := p) acceptable
              simp only [processMachine, given, firstAccepted, List.findSome?_cons,
                LoaderCall.accepted, acceptable, if_true]
              cases p.installed <;> rfl
          | false =>
              obtain ⟨reason, given⟩ := getExtensionImpl_rejected (p := p) acceptable
              simp [processMachine, given, firstAccepted, LoaderCall.accepted, acceptable]

/-- The options are those of the last initialization, whatever became of it. -/
theorem options_after (p : Process γ ω) (calls : List (LoaderCall γ)) :
    ((processMachine root).after p calls).options =
      ((portals calls).getLast?.map fun portal => portal.options.getD []).or p.options := by
  induction calls using List.reverseRecOn with
  | nil => rfl
  | append_singleton calls call ih =>
      rw [Machine.after_append, portals, List.filterMap_append]
      cases call with
      | extInit portal => simp [processMachine, extInit, LoaderCall.portal]
      | getExtension r =>
          have none_ : List.filterMap LoaderCall.portal [LoaderCall.getExtension r] = [] := rfl
          rw [none_, List.append_nil, ← portals, ← ih]
          cases acceptable : r.acceptable with
          | true =>
              obtain ⟨vtable, -, given⟩ := getExtensionImpl_accepted
                (p := (processMachine root).after p calls) acceptable
              simp [processMachine, given]
          | false =>
              obtain ⟨reason, given⟩ := getExtensionImpl_rejected
                (p := (processMachine root).after p calls) acceptable
              simp [processMachine, given]

variable {root}

/-- Requests leave the statics as they are. -/
theorem statics_getExtension (p : Process γ ω) (r : Request γ) :
    (getExtensionImpl p r).2.statics = p.statics := by
  cases acceptable : r.acceptable with
  | true =>
      obtain ⟨vtable, -, given⟩ := getExtensionImpl_accepted (p := p) acceptable
      rw [given]
  | false =>
      obtain ⟨reason, given⟩ := getExtensionImpl_rejected (p := p) acceptable
      rw [given]

/-- Every initialization of what is installed runs its hook. -/
theorem statics_installed {p : Process γ ω} {globals : γ} (installed : p.installed = some globals)
    (calls : List (LoaderCall γ)) :
    ((processMachine root).after p calls).statics =
      root.hooked globals p.statics (portals calls) := by
  induction calls generalizing p with
  | nil => rfl
  | cons call calls ih =>
      have stays : ((processMachine root) p call).2.installed = some globals := by
        have after := installed_after root p [call]
        rwa [installed, Option.some_or] at after
      rw [Machine.after_cons, ih stays]
      cases call with
      | getExtension r =>
          exact congrArg (fun w => root.hooked globals w _) (statics_getExtension p r)
      | extInit portal => simp [processMachine, extInit, installed, portals, RootExtension.hooked,
          LoaderCall.portal]

/-- **The statics are what the hooks of the initializations made of them**, from the first accepted
request on. -/
theorem statics_after {p : Process γ ω} (fresh : p.installed = none) (calls : List (LoaderCall γ)) :
    ((processMachine root).after p calls).statics =
      match firstAccepted calls with
      | none => p.statics
      | some globals => root.hooked globals p.statics (hookedPortals calls) := by
  induction calls generalizing p with
  | nil => rfl
  | cons call calls ih =>
      rw [Machine.after_cons]
      cases accepted : call.accepted with
      | some globals =>
          have here : firstAccepted (call :: calls) = some globals := by
            simp [firstAccepted, accepted]
          have hooked : hookedPortals (call :: calls) = portals (call :: calls) := by
            simp [hookedPortals, accepted]
          have installed : ((processMachine root) p call).2.installed = some globals := by
            have after := installed_after root p [call]
            rwa [fresh, Option.none_or, firstAccepted, List.findSome?_cons, accepted] at after
          rw [here, statics_installed installed, hooked]
          cases call with
          | extInit portal => cases accepted
          | getExtension r =>
              exact congrArg (fun w => root.hooked globals w _) (statics_getExtension p r)
      | none =>
          have later : firstAccepted (call :: calls) = firstAccepted calls := by
            simp [firstAccepted, accepted]
          have hooked : hookedPortals (call :: calls) = hookedPortals calls := by
            simp [hookedPortals, accepted]
          have still : ((processMachine root) p call).2.installed = none := by
            have after := installed_after root p [call]
            rwa [fresh, Option.none_or, firstAccepted, List.findSome?_cons, accepted] at after
          have statics : ((processMachine root) p call).2.statics = p.statics := by
            cases call with
            | getExtension r => exact statics_getExtension p r
            | extInit portal => simp [processMachine, extInit, fresh]
          rw [ih still, later, hooked, statics]

/-- What initializing does after calls of the loader: it succeeds exactly if a stage is installed,
its hook succeeds and the host registers it, and it puts that stage to the host exactly if the hook
succeeds. -/
structure Initializes (root : RootExtension γ ω) (installed : Option γ) (w : ω) (portal : Portal)
    (done : Initialized) : Prop where
  ok : done.status.isOk = true ↔ ∃ globals, installed = some globals ∧
    (root.onExtensionInitialized globals portal.options w).1 = .ok () ∧
    portal.register (root.name globals) = some statusOkCode
  registered : ∀ name, done.registered = some name ↔ ∃ globals, installed = some globals ∧
    (root.onExtensionInitialized globals portal.options w).1 = .ok () ∧ root.name globals = name

theorem newErrorStatus_fails (reason : String) : (newErrorStatus (-1) reason).isOk = false := rfl

theorem extInit_initializes (p : Process γ ω) (portal : Portal) :
    Initializes root p.installed p.statics portal (extInit root p portal).1 := by
  cases installed : p.installed with
  | none =>
      refine ⟨?_, fun name => ?_⟩
      · rcases missing : root.uninstalled with (e | _) | _ <;>
          simp [extInit, installed, missing, MapTransform.faultStatus_not_ok]
      · rcases missing : root.uninstalled with (e | _) | _ <;> simp [extInit, installed, missing]
  | some globals =>
      cases hook : (root.onExtensionInitialized globals portal.options p.statics).1 with
      | error fault =>
          refine ⟨?_, fun name => ?_⟩
          · simp [extInit, installed, hook, MapTransform.faultStatus_not_ok]
          · simp [extInit, installed, hook]
      | ok _ =>
          refine ⟨?_, fun name => ?_⟩
          · simp only [extInit, installed, hook, registerStage, Option.some.injEq, exists_eq_left',
              true_and]
            cases portal.register (root.name globals) with
            | none => simp [MapTransform.faultStatus_not_ok]
            | some code =>
                by_cases ok : code = statusOkCode
                · simp [ok]
                · simp [ok, MapTransform.faultStatus_not_ok]
          · simp [extInit, installed, hook]

/-- What a process is after calls of the loader. -/
structure Loads (root : RootExtension γ ω) (w : ω) (calls : List (LoaderCall γ))
    (p : Process γ ω) : Prop where
  /-- A request is accepted exactly if no pointer is null and its version is one of the listed. -/
  accepts : ∀ r, (getExtensionImpl p r).1.status.isOk = true ↔
    r.hostServices.isSome = true ∧ r.hasOut = true ∧ r.version ∈ supportedExtensionApiVersions
  rejects : ∀ r, (getExtensionImpl p r).1.status.isOk = false →
    (getExtensionImpl p r).1.out = none ∧ (getExtensionImpl p r).2 = p
  /-- An accepted request gives out the stage of the first one. -/
  gives : ∀ r, (getExtensionImpl p r).1.status.isOk = true →
    (getExtensionImpl p r).1.out = firstAccepted (calls ++ [.getExtension r])
  options : p.options = (portals calls).getLast?.map fun portal => portal.options.getD []
  statics : p.statics =
    match firstAccepted calls with
    | none => w
    | some globals => root.hooked globals w (hookedPortals calls)
  initializes : ∀ portal,
    Initializes root (firstAccepted calls) p.statics portal (extInit root p portal).1

/-- **Loading**: after any calls of the loader the process has the stage of the first accepted
request, the options of the last initialization, and the statics of all hooks that ran. -/
theorem loads (root : RootExtension γ ω) (w : ω) (calls : List (LoaderCall γ)) :
    Loads root w calls ((processMachine root).after (.fresh w) calls) := by
  have installed : ((processMachine root).after (.fresh w) calls).installed = firstAccepted calls :=
    installed_after root (.fresh w) calls
  have accepted : ∀ r, (getExtensionImpl ((processMachine root).after (.fresh w) calls)
      r).1.status.isOk = true ↔ r.acceptable = true := by
    intro r
    cases acceptable : r.acceptable with
    | true =>
        obtain ⟨_, -, given⟩ := getExtensionImpl_accepted
          (p := (processMachine root).after (.fresh w) calls) acceptable
        rw [given]
        exact iff_of_true rfl rfl
    | false =>
        obtain ⟨_, given⟩ := getExtensionImpl_rejected
          (p := (processMachine root).after (.fresh w) calls) acceptable
        rw [given]
        exact iff_of_false (by simp only [newErrorStatus_fails]; simp) (by simp)
  refine ⟨fun r => (accepted r).trans acceptable_iff, ?_, ?_, ?_, statics_after rfl calls, ?_⟩
  · intro r rejected
    have unacceptable : r.acceptable = false := by
      rw [← Bool.not_eq_true, ← accepted r, rejected]
      exact Bool.false_ne_true
    obtain ⟨_, given⟩ := getExtensionImpl_rejected
      (p := (processMachine root).after (.fresh w) calls) unacceptable
    rw [given]
    exact ⟨rfl, rfl⟩
  · intro r ok
    have acceptable := (accepted r).mp ok
    obtain ⟨_, -, given⟩ := getExtensionImpl_accepted
      (p := (processMachine root).after (.fresh w) calls) acceptable
    rw [given, firstAccepted, List.findSome?_append, ← firstAccepted, installed]
    cases firstAccepted calls <;> simp [LoaderCall.accepted, acceptable]
  · rw [options_after, Process.fresh, Option.or_none]
  · intro portal
    rw [← installed]
    exact extInit_initializes _ portal

end Runs

end ExtensionSdkMongodb.Stages
