import ShimSpin.Source
import ShimSpin.Trigger

namespace ShimSpin
set_option autoImplicit true

def supportedLayersTypes (oci : SpinOci) : List String :=
  [ociLayerMediaTypeWasm, ociLayerMediaTypeWasmWkg, oci.archiveMediatype, oci.dataMediatype,
    oci.spinApplicationMediaType]

inductive Precompiled where
  | module
  | component
  deriving DecidableEq

/-- Wasmtime recognises what it has precompiled. -/
structure Wasmtime where
  detectPrecompiled : Bytes → Option Precompiled
  componentizeIfNecessary : Bytes → Except Error Bytes
  precompileComponent : Bytes → Except Error Bytes
  detect_precompileComponent : precompileComponent b = .ok b' → (detectPrecompiled b').isSome

abbrev Validator := LockedApp → List String → Except Error Unit

def LockedApp.retained (app : LockedApp) (ids : List String) : LockedApp :=
  { app with
    triggers := app.triggers.filter (fun t => t.component.any (fun c => decide (c ∈ ids)))
    components := app.components.filter (fun c => decide (c.id ∈ ids) &&
      app.triggers.any (fun t => decide (t.component = some c.id))) }

def LockedApp.HasComponent (app : LockedApp) (id : String) : Prop :=
  ∃ c ∈ app.components, c.id = id

instance (app : LockedApp) : DecidablePred app.HasComponent := fun id =>
  inferInstanceAs (Decidable (∃ c ∈ app.components, c.id = id))

/-- How Spin cuts an app down. The check of service chaining looks at which components are
listed, not at how. -/
structure SpinApp where
  retainComponents : LockedApp → List String → List Validator → Except Error LockedApp
  validateServiceChainingForComponents : Validator
  retain_ok : retainComponents app ids vs = .ok app' →
    app' = app.retained ids ∧ (∀ id ∈ ids, app.HasComponent id) ∧ ∀ v ∈ vs, v app ids = .ok ()
  retain_total : (∀ id ∈ ids, app.HasComponent id) → (∀ v ∈ vs, v app ids = .ok ()) →
    ∃ app', retainComponents app ids vs = .ok app'
  validate_congr : (∀ id, id ∈ ids ↔ id ∈ ids') →
    validateServiceChainingForComponents app ids = .ok () →
    validateServiceChainingForComponents app ids' = .ok ()

structure Host (Addr : Type) where
  platform : Platform
  spinApp : SpinApp
  triggers : TriggerHost Addr
  hash : HashIter
  scheduler : Scheduler
  telemetryInit : Except Error Unit
  setHandler : Except Error Unit

/-- `split_once('=')`, with the whole string as key when there is no `=`. -/
def splitEnv (v : String) : String × String :=
  match v.toList.span (· ≠ '=') with
  | (key, []) => (String.ofList key, "")
  | (key, _ :: value) => (String.ofList key, String.ofList value)

def importEnvs (envs : List String) (E : Env) : Outcome Env :=
  envs.foldlM (fun E v => setVar E (splitEnv v).1 (splitEnv v).2) E

/-- The non-empty segments of the value of `SPIN_COMPONENTS_TO_RETAIN`. -/
def retainList (componentsEnv : String) : List String :=
  ((componentsEnv.toList.splitOn ',').map String.ofList).filter (· ≠ "")

def retainFromEnv (spinApp : SpinApp) (app : LockedApp) (E : Env) : Outcome LockedApp :=
  match E.var spinComponentsToRetainEnv with
  | some componentsEnv =>
    let components := retainList componentsEnv
    (ofResult (spinApp.retainComponents app components
      [spinApp.validateServiceChainingForComponents])).context
      (.text "failed to resolve application with only [" :: debugList components ++
        [.text ("] components retained by configured environment variable " ++
          spinComponentsToRetainEnv)])
  | none => return app

/-- Whether the component loader of a run deserializes precompiled artifacts. -/
def aotEnabled (ctx : RuntimeContext) (src : Source) : Bool :=
  match src with
  | .ociSpin | .ociWkg _ => layersFromPrecompileCache ctx
  | .file _ => false

variable {Addr : Type}

def setUpTrigger (host : TriggerHost Addr) (ctx : RuntimeContext) (app : App) (aot : Bool)
    (w : World) (type : String) : Outcome TriggerFuture :=
  if type = httpTriggerType then do
    let addressStr := (w.env.var spinHttpListenAddrEnv).getD spinAddrDefault
    let address ← parseAddr host.toSocketAddrs addressStr
    runTriggerType host type (.http ⟨address, none, none, false, none, none, none, none, 1⟩)
      app aot w
  else if type = redisTriggerType then runTriggerType host type .noCliArgs app aot w
  else if type = sqsTriggerType then runTriggerType host type .noCliArgs app aot w
  else if type = commandTriggerType then runTriggerType host type (.command ctx.args) app aot w
  else if type = mqttTriggerType then runTriggerType host type (.mqtt false) app aot w
  else panicking "internal error: entered unreachable code"

def setUpTriggers (host : TriggerHost Addr) (ctx : RuntimeContext) (app : App) (aot : Bool)
    (w : World) : List String → List String × List TriggerFuture →
    Outcome (List String × List TriggerFuture)
  | [], lists => return lists
  | type :: types, (triggerTypeMap, futuresList) => do
    let f ← setUpTrigger host ctx app aot w type
    setUpTriggers host ctx app aot w types (triggerTypeMap ++ [type], futuresList ++ [f])

def awaitTriggers (sched : Scheduler) (triggerTypeMap : List String)
    (futuresList : List TriggerFuture) : Outcome (String × TriggerFuture) := do
  let (result, index, _) ← selectAll sched futuresList
  match triggerTypeMap[index]? with
  | some triggerType => return (triggerType, result)
  | none => panicking "index out of bounds"

def runTrigger (H : Host Addr) (ctx : RuntimeContext) (triggerTypes : Finset String)
    (app : LockedApp) (src : Source) (w : World) : Outcome Unit := do
  let aot := aotEnabled ctx src
  let appId := (w.env.var "HOSTNAME").getD "unknown"
  let (triggerTypeMap, futuresList) ←
    setUpTriggers H.triggers ctx ⟨appId, app⟩ aot w (H.hash.order triggerTypes) ([], [])
  let (_, result) ← awaitTriggers H.scheduler triggerTypeMap futuresList
  ofResult result

def loadApp (P : Platform) (ctx : RuntimeContext) (w : World) :
    Outcome (Source × LockedApp × World) := do
  let (cache, w) ← initializeCache P w
  let (src, w) ← fromCtx P ctx cache w
  let (app, w) ← toLockedApp P src cache w
  return (src, app, w)

def execApp (H : Host Addr) (ctx : RuntimeContext) (src : Source) (app : LockedApp) (w : World) :
    Outcome Unit := do
  let app ← retainFromEnv H.spinApp app w.env
  let env ← configureApplicationVariablesFromEnvironmentVariables app w.env
  let triggerCmds ← (getSupportedTriggers app).context
    [.text ("Couldn't find trigger executor for " ++ src.debug)]
  ofResult H.telemetryInit
  runTrigger H ctx triggerCmds app src { w with env }

def wasmExecAsync (H : Host Addr) (ctx : RuntimeContext) (w : World) : Outcome Unit := do
  let (src, app, w) ← loadApp H.platform ctx w
  execApp H ctx src app w

/-- A run ends with status 0 when its triggers exit without error or a signal stops it. -/
def runWasi (H : Host Addr) (ctx : RuntimeContext) (aborted : Bool) (w : World) :
    Outcome Int := do
  let env ← importEnvs ctx.envs w.env
  ofResult H.setHandler
  if aborted then return 0
  else do
    wasmExecAsync H ctx { w with env }
    return 0

def compileLayer (wt : Wasmtime) (layer : WasmLayer) : Outcome (Option Bytes) :=
  match isWasmContent layer with
  | some wasmLayer =>
    if wasmLayer.precompiled then
      if (wt.detectPrecompiled wasmLayer.layer).isSome then return none
      else bail
        "Layer is marked as precompiled but does not appear to be a valid precompiled component"
    else do
      let component ← ofResult (wt.componentizeIfNecessary wasmLayer.layer)
      let precompiled ← ofResult (wt.precompileComponent component)
      return some precompiled
  | none => return none

def compile (wt : Wasmtime) (layers : List WasmLayer) : Outcome (List (Option Bytes)) :=
  layers.mapM (compileLayer wt)

end ShimSpin
