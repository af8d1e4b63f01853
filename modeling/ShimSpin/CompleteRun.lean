import ShimSpin.Endings
import ShimSpin.SharedCache

namespace ShimSpin
set_option autoImplicit true

/-- The world in which a run that has loaded an app sets its triggers up. -/
inductive AtTriggers (P : Platform) (ctx : RuntimeContext) (w : World) (src : Source)
    (app : LockedApp) : World → Prop where
  | intro (himport : importEnvs ctx.envs w.env = .ok E₀)
      (hload : loadApp P ctx { w with env := E₀ } = .ok (src, app, w₁))
      (hconf : configureApplicationVariablesFromEnvironmentVariables app w₁.env = .ok E') :
      AtTriggers P ctx w src app { w₁ with env := E' }

variable {Addr : Type} {H : Host Addr} {P : Platform} {cache : Cache} {layers : List WasmLayer}
  {app : LockedApp} {src : Source} {w w' : World} {E : Env} {ctx : RuntimeContext}
  {keys : List String} {oci : SpinOci}

theorem ShimEnv.setting (h : ShimEnv oci ctx keys w E) (hn : name ∈ settingNames) :
    E.get name = imported ctx.envs w.env name :=
  h.other name (setting_ne hn).1 (setting_ne hn).2 fun _ _ => (prefixed_ne_setting hn _).symm

theorem AtTriggers.env (h : AtTriggers P ctx w src app w') :
    ShimEnv P.oci ctx app.appVariables.keys w w'.env := by
  obtain ⟨himport, hload, hconf⟩ := h
  exact (shimEnv himport hload).configured hconf

/-- A complete image of supported triggers is run to the end, with its own bytes and the settings
of the container. -/
theorem complete_image_runs (hr : Reliable H.platform cache) (hl : Loads H.platform cache)
    (hnew : H.platform.newCache cacheDir = .ok cache) (hset : H.setHandler = .ok ())
    (htelemetry : H.telemetryInit = .ok ()) (hs : ctx.source = .oci layers)
    (hi : CompleteImage H.platform cache layers app)
    (ha : Agreeing H.platform.oci cache layers w.files) (himport : ∀ v ∈ ctx.envs, Importable v)
    (hwhole : imported ctx.envs w.env spinComponentsToRetainEnv = none)
    (hsupported : ∀ t ∈ app.triggers, t.triggerType ∈ supportedTriggers)
    (hne : app.triggers ≠ []) :
    ∃ app' w' result, AtTriggers H.platform ctx w .ociSpin app' w' ∧
      LoadedApp H.platform cache layers w'.files app app' ∧
      ShimEnv H.platform.oci ctx app.appVariables.keys w w'.env ∧
      (∀ name ∈ settingNames, w'.env.get name = imported ctx.envs w.env name) ∧
      TriggersEnd H ctx app' .ociSpin w' result ∧
      runWasi H ctx false w = (do result; return 0) := by
  obtain ⟨E, hE⟩ := importEnvs_ok w.env fun v hv => importable_iff.1 (himport v hv)
  have hctx := hi.fromCtx_eq (w := withCache { w with env := E }) hr hs
  obtain ⟨app', w₁, happ, _, hloaded⟩ := hi.loads (w := withCache { w with env := E }) hl ha
  have hload : loadApp H.platform ctx { w with env := E } = .ok (.ociSpin, app', w₁) :=
    (loadApp_ok_iff hnew).2 ⟨_, hctx, happ⟩
  obtain ⟨E', hconf, _⟩ := configureVariables_ok app'.appVariables.keys w₁.env
  have hat : AtTriggers H.platform ctx w .ociSpin app' { w₁ with env := E' } :=
    .intro hE hload hconf
  have hnone : w₁.env.var spinComponentsToRetainEnv = none := by
    rw [loadApp_sameSettings hload _ List.mem_cons_self, Env.var, importEnvs_get hE, hwhole]
    rfl
  rw [← hloaded.triggers] at hsupported hne
  obtain ⟨types, htypes⟩ := getSupportedTriggers_total hsupported
  have hexec : execApp H ctx .ociSpin app' w₁ =
      runTrigger H ctx types app' .ociSpin { w₁ with env := E' } := by
    rw [execApp, retainFromEnv_absent hnone, ok_bind,
      configureApplicationVariablesFromEnvironmentVariables, hconf, ok_bind, htypes, htelemetry]
    rfl
  have henv := hloaded.appVariables ▸ hat.env
  refine ⟨app', _, _, hat, hloaded, henv, fun _ hn => henv.setting hn,
    runTrigger_ends htypes hne, ?_⟩
  simp only [runWasi, hE, hset, ofResult, ok_bind, Bool.false_eq_true, ↓reduceIte, wasmExecAsync,
    hload, hexec]

def servedApp : LockedApp :=
  { componentApp "sha256:w" with
    triggers := [⟨"trigger-hello", httpTriggerType, some "hello",
      "\x7b\"component\": \"hello\"\x7d"⟩] }

def servedJson : String :=
  "\x7b\"spin_lock_version\": 1, \"triggers\": [\x7b\"id\": \"trigger-hello\", " ++
  "\"trigger_type\": \"http\", \"trigger_config\": \x7b\"component\": \"hello\"\x7d\x7d], " ++
  "\"components\": [\x7b\"id\": \"hello\", \"source\": \x7b\"content_type\": " ++
  "\"application/wasm\", \"digest\": \"sha256:w\"\x7d\x7d]\x7d"

def servedImage : List WasmLayer :=
  [layerOf SpinOci.inMemory.spinApplicationMediaType servedJson.toUTF8.data.toList "sha256:app",
    layerOf ociLayerMediaTypeWasm [0, 97, 115, 109] "sha256:w"]

theorem servedImage_complete :
    CompleteImage (.inMemory servedApp) .inMemory servedImage servedApp where
  noWkg := by decide
  sameBytes l hl l' hl' _ hd := by
    have hn : (servedImage.map (·.config.digest)).Nodup := by decide
    rw [List.inj_on_of_nodup_map hn hl hl' hd]
  addressed := by decide
  unpacks l _ _ := inMemory_unpacks servedApp l
  application := ⟨_, rfl, rfl⟩
  wasmRefs := by decide
  fileRefs := by decide

theorem complete_image_runs_served : ∃ app' w' result,
    AtTriggers (.inMemory servedApp) (imageCtx servedImage) (.bare .empty) .ociSpin app' w' ∧
    LoadedApp (.inMemory servedApp) .inMemory servedImage w'.files servedApp app' ∧
    ShimEnv .inMemory (imageCtx servedImage) servedApp.appVariables.keys (.bare .empty) w'.env ∧
    (∀ name ∈ settingNames, w'.env.get name = imported [] .empty name) ∧
    TriggersEnd (.inMemory servedApp) (imageCtx servedImage) app' .ociSpin w' result ∧
    runWasi (.inMemory servedApp) (imageCtx servedImage) false (.bare .empty) =
      (do result; return 0) := by
  have hempty : Cache.inMemory.Empty (World.bare .empty).files := fun _ => ⟨rfl, rfl⟩
  have himport : ∀ v ∈ (imageCtx servedImage).envs, Importable v :=
    fun v hv => (List.not_mem_nil hv).elim
  have hsupported : ∀ t ∈ servedApp.triggers, t.triggerType ∈ supportedTriggers := by decide
  exact complete_image_runs (H := .inMemory servedApp) (inMemory_reliable servedApp)
    (inMemory_loads servedApp) rfl rfl rfl rfl servedImage_complete hempty.agreeing himport rfl
    hsupported (List.cons_ne_nil _ _)

end ShimSpin
