import ShimSpin.Panics

namespace ShimSpin
open KeyedCopy
set_option autoImplicit true

/-- What is read from the environment to set triggers up. -/
def triggerSettings : List String :=
  ["HOSTNAME", spinHttpListenAddrEnv, "SPIN_MAX_INSTANCE_MEMORY"]

/-- What is read from the environment once the app is loaded, app variables apart. -/
def settingNames : List String := spinComponentsToRetainEnv :: triggerSettings

def SameSettings (names : List String) (E E' : Env) : Prop :=
  ∀ name ∈ names, E'.var name = E.var name

/-- A run that keeps to the settings that the container comes with: whatever it writes to the
environment from then on is for the app alone. -/
def settledRun (H : Host Addr) (ctx : RuntimeContext) (w : World) : Outcome Int := do
  let settings ← importEnvs ctx.envs w.env
  ofResult H.setHandler
  let (src, app, w) ← loadApp H.platform ctx { w with env := settings }
  let app ← retainFromEnv H.spinApp app settings
  let triggerCmds ← (getSupportedTriggers app).context
    [.text ("Couldn't find trigger executor for " ++ src.debug)]
  ofResult H.telemetryInit
  runTrigger H ctx triggerCmds app src { w with env := settings }
  return 0

variable {Addr : Type} {host : TriggerHost Addr} {H : Host Addr} {P : Platform}
  {ctx : RuntimeContext} {app : App} {locked : LockedApp} {src : Source} {w w' : World}
  {E E' E'' : Env} {keys names : List String} {aot : Bool}

theorem SameSettings.trans (h : SameSettings names E E') (h' : SameSettings names E' E'') :
    SameSettings names E E'' :=
  fun name hn => (h' name hn).trans (h name hn)

theorem SameSettings.trigger (h : SameSettings settingNames E E') :
    SameSettings triggerSettings E E' :=
  fun name hn => h name (List.mem_cons_of_mem _ hn)

theorem SameSettings.retain (h : SameSettings settingNames E E') (spinApp : SpinApp)
    (app : LockedApp) :
    retainFromEnv spinApp app E' = retainFromEnv spinApp app E := by
  rw [retainFromEnv, retainFromEnv, h spinComponentsToRetainEnv (by decide)]

/-- Setting a trigger up reads nothing but settings and the presence of files. -/
theorem SameSettings.setUpTrigger (h : SameSettings triggerSettings w.env E) (type : String) :
    setUpTrigger host ctx app aot { w with env := E } type =
      setUpTrigger host ctx app aot w type := by
  have haddr := h spinHttpListenAddrEnv (by decide)
  have hmemory := h "SPIN_MAX_INSTANCE_MEMORY" (by decide)
  have hrun (cliArgs : CliArgs Addr) :
      runTriggerType host type cliArgs app aot { w with env := E } =
        runTriggerType host type cliArgs app aot w := by
    simp only [runTriggerType, hmemory]
  simp only [ShimSpin.setUpTrigger, haddr, hrun]

theorem SameSettings.setUpTriggers (h : SameSettings triggerSettings w.env E) (types : List String)
    (lists : List String × List TriggerFuture) :
    setUpTriggers host ctx app aot { w with env := E } types lists =
      setUpTriggers host ctx app aot w types lists := by
  induction types generalizing lists with
  | nil => rfl
  | cons type types ih => simp only [ShimSpin.setUpTriggers, h.setUpTrigger, ih]

theorem SameSettings.runTrigger (h : SameSettings triggerSettings w.env E) (types : Finset String)
    (app : LockedApp) (src : Source) : runTrigger H ctx types app src { w with env := E } =
      runTrigger H ctx types app src w := by
  simp only [ShimSpin.runTrigger, h "HOSTNAME" (by decide), h.setUpTriggers]

theorem setting_ne (hn : name ∈ settingNames) : name ≠ xdgCacheHome ∧ name ≠ tmpdir := by
  simp only [settingNames, triggerSettings, List.mem_cons, List.not_mem_nil, or_false] at hn
  rcases hn with rfl | rfl | rfl | rfl <;> decide

theorem loadApp_sameSettings (h : loadApp P ctx w = .ok (src, locked, w')) :
    SameSettings settingNames w.env w'.env := by
  intro name hn
  apply Env.var_congr
  obtain ⟨hx, ht⟩ := setting_ne hn
  rw [loadApp_env h, if_neg fun hc => ht (OsString.utf8.inj hc.1),
    if_neg fun he => hx (OsString.utf8.inj he)]

theorem prefixed_ne_setting (hn : name ∈ settingNames) (k : String) : prefixed k ≠ name := by
  have hlist : (prefixed k).toList =
      (spinApplicationVariablePrefix ++ "_").toList ++ k.toList := String.toList_append
  have hsixth : (prefixed k).toList[5]? = some 'V' := by
    rw [hlist, List.getElem?_append_left (by decide)]
    decide
  intro he
  rw [he] at hsixth
  simp only [settingNames, triggerSettings, List.mem_cons, List.not_mem_nil, or_false] at hn
  rcases hn with rfl | rfl | rfl | rfl <;> exact absurd hsixth (by decide)

theorem configureVariables_sameSettings (h : configureVariables keys E = .ok E') :
    SameSettings settingNames E E' := by
  intro name hn
  apply Env.var_congr
  rw [configureVariables_get h]
  apply run_of_ne
  intro k _ he
  exact prefixed_ne_setting hn _ (OsString.utf8.inj he)

/-- The app's triggers are run with the settings of the environment that loading it started in. -/
theorem execApp_settled (h : SameSettings settingNames E w.env) :
    execApp H ctx src locked w = (do
      let app ← retainFromEnv H.spinApp locked E
      let triggerCmds ← (getSupportedTriggers app).context
        [.text ("Couldn't find trigger executor for " ++ src.debug)]
      ofResult H.telemetryInit
      runTrigger H ctx triggerCmds app src { w with env := E }) := by
  rw [execApp, h.retain]
  cases retainFromEnv H.spinApp locked E with
  | error e => rfl
  | ok app =>
    obtain ⟨E', hE', _⟩ := configureVariables_ok app.appVariables.keys w.env
    have hsame : SameSettings triggerSettings E E' :=
      (h.trans (configureVariables_sameSettings hE')).trigger
    simp only [ok_bind, configureApplicationVariablesFromEnvironmentVariables, hE']
    have hrun (types : Finset String) : runTrigger H ctx types app src { w with env := E' } =
        runTrigger H ctx types app src { w with env := E } :=
      SameSettings.runTrigger (w := { w with env := E }) hsame types app src
    simp only [hrun]

/-- No image, no app variable and nothing that the shim sets by itself changes a setting of the
container: a run is one that has read its settings before anything is loaded. -/
theorem runWasi_settled (H : Host Addr) (ctx : RuntimeContext) (w : World) :
    runWasi H ctx false w = settledRun H ctx w := by
  rw [runWasi, settledRun]
  cases importEnvs ctx.envs w.env with
  | error e => rfl
  | ok settings =>
    simp only [ok_bind, Bool.false_eq_true, ↓reduceIte, wasmExecAsync, bind_assoc]
    cases hload : loadApp H.platform ctx { w with env := settings } with
    | error e => rfl
    | ok r =>
      obtain ⟨src, app, w₁⟩ := r
      have hsame : SameSettings settingNames settings w₁.env := loadApp_sameSettings hload
      simp only [ok_bind, execApp_settled hsame, bind_assoc]

end ShimSpin
