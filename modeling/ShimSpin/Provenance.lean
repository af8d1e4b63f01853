import ShimSpin.Resolve
import ShimSpin.Retention
import ShimSpin.Variables

namespace ShimSpin
open KeyedCopy
set_option autoImplicit true

def lastEntry (envs : List String) (name : String) : Option String :=
  (envs.reverse.find? fun v => (splitEnv v).1 = name).map fun v => (splitEnv v).2

/-- Where the application variables come from: the container's entries, where these do not define
a name the process, and where neither does, nowhere. -/
structure FromContainer (envs : List String) (keys : List String) (process before after : Env) :
    Prop where
  defined : ∀ k ∈ keys, ∀ v, lastEntry envs (toAsciiUppercase k) = some v →
    after.get (prefixed (toAsciiUppercase k)) = some (.utf8 v)
  inherited : ∀ k ∈ keys, lastEntry envs (toAsciiUppercase k) = none →
    ∀ v, process.get (toAsciiUppercase k) = some v →
    after.get (prefixed (toAsciiUppercase k)) =
      (v.toStr.map .utf8).or (before.get (prefixed (toAsciiUppercase k)))
  undefined : ∀ k ∈ keys, lastEntry envs (toAsciiUppercase k) = none →
    process.get (toAsciiUppercase k) = none →
    after.get (prefixed (toAsciiUppercase k)) = before.get (prefixed (toAsciiUppercase k))

/-- What a name is set to once the container's entries are imported. -/
def imported (envs : List String) (process : Env) (name : String) : Option OsString :=
  ((lastEntry envs name).map .utf8).or (process.get name)

/-- The values that the shim sets by itself do not show in the application variables. -/
structure ShimHidden (oci : SpinOci) (ctx : RuntimeContext) (keys : List String) (w : World) :
    Prop where
  cacheOverride : ∀ k ∈ keys, toAsciiUppercase k = xdgCacheHome →
    ∀ v, lastEntry ctx.envs xdgCacheHome = some v → v = cacheDir
  cacheExposed : ∀ k ∈ keys, toAsciiUppercase k = xdgCacheHome →
    lastEntry ctx.envs xdgCacheHome = none →
    ((w.env.var xdgCacheHome).map .utf8).or (imported ctx.envs w.env (prefixed xdgCacheHome)) =
      some (.utf8 cacheDir)
  tmpExposed : ∀ k ∈ keys, toAsciiUppercase k = tmpdir → hasArchive oci ctx = true →
    lastEntry ctx.envs tmpdir = none → w.env.var tmpdir = none →
    ∀ dir, currentDir w = .utf8 dir →
    imported ctx.envs w.env (prefixed tmpdir) = some (.utf8 dir)

variable {P : Platform} {spinApp : SpinApp} {ctx : RuntimeContext} {envs keys : List String}
  {src : Source} {app app' : LockedApp} {w w₁ : World} {E E₀ E' : Env} {name : String}

theorem lastEntry_cons (v : String) (envs : List String) (name : String) :
    lastEntry (v :: envs) name =
      (lastEntry envs name).or (if (splitEnv v).1 = name then some (splitEnv v).2 else none) := by
  rw [lastEntry, lastEntry, List.reverse_cons, List.find?_append, List.find?_singleton]
  cases envs.reverse.find? fun v => (splitEnv v).1 = name with
  | some v' => rfl
  | none =>
    by_cases h : (splitEnv v).1 = name
    · simp only [h, decide_true, ↓reduceIte, Option.none_or, Option.map_some, Option.map_none]
    · simp only [h, decide_false, Bool.false_eq_true, ↓reduceIte, Option.none_or, Option.map_none]

theorem importEnvs_get (h : importEnvs envs E = .ok E₀) (name : String) :
    E₀.get name = imported envs E name := by
  induction envs generalizing E with
  | nil =>
    cases h
    rfl
  | cons v envs ih =>
    obtain ⟨E₁, h₁, h⟩ := bind_eq_ok.1 h
    rw [ih h, imported, imported, lastEntry_cons, setVar_get h₁]
    cases lastEntry envs name with
    | some val => rfl
    | none =>
      by_cases hk : (splitEnv v).1 = name
      · rw [if_pos hk, if_pos (congrArg OsString.utf8 hk.symm)]
        rfl
      · have hne : OsString.utf8 name ≠ .utf8 (splitEnv v).1 :=
          fun he => hk (OsString.utf8.inj he).symm
        rw [if_neg hk, if_neg hne]
        rfl

theorem importEnvs_var (h : importEnvs envs E = .ok E₀) (name : String) :
    E₀.var name = (lastEntry envs name).or (E.var name) := by
  rw [Env.var, importEnvs_get h, imported]
  cases lastEntry envs name <;> rfl

/-- A variable has the value that its name has in the container or the process, or its own. -/
theorem fromContainer_iff {process before after : Env} :
    FromContainer envs keys process before after ↔ ∀ k ∈ keys,
      after.get (prefixed (toAsciiUppercase k)) =
        (((lastEntry envs (toAsciiUppercase k)).or (process.var (toAsciiUppercase k))).map .utf8).or
          (before.get (prefixed (toAsciiUppercase k))) := by
  apply Iff.intro
  · intro h k hk
    cases hlast : lastEntry envs (toAsciiUppercase k) with
    | some v => exact h.defined k hk v hlast
    | none =>
      rw [Option.none_or, Env.var]
      cases hproc : process.get (toAsciiUppercase k) with
      | some v => exact h.inherited k hk hlast v hproc
      | none => exact h.undefined k hk hlast hproc
  · intro h
    apply FromContainer.mk
    · intro k hk v hlast
      rw [h k hk, hlast]
      rfl
    · intro k hk hlast v hproc
      rw [h k hk, hlast, Env.var, hproc]
      rfl
    · intro k hk hlast hproc
      rw [h k hk, hlast, Env.var, hproc]
      rfl

theorem unrelayed_of_names (h : ∀ k ∈ keys, ∀ m, toAsciiUppercase k ≠ prefixed m) (E : Env) :
    Unrelayed keys E :=
  fun _ _ k hk he => (h k hk _ he).elim

theorem configured_get (hu : Unrelayed keys E) (hc : configureVariables keys E = .ok E')
    (hk : k ∈ keys) : E'.get (prefixed (toAsciiUppercase k)) =
      ((E.var (toAsciiUppercase k)).map OsString.utf8).or
        (E.get (prefixed (toAsciiUppercase k))) := by
  have hassign := hu.configure (.refl _) hc
  cases hv : E.var (toAsciiUppercase k) with
  | some v => exact (hassign _).1 k hk v rfl hv
  | none =>
    apply (hassign _).2
    intro j _ hj
    rw [← prefixed_injective (OsString.utf8.inj hj), hv]

/-- The environment that the container's entries give, but for the two directories of the shim
and the application variables with the keys. -/
structure ShimEnv (oci : SpinOci) (ctx : RuntimeContext) (keys : List String) (w : World)
    (E : Env) : Prop where
  cache : E.get xdgCacheHome = some (.utf8 cacheDir)
  tmp : hasArchive oci ctx = true → (lastEntry ctx.envs tmpdir).or (w.env.var tmpdir) = none →
    E.get tmpdir = some (currentDir w)
  tmpKept : ¬ (hasArchive oci ctx = true ∧
      (lastEntry ctx.envs tmpdir).or (w.env.var tmpdir) = none) →
    E.get tmpdir = imported ctx.envs w.env tmpdir
  other : ∀ name, name ≠ xdgCacheHome → name ≠ tmpdir →
    (∀ k ∈ keys, name ≠ prefixed (toAsciiUppercase k)) → E.get name = imported ctx.envs w.env name

theorem shimEnv (himport : importEnvs ctx.envs w.env = .ok E₀)
    (hload : loadApp P ctx { w with env := E₀ } = .ok (src, app, w₁)) :
    ShimEnv P.oci ctx [] w w₁.env := by
  have hget := importEnvs_get himport
  have hvar := importEnvs_var himport tmpdir
  have hne : OsString.utf8 xdgCacheHome ≠ tmpdir := by decide
  apply ShimEnv.mk
  · rw [loadApp_env hload, if_neg (fun hn => hne hn.1), if_pos rfl]
  · intro ha hn
    rw [loadApp_env hload, if_pos ⟨rfl, ha, hvar.trans hn⟩]
    rfl
  · intro hkept
    rw [← hvar] at hkept
    rw [loadApp_env hload, if_neg (fun hn => hkept hn.2), if_neg hne.symm]
    exact hget tmpdir
  · intro name hx ht _
    have hx' : OsString.utf8 name ≠ xdgCacheHome := fun he => hx (OsString.utf8.inj he)
    have ht' : OsString.utf8 name ≠ tmpdir := fun he => ht (OsString.utf8.inj he)
    rw [loadApp_env hload, if_neg (fun hn => ht' hn.1), if_neg hx']
    exact hget name

theorem prefixed_ne_xdgCacheHome (name : String) : prefixed name ≠ xdgCacheHome :=
  prefixed_ne_of_head (by decide)

theorem prefixed_ne_tmpdir (name : String) : prefixed name ≠ tmpdir :=
  prefixed_ne_of_head (by decide)

theorem ShimEnv.prefixed (h : ShimEnv oci ctx [] w E) (name : String) :
    E.get (prefixed name) = imported ctx.envs w.env (prefixed name) :=
  h.other _ (prefixed_ne_xdgCacheHome name) (prefixed_ne_tmpdir name)
    fun _ hm => (List.not_mem_nil hm).elim

theorem ShimEnv.configured (h : ShimEnv oci ctx [] w E) (hc : configureVariables keys E = .ok E') :
    ShimEnv oci ctx keys w E' := by
  have hkept {name : String} (hn : ∀ k ∈ keys, name ≠ ShimSpin.prefixed (toAsciiUppercase k)) :
      E'.get name = E.get name := by
    rw [configureVariables_get hc]
    exact run_of_ne fun k hk he => hn k hk (OsString.utf8.inj he).symm
  have hcache := hkept fun k _ => (prefixed_ne_xdgCacheHome (toAsciiUppercase k)).symm
  have htmp := hkept fun k _ => (prefixed_ne_tmpdir (toAsciiUppercase k)).symm
  apply ShimEnv.mk
  · rw [hcache]
    exact h.cache
  · rw [htmp]
    exact h.tmp
  · rw [htmp]
    exact h.tmpKept
  · intro name hx ht hn
    rw [hkept hn]
    exact h.other name hx ht fun _ hm => (List.not_mem_nil hm).elim

theorem var_of_get {o : OsString} (h : E.get name = some o) : E.var name = o.toStr := by
  rw [Env.var, h]
  rfl

theorem var_of_imported (h : E.get name = imported envs w.env name) :
    E.var name = (lastEntry envs name).or (w.env.var name) := by
  rw [Env.var, h, imported]
  cases lastEntry envs name <;> rfl

/-- Application variables come from the container alone exactly when none of them has the name
of a variable that the shim sets to something else. -/
theorem variables_from_container_iff (himport : importEnvs ctx.envs w.env = .ok E₀)
    (hload : loadApp P ctx { w with env := E₀ } = .ok (src, app, w₁))
    (hretain : retainFromEnv spinApp app w₁.env = .ok app')
    (hconf : configureApplicationVariablesFromEnvironmentVariables app' w₁.env = .ok E')
    (hnames : ∀ k ∈ app.appVariables.keys, ∀ m, toAsciiUppercase k ≠ prefixed m) :
    FromContainer ctx.envs app.appVariables.keys w.env w₁.env E' ↔
      ShimHidden P.oci ctx app.appVariables.keys w := by
  have henv := shimEnv himport hload
  rw [configureApplicationVariablesFromEnvironmentVariables,
    retainFromEnv_appVariables hretain] at hconf
  have hafter {k : String} := configured_get (k := k) (unrelayed_of_names hnames w₁.env) hconf
  have hcache : w₁.env.var xdgCacheHome = some cacheDir := var_of_get henv.cache
  rw [fromContainer_iff]
  apply Iff.intro
  · intro h
    apply ShimHidden.mk
    · intro k hk he v hlast
      have hown := h k hk
      rw [hafter hk, he, hcache, hlast] at hown
      exact (OsString.utf8.inj (Option.some.inj hown)).symm
    · intro k hk he hlast
      have hown := h k hk
      rw [hafter hk, he, hcache, hlast, Option.none_or, henv.prefixed] at hown
      exact hown.symm
    · intro k hk he ha hlast hproc dir hdir
      have hown := h k hk
      have htmp := var_of_get (henv.tmp ha (by rw [hlast, hproc]; rfl))
      rw [hafter hk, he, htmp, hdir, hlast, hproc, henv.prefixed] at hown
      exact hown.symm
  · intro h k hk
    rw [hafter hk]
    by_cases hx : toAsciiUppercase k = xdgCacheHome
    · rw [hx, hcache, henv.prefixed]
      cases hlast : lastEntry ctx.envs xdgCacheHome with
      | some v =>
        rw [h.cacheOverride k hk hx v hlast]
        rfl
      | none => exact (h.cacheExposed k hk hx hlast).symm
    by_cases ht : toAsciiUppercase k = tmpdir
    · rw [ht]
      by_cases hset : hasArchive P.oci ctx = true ∧
          (lastEntry ctx.envs tmpdir).or (w.env.var tmpdir) = none
      · obtain ⟨ha, hnone⟩ := hset
        obtain ⟨hlast, hproc⟩ := Option.or_eq_none_iff.1 hnone
        rw [var_of_get (henv.tmp ha hnone), hnone]
        cases hdir : currentDir w with
        | raw b hb => rfl
        | utf8 dir =>
          rw [henv.prefixed, h.tmpExposed k hk ht ha hlast hproc dir hdir]
          rfl
      · rw [var_of_imported (henv.tmpKept hset)]
    · rw [var_of_imported (henv.other _ hx ht fun _ hm => (List.not_mem_nil hm).elim)]

def cacheApp : LockedApp := ⟨.empty, ⟨[("xdg_cache_home", "")], by decide⟩, [], []⟩

def cacheCtx : RuntimeContext := ⟨[], ["XDG_CACHE_HOME=/data"], .file "/spin.toml"⟩

theorem cacheCtx_run : ∃ E₀ w₁ E', importEnvs cacheCtx.envs Env.empty = .ok E₀ ∧
    loadApp (.inMemory cacheApp) cacheCtx { World.bare .empty with env := E₀ } =
      .ok (.file spinManifestFilePath, cacheApp, w₁) ∧
    retainFromEnv .inMemory cacheApp w₁.env = .ok cacheApp ∧
    configureApplicationVariablesFromEnvironmentVariables cacheApp w₁.env = .ok E' ∧
    E'.get "SPIN_VARIABLE_XDG_CACHE_HOME" = some (.utf8 "/.cache") :=
  ⟨_, _, _, rfl, rfl, rfl, rfl, by decide⟩

theorem cacheApp_names : ∀ k ∈ cacheApp.appVariables.keys, ∀ m,
    toAsciiUppercase k ≠ prefixed m := by
  intro k hk m he
  rw [List.mem_singleton.1 hk] at he
  exact prefixed_ne_of_head (by decide) he.symm

theorem variables_from_container_iff_cacheCtx : ∃ (w₁ : World) (E' : Env),
    configureApplicationVariablesFromEnvironmentVariables cacheApp w₁.env = .ok E' ∧
    (FromContainer cacheCtx.envs cacheApp.appVariables.keys .empty w₁.env E' ↔
      ShimHidden SpinOci.inMemory cacheCtx cacheApp.appVariables.keys (.bare .empty)) := by
  obtain ⟨E₀, w₁, E', himport, hload, hretain, hconf, _⟩ := cacheCtx_run
  exact ⟨w₁, E', hconf, variables_from_container_iff (w := .bare .empty) himport hload hretain
    hconf cacheApp_names⟩

/-- The container's own value of a variable is lost to the directory of the cache. -/
theorem cache_dir_exposed : ∃ E₀ w₁ E', importEnvs cacheCtx.envs Env.empty = .ok E₀ ∧
    loadApp (.inMemory cacheApp) cacheCtx { World.bare .empty with env := E₀ } =
      .ok (.file spinManifestFilePath, cacheApp, w₁) ∧
    retainFromEnv .inMemory cacheApp w₁.env = .ok cacheApp ∧
    configureApplicationVariablesFromEnvironmentVariables cacheApp w₁.env = .ok E' ∧
    ¬ FromContainer cacheCtx.envs cacheApp.appVariables.keys .empty w₁.env E' := by
  obtain ⟨E₀, w₁, E', himport, hload, hretain, hconf, hget⟩ := cacheCtx_run
  refine ⟨E₀, w₁, E', himport, hload, hretain, hconf, ?_⟩
  intro h
  have hdata : E'.get "SPIN_VARIABLE_XDG_CACHE_HOME" = some (.utf8 "/data") :=
    h.defined "xdg_cache_home" (List.mem_singleton_self _) "/data" (by decide)
  rw [hget] at hdata
  exact absurd hdata (by decide)

end ShimSpin
