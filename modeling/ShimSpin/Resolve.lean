import ShimSpin.Classification

namespace ShimSpin
set_option autoImplicit true

structure SameCache (cache : Cache) (f f' : Files) : Prop where
  wasm : ∀ d, f' (cache.wasmPath d) = f (cache.wasmPath d)
  data : ∀ d, f' (cache.dataPath d) = f (cache.dataPath d)

/-- The loader mounts what it finds, and the system reads the files it has. -/
structure Loads (P : Platform) (cache : Cache) : Prop where
  read : ∀ {f p b}, f p = some b → P.fs.read f p = .ok b
  resolve : ∀ {f c}, Resolvable cache f c →
    ∃ r, P.loader.resolveComponentContentRefs cache f c = .ok r

variable {P : Platform} {cache : Cache} {f f' f'' : Files} {c c' : LockedComponent}
  {r r' : ContentRef} {url : PathBuf → String} {w w' : World} {d : Digest} {p : PathBuf}
  {src : Source} {app app' : LockedApp} {ctx : RuntimeContext}

theorem SameCache.refl : SameCache cache f f := ⟨fun _ => rfl, fun _ => rfl⟩

theorem SameCache.symm (h : SameCache cache f f') : SameCache cache f' f :=
  ⟨fun d => (h.wasm d).symm, fun d => (h.data d).symm⟩

theorem SameCache.trans (h : SameCache cache f f') (h' : SameCache cache f' f'') :
    SameCache cache f f'' :=
  ⟨fun d => (h'.wasm d).trans (h.wasm d), fun d => (h'.data d).trans (h.data d)⟩

theorem wasmFile_eq_some (h : cache.wasmFile f d = some p) :
    (p = cache.wasmPath d ∨ p = cache.dataPath d) ∧ (f p).isSome := by
  rw [Cache.wasmFile] at h
  by_cases hw : (f (cache.wasmPath d)).isSome
  · rw [if_pos hw, Option.some.injEq] at h
    exact ⟨.inl h.symm, h ▸ hw⟩
  · rw [if_neg hw] at h
    by_cases hd : (f (cache.dataPath d)).isSome
    · rw [if_pos hd, Option.some.injEq] at h
      exact ⟨.inr h.symm, h ▸ hd⟩
    · rw [if_neg hd] at h
      cases h

theorem SameCache.wasmFile (h : SameCache cache f f') :
    cache.wasmFile f' d = cache.wasmFile f d := by
  rw [Cache.wasmFile, Cache.wasmFile, h.wasm, h.data]

theorem SameCache.dataFile (h : SameCache cache f f') :
    cache.dataFile f' d = cache.dataFile f d := by
  rw [Cache.dataFile, Cache.dataFile, h.data]

theorem ResolvedRef.sameCache (hr : ResolvedRef url cache f r r') (h : SameCache cache f f') :
    ResolvedRef url cache f' r r' := by
  obtain ⟨d, p, hd, hp, he⟩ := hr.found
  exact ⟨d, p, hd, h.wasmFile.trans hp, he⟩

theorem Resolvable.sameCache (hr : Resolvable cache f c) (h : SameCache cache f f') :
    Resolvable cache f' c := by
  apply Resolvable.mk
  · intro r hm
    obtain ⟨d, hd, hs⟩ := hr.wasm r hm
    exact ⟨d, hd, h.wasmFile ▸ hs⟩
  · intro file hm hi
    obtain ⟨d, hd, hs⟩ := hr.files file hm hi
    exact ⟨d, hd, h.dataFile ▸ hs⟩

theorem ResolvedComponent.sameCache (hr : ResolvedComponent url cache f c c')
    (h : SameCache cache f f') : ResolvedComponent url cache f' c c' where
  lookups := hr.lookups.sameCache h
  id := hr.id
  source := hr.source.sameCache h
  dependencies := hr.dependencies.imp fun _ _ he => ⟨he.1, he.2.sameCache h⟩

theorem resolve_sameCache
    (h : P.loader.resolveComponentContentRefs cache f c = .ok (c', f')) : SameCache cache f f' :=
  ⟨P.loader.resolve_wasmPath h, P.loader.resolve_dataPath h⟩

/-- Every component is resolved against the cache as it was before the loop. -/
theorem resolveComponents_ok (h : resolveComponents P cache cs f = .ok (cs', f')) :
    SameCache cache f f' ∧ List.Forall₂ (ResolvedComponent P.loader.fileUrl cache f) cs cs' := by
  induction cs generalizing f cs' with
  | nil =>
    cases h
    exact ⟨.refl, .nil⟩
  | cons c rest ih =>
    obtain ⟨⟨c', f₁⟩, hc, h⟩ := bind_eq_ok.1 h
    obtain ⟨⟨rest', f₂⟩, hrest, h⟩ := bind_eq_ok.1 h
    cases h
    have hc := ofResult_eq_ok.1 (context_eq_ok.1 hc)
    have hs := resolve_sameCache hc
    obtain ⟨hs', hall⟩ := ih hrest
    have hall := hall.imp fun _ _ he => ResolvedComponent.sameCache he hs.symm
    exact ⟨hs.trans hs', .cons (P.loader.resolve_ok hc) hall⟩

theorem resolveComponents_of_resolvable (hl : Loads P cache)
    (h : ∀ c ∈ cs, Resolvable cache f c) : ∃ r, resolveComponents P cache cs f = .ok r := by
  induction cs generalizing f with
  | nil => exact ⟨_, rfl⟩
  | cons c rest ih =>
    rw [List.forall_mem_cons] at h
    obtain ⟨⟨c', f₁⟩, hc⟩ := hl.resolve h.1
    have hs := resolve_sameCache hc
    obtain ⟨⟨rest', f₂⟩, hrest⟩ := ih fun c hm => (h.2 c hm).sameCache hs
    simp only [resolveComponents, hc, ofResult, Outcome.context, ok_bind, hrest]
    exact ⟨_, rfl⟩

theorem resolveComponents_not_panics : ¬ (resolveComponents P cache cs f).Panics := by
  induction cs generalizing f with
  | nil => exact pure_not_panics _
  | cons c rest ih =>
    rw [resolveComponents, bind_panics, context_panics]
    intro h
    rcases h with h | ⟨⟨c', f₁⟩, hc, h⟩
    · exact ofResult_not_panics _ h
    · rcases bind_panics.1 h with h | ⟨⟨rest', f₂⟩, hrest, h⟩
      · exact ih h
      · exact pure_not_panics _ h

/-- What an image's locked app is made from. -/
structure SpinApplication (P : Platform) (cache : Cache) (w w' : World) (app app' : LockedApp) :
    Prop where
  decoded : ∃ content, w.files spinJson = some content ∧ P.fromJson content = .ok app
  result : app' = { app with components := app'.components }
  components : List.Forall₂ (ResolvedComponent P.loader.fileUrl cache w.files)
    app.components app'.components
  cache : SameCache cache w.files w'.files
  env : w'.env = w.env
  cwd : w'.cwd = w.cwd

theorem toLockedApp_ociSpin (h : toLockedApp P .ociSpin cache w = .ok (app', w')) :
    ∃ app, SpinApplication P cache w w' app app' := by
  obtain ⟨content, hread, h⟩ := bind_eq_ok.1 h
  obtain ⟨app, hdecode, h⟩ := bind_eq_ok.1 h
  obtain ⟨⟨components, f⟩, hresolve, h⟩ := bind_eq_ok.1 h
  cases h
  have hread := P.fs.read_ok (ofResult_eq_ok.1 (context_eq_ok.1 hread))
  have hdecode := ofResult_eq_ok.1 (context_eq_ok.1 hdecode)
  obtain ⟨hs, hall⟩ := resolveComponents_ok hresolve
  exact ⟨app, ⟨content, hread, hdecode⟩, rfl, hall, hs, rfl, rfl⟩

theorem toLockedApp_of_resolvable (hl : Loads P cache) (hf : w.files spinJson = some content)
    (hd : P.fromJson content = .ok app) (h : ∀ c ∈ app.components, Resolvable cache w.files c) :
    ∃ app' w', toLockedApp P .ociSpin cache w = .ok (app', w') := by
  obtain ⟨⟨components, f⟩, hr⟩ := resolveComponents_of_resolvable hl h
  simp only [toLockedApp, hl.read hf, hd, ofResult, Outcome.context, ok_bind, hr]
  exact ⟨_, _, rfl⟩

theorem toLockedApp_not_panics (src : Source) : ¬ (toLockedApp P src cache w).Panics := by
  cases src with
  | file path =>
    simp only [toLockedApp, bind_panics, ofResult_not_panics, pure_not_panics, and_false,
      exists_false, or_self, not_false_eq_true]
  | ociWkg path =>
    simp only [toLockedApp, bind_panics, context_panics, ofResult_not_panics, pure_not_panics,
      and_false, exists_false, or_self, not_false_eq_true]
  | ociSpin =>
    simp only [toLockedApp, bind_panics, context_panics, ofResult_not_panics,
      resolveComponents_not_panics, pure_not_panics, and_false, exists_false, or_self,
      not_false_eq_true]

theorem toLockedApp_env (h : toLockedApp P src cache w = .ok (app', w')) :
    w'.env = w.env ∧ w'.cwd = w.cwd := by
  cases src with
  | file path =>
    obtain ⟨app, _, h⟩ := bind_eq_ok.1 h
    cases h
    exact ⟨rfl, rfl⟩
  | ociWkg path =>
    obtain ⟨app, _, h⟩ := bind_eq_ok.1 h
    cases h
    exact ⟨rfl, rfl⟩
  | ociSpin =>
    obtain ⟨app, hspin⟩ := toLockedApp_ociSpin h
    exact ⟨hspin.env, hspin.cwd⟩

theorem loadApp_not_panics (ctx : RuntimeContext) : ¬ (loadApp P ctx w).Panics := by
  rw [loadApp, bind_panics]
  intro h
  rcases h with h | ⟨⟨cache, w₁⟩, _, h⟩
  · exact initializeCache_not_panics P w h
  rcases bind_panics.1 h with h | ⟨⟨src, w₂⟩, _, h⟩
  · exact fromCtx_not_panics ctx h
  rcases bind_panics.1 h with h | ⟨⟨app, w₃⟩, _, h⟩
  · exact toLockedApp_not_panics src h
  · exact pure_not_panics _ h

/-- Loading an app sets two variables at most. -/
theorem loadApp_env (h : loadApp P ctx w = .ok (src, app, w')) (n : OsString) :
    w'.env.get n =
      if n = tmpdir ∧ hasArchive P.oci ctx = true ∧ w.env.var tmpdir = none then
        some (currentDir w)
      else if n = xdgCacheHome then some (.utf8 cacheDir) else w.env.get n := by
  obtain ⟨⟨cache, w₁⟩, hinit, h⟩ := bind_eq_ok.1 h
  obtain ⟨⟨src, w₂⟩, hctx, h⟩ := bind_eq_ok.1 h
  obtain ⟨⟨app, w₃⟩, happ, h⟩ := bind_eq_ok.1 h
  cases h
  obtain ⟨_, hcwd, hget⟩ := initializeCache_ok hinit
  have htmp : w₁.env.var tmpdir = w.env.var tmpdir := by
    apply Env.var_congr
    rw [hget, if_neg (by decide)]
  have hdir : currentDir w₁ = currentDir w := by rw [currentDir, currentDir, hcwd]
  rw [(toLockedApp_env happ).1, (fromCtx_env hctx).1]
  by_cases ha : hasArchive P.oci ctx = true
  · rw [if_pos ha, archiveEnv_get, hget, hdir, htmp]
    simp only [ha, true_and]
  · rw [if_neg ha, hget]
    simp only [ha, Bool.false_eq_true, false_and, and_false, ↓reduceIte]

/-- The world in which the cache has been created. -/
def withCache (w : World) : World :=
  { w with env := w.env.set xdgCacheHome cacheDir xdgCacheHome_valid cacheDir_nulFree }

/-- What is left of loading an app once there is a cache. -/
def loadFrom (P : Platform) (ctx : RuntimeContext) (cache : Cache) (w : World) :
    Outcome (Source × LockedApp × World) := do
  let (src, w) ← fromCtx P ctx cache w
  let (app, w) ← toLockedApp P src cache w
  return (src, app, w)

theorem loadApp_eq (hnew : P.newCache cacheDir = .ok cache) :
    loadApp P ctx w = loadFrom P ctx cache (withCache w) := by
  have hinit : initializeCache P w = .ok (cache, withCache w) := by
    simp only [initializeCache, hnew, ofResult, Outcome.context, ok_bind,
      setVar_ok xdgCacheHome_valid cacheDir_nulFree]
    rfl
  simp only [loadApp, hinit, ok_bind, loadFrom]

theorem loadApp_ok_iff (hnew : P.newCache cacheDir = .ok cache) :
    loadApp P ctx w = .ok (src, app, w') ↔
      ∃ w₁, fromCtx P ctx cache (withCache w) = .ok (src, w₁) ∧
        toLockedApp P src cache w₁ = .ok (app, w') := by
  rw [loadApp_eq hnew, loadFrom]
  apply Iff.intro
  · intro h
    obtain ⟨⟨src', w₁⟩, hctx, h⟩ := bind_eq_ok.1 h
    obtain ⟨⟨app', w₂⟩, happ, h⟩ := bind_eq_ok.1 h
    cases h
    exact ⟨w₁, hctx, happ⟩
  · intro ⟨w₁, hctx, happ⟩
    simp only [hctx, happ, ok_bind]
    rfl

end ShimSpin
