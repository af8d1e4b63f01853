import ShimSpin.AotTrust
import ShimSpin.CompleteImage
import ShimSpin.Precompile

namespace ShimSpin
open KeyedStore
set_option autoImplicit true

/-- Wasm, and what the precompile pass leaves in its place. -/
inductive Artifact (wt : Wasmtime) : Bytes → Bytes → Prop where
  | cached : (wt.detectPrecompiled b).isSome → Artifact wt b b
  | compiled : wt.componentizeIfNecessary b = .ok c → wt.precompileComponent c = .ok b' →
      Artifact wt b b'

/-- The files of the Wasm area become artifacts, and no other file changes. -/
structure ArtifactAt (wt : Wasmtime) (cache : Cache) (p : PathBuf) (b b' : Bytes) : Prop where
  wasm : (∃ d, p = cache.wasmPath d) → Artifact wt b b'
  other : (∀ d, p ≠ cache.wasmPath d) → b' = b

/-- The worlds of a plain and of a compiled image. -/
structure Alike (wt : Wasmtime) (cache : Cache) (w w' : World) : Prop where
  files : Store.Related (ArtifactAt wt cache) w.files w'.files
  env : w'.env = w.env
  cwd : w'.cwd = w.cwd

structure SameLayer (l l' : WasmLayer) : Prop where
  config : l'.config = l.config
  layer : isWasmContent l = none → l'.layer = l.layer

structure SameLookups (cache : Cache) (f f' : Files) : Prop where
  wasm : ∀ d, cache.wasmFile f' d = cache.wasmFile f d
  data : ∀ d, cache.dataFile f' d = cache.dataFile f d

structure SameApp (app app' : LockedApp) : Prop where
  metadata : app'.metadata = app.metadata
  appVariables : app'.appVariables = app.appVariables
  triggers : app'.triggers = app.triggers
  components : List.Forall₂ (fun c c' : LockedComponent =>
    c'.id = c.id ∧ c'.source = c.source ∧ c'.dependencies.entries = c.dependencies.entries)
    app.components app'.components

/-- All Wasm of an app is there, and with it what it is compiled to. -/
def ReadsArtifacts (P : Platform) (wt : Wasmtime) (cache : Cache) (app : LockedApp)
    (f f' : Files) : Prop :=
  ∀ r ∈ app.wasmRefs, ∃ p b b', r.source = some (P.loader.fileUrl p) ∧ f p = some b ∧
    f' p = some b' ∧ ArtifactAt wt cache p b b'

variable {P : Platform} {wt : Wasmtime} {oci : SpinOci} {cache : Cache} {l l' : WasmLayer}
  {layers layers' : List WasmLayer} {out : List (Option Bytes)} {w w' w₁ w₁' : World}
  {f f' : Files} {src : Source} {ctx ctx' : RuntimeContext} {app app' : LockedApp}
  {c c' c'' : LockedComponent} {r r' r'' : ContentRef} {url : PathBuf → String}

theorem CompilesTo.unchanged (h : CompilesTo wt l o) (hn : isWasmContent l = none) :
    withCompiled l o = l := by
  cases h with
  | other _ => rfl
  | cached _ _ _ => rfl
  | compiled hs _ _ _ =>
    rw [hn] at hs
    cases hs

theorem CompilesTo.sameLayer (h : CompilesTo wt l o) : SameLayer l (withCompiled l o) :=
  ⟨withCompiled_config l o, fun hn => congrArg WasmLayer.layer (h.unchanged hn)⟩

theorem SameLayer.symm (h : SameLayer l l') : SameLayer l' l := by
  apply SameLayer.mk h.config.symm
  intro hw
  have hn : isWasmContent l = none := by
    rw [← Option.not_isSome_iff_eq_none] at hw ⊢
    rw [isWasmContent_isSome] at hw ⊢
    rw [← h.config]
    exact hw
  exact (h.layer hn).symm

theorem SameLayer.kindOf (h : SameLayer l l') : kindOf oci l' = kindOf oci l := by
  rw [ShimSpin.kindOf, h.config]

theorem substitute_sameLayer (h : compile wt layers = .ok out) :
    List.Forall₂ SameLayer layers (substitute layers out) := by
  apply (substitute_forall₂ (compile_ok.1 h)).imp
  intro l l' ⟨o, hc, he⟩
  exact he ▸ hc.sameLayer

theorem isWasmContent_of_kind (hk : kindOf oci l = k) (hn : ¬ (k = .wasm ∨ k = .wkg)) :
    isWasmContent l = none := by
  rw [← Option.not_isSome_iff_eq_none, isWasmContent_iff_kind oci, hk]
  exact hn

theorem CompilesTo.artifact (h : CompilesTo wt l o) (hs : (isWasmContent l).isSome) :
    Artifact wt l.layer (withCompiled l o).layer := by
  cases h with
  | other hw =>
    rw [hw] at hs
    cases hs
  | cached _ _ hd => exact .cached hd
  | compiled _ _ hc hb => exact .compiled hc hb

/-- Whatever an image holds, its writes are those of the plain image, artifacts for Wasm. -/
theorem CompilesTo.layerWrites (h : CompilesTo wt l o) :
    List.Forall₂ (Op.Related (ArtifactAt wt cache)) (layerWrites oci cache l)
      (layerWrites oci cache (withCompiled l o)) := by
  have hk : kindOf oci (withCompiled l o) = kindOf oci l := h.sameLayer.kindOf
  have hwasm (hw : kindOf oci l = .wasm ∨ kindOf oci l = .wkg) :
      ArtifactAt wt cache (cache.wasmPath l.config.digest) l.layer (withCompiled l o).layer :=
    ⟨fun _ => h.artifact ((isWasmContent_iff_kind oci).2 hw), fun hn => (hn _ rfl).elim⟩
  have hother {p : PathBuf} (hp : ∀ d, p ≠ cache.wasmPath d) (b : Bytes) :
      ArtifactAt wt cache p b b := ⟨fun h => (h.elim hp).elim, fun _ => rfl⟩
  have hdata (d : Digest) (b : Bytes) : ArtifactAt wt cache (cache.dataPath d) b b :=
    hother (fun d' he => cache.wasmPath_ne_dataPath d' d he.symm) b
  cases hkind : kindOf oci l with
  | application =>
    rw [h.unchanged (isWasmContent_of_kind hkind (by decide))]
    simp only [ShimSpin.layerWrites, hkind]
    exact .cons (.put (hother (fun d he => cache.wasmPath_ne_spinJson d he.symm) _)) .nil
  | wasm =>
    simp only [ShimSpin.layerWrites, hk, hkind, withCompiled_config]
    exact .cons (.put (hwasm (.inl hkind))) .nil
  | wkg =>
    simp only [ShimSpin.layerWrites, hk, hkind, withCompiled_config]
    exact .cons (.put (hwasm (.inr hkind))) .nil
  | data =>
    rw [h.unchanged (isWasmContent_of_kind hkind (by decide))]
    simp only [ShimSpin.layerWrites, hkind]
    exact .cons (.put (hdata _ _)) .nil
  | archive =>
    rw [h.unchanged (isWasmContent_of_kind hkind (by decide))]
    simp only [ShimSpin.layerWrites, hkind]
    apply List.Forall₂.cons (.put (hdata _ _))
    rw [List.forall₂_map_left_iff, List.forall₂_map_right_iff, List.forall₂_same]
    exact fun b _ => .fill (hdata _ b)
  | unknown =>
    simp only [ShimSpin.layerWrites, hk, hkind]
    exact .nil

theorem afterLayers_alike (hc : compile wt layers = .ok out) (hw : Alike wt cache w w') :
    Alike wt cache (afterLayers P cache layers w)
      (afterLayers P cache (substitute layers out) w') := by
  have hsub := substitute_forall₂ (compile_ok.1 hc)
  apply Alike.mk
  · rw [afterLayers_files, afterLayers_files]
    apply run_related (List.rel_flatMap hsub _) hw.files
    intro l l' ⟨o, ho, he⟩
    exact he ▸ ho.layerWrites
  · have harchive : (∃ l ∈ substitute layers out, kindOf P.oci l = .archive) ↔
        ∃ l ∈ layers, kindOf P.oci l = .archive := by
      apply Iff.intro
      · intro ⟨l', hl', hk⟩
        obtain ⟨l, hl, hs⟩ := forall₂_mem_right (substitute_sameLayer hc) hl'
        exact ⟨l, hl, hs.kindOf ▸ hk⟩
      · intro ⟨l, hl, hk⟩
        obtain ⟨l', hl', hs⟩ := forall₂_mem_left (substitute_sameLayer hc) hl
        exact ⟨l', hl', hs.kindOf.trans hk⟩
    have henv : archiveEnv w' = archiveEnv w := by
      have hdir : currentDir w' = currentDir w := by rw [currentDir, currentDir, hw.cwd]
      simp only [archiveEnv, hw.env, hdir]
    simp only [afterLayers_env, harchive, henv, hw.env]
  · rw [afterLayers_cwd, afterLayers_cwd, hw.cwd]

/-- Whether an image is loaded depends on neither its Wasm nor the files there are. -/
theorem fromCtx_sameLayers (hr : Reliable P cache) (hu : UnpackByBytes P cache)
    (hs : ctx.source = .oci layers) (hs' : ctx'.source = .oci layers')
    (hl : List.Forall₂ SameLayer layers layers') (h : fromCtx P ctx cache w = .ok (src, w₁))
    (w' : World) : fromCtx P ctx' cache w' = .ok (src, afterLayers P cache layers' w') := by
  obtain ⟨_, ⟨hsrc, hw⟩ | ⟨l, hone, hk, hsrc⟩⟩ := fromCtx_ok hs h
  · subst hsrc
    simp only [fromCtx, hs, hs'] at h ⊢
    apply loadLayers_of_reliable hr
    · intro l' hm'
      obtain ⟨l, hm, hsame⟩ := forall₂_mem_right hl hm'
      rw [hsame.kindOf]
      exact hw l hm
    · intro l' hm' hk
      obtain ⟨l, hm, hsame⟩ := forall₂_mem_right hl hm'
      rw [hsame.kindOf] at hk
      have hb := hsame.layer (isWasmContent_of_kind hk (by decide))
      rw [Unpacks, hb, hsame.config]
      exact loadLayers_unpacks hu h hm hk
  · rw [hone, List.forall₂_cons_left_iff] at hl
    obtain ⟨l', rest, hsame, hrest, rfl⟩ := hl
    rw [List.forall₂_nil_left_iff.1 hrest] at hs' ⊢
    rw [← hsame.kindOf] at hk
    simp only [fromCtx, hs', List.length_singleton, loadLayers, loadLayer_wkg_of_reliable hr hk,
      hsrc, hsame.config]
    rfl

theorem Alike.isSome (h : Alike wt cache w w') (p : PathBuf) :
    (w'.files p).isSome = (w.files p).isSome := by
  have hp := h.files p
  generalize w.files p = x, w'.files p = x' at hp ⊢
  cases hp with
  | some _ => rfl
  | none => rfl

theorem Alike.read (h : Alike wt cache w w') (hp : (w.files p).isSome) :
    ∃ b b', w.files p = some b ∧ w'.files p = some b' ∧ ArtifactAt wt cache p b b' := by
  have hrel := h.files p
  generalize w.files p = x, w'.files p = x' at hp hrel ⊢
  cases hrel with
  | some hb => exact ⟨_, _, rfl, rfl, hb⟩
  | none => cases hp

theorem Alike.lookups (h : Alike wt cache w w') : SameLookups cache w.files w'.files := by
  apply SameLookups.mk
  · intro d
    rw [Cache.wasmFile, Cache.wasmFile, h.isSome, h.isSome]
  · intro d
    rw [Cache.dataFile, Cache.dataFile, h.isSome]

theorem Alike.spinJson (h : Alike wt cache w w') :
    w'.files ShimSpin.spinJson = w.files ShimSpin.spinJson := by
  have hp := h.files ShimSpin.spinJson
  generalize w.files ShimSpin.spinJson = x, w'.files ShimSpin.spinJson = x' at hp ⊢
  cases hp with
  | some hb => rw [hb.other fun d he => cache.wasmPath_ne_spinJson d he.symm]
  | none => rfl

theorem SameLookups.symm (h : SameLookups cache f f') : SameLookups cache f' f :=
  ⟨fun d => (h.wasm d).symm, fun d => (h.data d).symm⟩

theorem SameLookups.resolvable (h : SameLookups cache f f') (hr : Resolvable cache f c) :
    Resolvable cache f' c := by
  apply Resolvable.mk
  · intro r hm
    obtain ⟨d, hd, hs⟩ := hr.wasm r hm
    exact ⟨d, hd, (h.wasm d).symm ▸ hs⟩
  · intro file hm hi
    obtain ⟨d, hd, hs⟩ := hr.files file hm hi
    exact ⟨d, hd, (h.data d).symm ▸ hs⟩

theorem SameLookups.resolvedRef (h : SameLookups cache f f') (hr : ResolvedRef url cache f r r')
    (hr' : ResolvedRef url cache f' r r'') : r'' = r' := by
  obtain ⟨d, p, hd, hp, he⟩ := hr.found
  obtain ⟨d', p', hd', hp', he'⟩ := hr'.found
  rw [hd, Option.some.injEq] at hd'
  rw [h.wasm, ← hd', hp, Option.some.injEq] at hp'
  rw [he, he', hp']

theorem SameLookups.resolvedComponent (h : SameLookups cache f f')
    (hr : ResolvedComponent url cache f c c') (hr' : ResolvedComponent url cache f' c c'') :
    c''.id = c'.id ∧ c''.source = c'.source ∧
      c''.dependencies.entries = c'.dependencies.entries := by
  apply And.intro (hr'.id.trans hr.id.symm)
  apply And.intro (h.resolvedRef hr.source hr'.source)
  have hdeps := hr.dependencies
  have hdeps' := hr'.dependencies
  rw [List.forall₂_iff_get] at hdeps hdeps'
  apply List.ext_get (hdeps'.1.symm.trans hdeps.1)
  intro i h₁ h₂
  have hi : i < c.dependencies.entries.length := hdeps.1.symm ▸ h₂
  obtain ⟨hk, hres⟩ := hdeps.2 i hi h₂
  obtain ⟨hk', hres'⟩ := hdeps'.2 i hi h₁
  exact Prod.ext (hk'.trans hk.symm) (h.resolvedRef hres hres')

theorem toLockedApp_alike (hl : Loads P cache) (hf : w'.files spinJson = w.files spinJson)
    (hs : SameLookups cache w.files w'.files)
    (h : toLockedApp P .ociSpin cache w = .ok (app, w₁)) :
    ∃ app' w₁', toLockedApp P .ociSpin cache w' = .ok (app', w₁') := by
  obtain ⟨decoded, hspin⟩ := toLockedApp_ociSpin h
  obtain ⟨content, hcontent, hdecode⟩ := hspin.decoded
  apply toLockedApp_of_resolvable hl (hf.trans hcontent) hdecode
  intro c hc
  obtain ⟨c', _, hres⟩ := forall₂_mem_left hspin.components hc
  exact hs.resolvable hres.lookups

theorem toLockedApp_sameApp (hw : Alike wt cache w w')
    (h : toLockedApp P .ociSpin cache w = .ok (app, w₁))
    (h' : toLockedApp P .ociSpin cache w' = .ok (app', w₁')) :
    SameApp app app' ∧ ReadsArtifacts P wt cache app w₁.files w₁'.files := by
  obtain ⟨decoded, hspin⟩ := toLockedApp_ociSpin h
  obtain ⟨decoded', hspin'⟩ := toLockedApp_ociSpin h'
  obtain ⟨content, hcontent, hdecode⟩ := hspin.decoded
  obtain ⟨content', hcontent', hdecode'⟩ := hspin'.decoded
  rw [hw.spinJson, hcontent, Option.some.injEq] at hcontent'
  rw [← hcontent', hdecode, Except.ok.injEq] at hdecode'
  subst hdecode'
  apply And.intro
  · have hres := hspin.components
    have hres' := hspin'.components
    rw [List.forall₂_iff_get] at hres hres'
    rw [hspin.result, hspin'.result]
    refine ⟨rfl, rfl, rfl, List.forall₂_iff_get.2 ⟨hres.1.symm.trans hres'.1, ?_⟩⟩
    intro i h₁ h₂
    have hi : i < decoded.components.length := hres.1.symm ▸ h₁
    exact hw.lookups.resolvedComponent (hres.2 i hi h₁) (hres'.2 i hi h₂)
  · intro r hr
    obtain ⟨r₀, _, hres⟩ := forall₂_mem_right hspin.wasmRefs hr
    obtain ⟨d, p, _, hp, he⟩ := hres.found
    obtain ⟨hpath, hsome⟩ := wasmFile_eq_some hp
    have hsame : w₁.files p = w.files p ∧ w₁'.files p = w'.files p := by
      rcases hpath with rfl | rfl
      · exact ⟨hspin.cache.wasm d, hspin'.cache.wasm d⟩
      · exact ⟨hspin.cache.data d, hspin'.cache.data d⟩
    obtain ⟨b, b', hb, hb', hrel⟩ := hw.read hsome
    exact ⟨p, b, b', by rw [he], hsame.1.trans hb, hsame.2.trans hb', hrel⟩

theorem Alike.withCache (h : Alike wt cache w w') :
    Alike wt cache (withCache w) (withCache w') := by
  have henv : (ShimSpin.withCache w').env = (ShimSpin.withCache w).env := by
    simp only [ShimSpin.withCache, h.env]
  exact ⟨h.files, henv, h.cwd⟩

/-- An image and what the precompile pass makes of it are stored alike, a package as well as a Spin
application, and loaded alike: both or neither, from the same environment, as apps that differ in
no setting and in no reference. Where the one reads Wasm from the cache, the other reads its
artifact. -/
theorem compiled_image_alike (hr : Reliable P cache) (hl : Loads P cache)
    (hu : UnpackByBytes P cache) (hnew : P.newCache cacheDir = .ok cache)
    (hs : ctx.source = .oci layers) (hs' : ctx'.source = .oci (substitute layers out))
    (hc : compile wt layers = .ok out) (hw : Alike wt cache w w') :
    (∀ src, (∃ w₁, fromCtx P ctx cache (withCache w) = .ok (src, w₁)) ↔
      ∃ w₁', fromCtx P ctx' cache (withCache w') = .ok (src, w₁')) ∧
    (∀ src w₁ w₁', fromCtx P ctx cache (withCache w) = .ok (src, w₁) →
      fromCtx P ctx' cache (withCache w') = .ok (src, w₁') → Alike wt cache w₁ w₁') ∧
    ((∃ app w₁, loadApp P ctx w = .ok (.ociSpin, app, w₁)) ↔
      ∃ app' w₁', loadApp P ctx' w' = .ok (.ociSpin, app', w₁')) ∧
    ∀ app w₁ app' w₁', loadApp P ctx w = .ok (.ociSpin, app, w₁) →
      loadApp P ctx' w' = .ok (.ociSpin, app', w₁') →
      SameApp app app' ∧ ReadsArtifacts P wt cache app w₁.files w₁'.files ∧ w₁'.env = w₁.env := by
  have hlike : Alike wt cache (afterLayers P cache layers (withCache w))
      (afterLayers P cache (substitute layers out) (withCache w')) :=
    afterLayers_alike hc hw.withCache
  have hsame := substitute_sameLayer hc
  have hback := (hsame.imp fun _ _ h => SameLayer.symm h).flip
  refine ⟨?_, ?_, ?_⟩
  · intro src
    apply Iff.intro
    · intro ⟨w₁, hctx⟩
      exact ⟨_, fromCtx_sameLayers hr hu hs hs' hsame hctx _⟩
    · intro ⟨w₁', hctx⟩
      exact ⟨_, fromCtx_sameLayers hr hu hs' hs hback hctx _⟩
  · intro src w₁ w₁' hctx hctx'
    rw [(fromCtx_ok hs hctx).1, (fromCtx_ok hs' hctx').1]
    exact hlike
  simp only [loadApp_ok_iff hnew]
  apply And.intro
  · apply Iff.intro
    · intro ⟨app, w₂, w₁, hctx, happ⟩
      rw [(fromCtx_ok hs hctx).1] at happ
      obtain ⟨app', w₂', happ'⟩ := toLockedApp_alike hl hlike.spinJson hlike.lookups happ
      exact ⟨app', w₂', _, fromCtx_sameLayers hr hu hs hs' hsame hctx _, happ'⟩
    · intro ⟨app', w₂', w₁', hctx, happ⟩
      rw [(fromCtx_ok hs' hctx).1] at happ
      obtain ⟨app, w₂, happ'⟩ :=
        toLockedApp_alike hl hlike.spinJson.symm hlike.lookups.symm happ
      exact ⟨app, w₂, _, fromCtx_sameLayers hr hu hs' hs hback hctx _, happ'⟩
  · intro app w₂ app' w₂' ⟨w₁, hctx, happ⟩ ⟨w₁', hctx', happ'⟩
    rw [(fromCtx_ok hs hctx).1] at happ
    rw [(fromCtx_ok hs' hctx').1] at happ'
    obtain ⟨hsameApp, hreads⟩ := toLockedApp_sameApp hlike happ happ'
    refine ⟨hsameApp, hreads, ?_⟩
    rw [(toLockedApp_env happ).1, (toLockedApp_env happ').1, hlike.env]

def sampleArtifacts : List (Option Bytes) :=
  [none, none, some [127, 69, 76, 70, 0, 97, 115, 109], none,
    some [127, 69, 76, 70, 0, 97, 115, 110]]

theorem compiled_image_alike_sample : ∃ app w₁ app' w₁',
    loadApp (.inMemory sampleApp) (imageCtx sampleImage) (.bare .empty) = .ok (.ociSpin, app, w₁) ∧
    loadApp (.inMemory sampleApp) (imageCtx (substitute sampleImage sampleArtifacts))
      (.bare .empty) = .ok (.ociSpin, app', w₁') ∧
    SameApp app app' ∧
    ReadsArtifacts (.inMemory sampleApp) .inMemory .inMemory app w₁.files w₁'.files ∧
    w₁'.env = w₁.env := by
  have hs : (imageCtx sampleImage).source = .oci sampleImage := rfl
  have hs' : (imageCtx (substitute sampleImage sampleArtifacts)).source =
      .oci (substitute sampleImage sampleArtifacts) := rfl
  have hc : compile .inMemory sampleImage = .ok sampleArtifacts := rfl
  have hw : Alike .inMemory .inMemory (.bare .empty) (.bare .empty) := ⟨fun _ => .none, rfl, rfl⟩
  have hall := (compiled_image_alike (inMemory_reliable sampleApp) (inMemory_loads sampleApp)
    (fun _ _ _ _ _ _ => ⟨_, rfl⟩) rfl hs hs' hc hw).2.2.2
  exact ⟨_, _, _, _, rfl, rfl, hall _ _ _ _ rfl rfl⟩

end ShimSpin
