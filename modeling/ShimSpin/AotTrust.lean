import Mathlib.Data.List.Forall2
import ShimSpin.Resolve

namespace ShimSpin
set_option autoImplicit true

/-- What is read as the Wasm of an app and would be deserialized as native code comes from a
layer of the precompile cache. -/
def AotTrusted (P : Platform) (wt : Wasmtime) (layers : List WasmLayer) (app : LockedApp)
    (f : Files) : Prop :=
  ∀ r ∈ app.wasmRefs, ∀ p b, r.source = some (P.loader.fileUrl p) → f p = some b →
    (wt.detectPrecompiled b).isSome → ∃ l ∈ layers, l.precompiled = true ∧ l.layer = b

def dataBytes (oci : SpinOci) (layers : List WasmLayer) (d : Digest) : Option Bytes :=
  (lastLayer (isDataOf oci d) layers).or (memberOf oci d layers)

/-- What the lookup of Wasm finds under a digest, once an image is stored over what was there. -/
def foundBytes (oci : SpinOci) (cache : Cache) (layers : List WasmLayer) (before : Files)
    (d : Digest) : Option Bytes :=
  ((lastLayer (isWasmOf oci d) layers).or (before (cache.wasmPath d))).or
    ((lastLayer (isDataOf oci d) layers).or
      ((before (cache.dataPath d)).or (memberOf oci d layers)))

/-- Of the digests that an image's app gives for Wasm, those that no Wasm layer has are not
those of data that passes for a precompiled artifact. -/
def NoNativeData (P : Platform) (wt : Wasmtime) (layers : List WasmLayer) (before : Files) :
    Prop :=
  (∀ l ∈ layers, kindOf P.oci l ≠ .wkg) → ∀ content app,
    (lastLayer (isApplication P.oci) layers).or (before spinJson) = some content →
    P.fromJson content = .ok app → ∀ r ∈ app.wasmRefs, ∀ d b, r.digest = some d →
    (∀ l ∈ layers, isWasmOf P.oci d l = false) → dataBytes P.oci layers d = some b →
    (wt.detectPrecompiled b).isSome → ∃ l ∈ layers, l.precompiled = true ∧ l.layer = b

/-- Of the digests that an image's app gives for Wasm, those that no Wasm layer has do not lead to
bytes that pass for a precompiled artifact, neither in the image's data nor in what was cached. -/
def NoNativeLeftover (P : Platform) (wt : Wasmtime) (cache : Cache) (layers : List WasmLayer)
    (before : Files) : Prop :=
  (∀ l ∈ layers, kindOf P.oci l ≠ .wkg) → ∀ content app,
    (lastLayer (isApplication P.oci) layers).or (before spinJson) = some content →
    P.fromJson content = .ok app → ∀ r ∈ app.wasmRefs, ∀ d b, r.digest = some d →
    (∀ l ∈ layers, isWasmOf P.oci d l = false) → foundBytes P.oci cache layers before d = some b →
    (wt.detectPrecompiled b).isSome → ∃ l ∈ layers, l.precompiled = true ∧ l.layer = b

variable {P : Platform} {wt : Wasmtime} {cache : Cache} {layers : List WasmLayer} {d : Digest}
  {ctx : RuntimeContext} {src : Source} {app app' : LockedApp} {w w₁ w₂ : World} {f : Files}
  {l : WasmLayer} {c c' : LockedComponent} {url : PathBuf → String} {oci : SpinOci}
  {p : PathBuf} {b : Bytes} {before : Files}

theorem ResolvedComponent.wasmRefs (h : ResolvedComponent url cache f c c') :
    List.Forall₂ (ResolvedRef url cache f) c.wasmRefs c'.wasmRefs := by
  apply List.Forall₂.cons h.source
  apply List.rel_map _ h.dependencies
  exact fun e e' he => he.2

theorem SpinApplication.wasmRefs (h : SpinApplication P cache w₁ w₂ app app') :
    List.Forall₂ (ResolvedRef P.loader.fileUrl cache w₁.files) app.wasmRefs app'.wasmRefs :=
  List.rel_flatMap h.components fun _ _ hc => hc.wasmRefs

/-- Behind the gate every Wasm layer comes from the precompile cache. -/
theorem precompiled_of_gate (hs : ctx.source = .oci layers) (haot : aotEnabled ctx src = true)
    (hl : l ∈ layers) (hk : kindOf P.oci l = .wasm ∨ kindOf P.oci l = .wkg) :
    l.precompiled = true := by
  have hgate : layersFromPrecompileCache ctx = true := by
    cases src with
    | file path => cases haot
    | ociSpin => exact haot
    | ociWkg path => exact haot
  have hw : (isWasmContent l).isSome := (isWasmContent_iff_kind P.oci).2 hk
  exact ((layersFromPrecompileCache_oci hs).1 hgate).2 l hl hw

theorem isWasmOf_kind (h : isWasmOf oci d l = true) : kindOf oci l = .wasm ∨ kindOf oci l = .wkg :=
  (of_decide_eq_true h).1

theorem wasmFile_bytes (h : cache.wasmFile f d = some p) :
    f p = (f (cache.wasmPath d)).or (f (cache.dataPath d)) := by
  rw [Cache.wasmFile] at h
  cases hw : f (cache.wasmPath d) with
  | some b =>
    rw [hw, Option.isSome_some, if_pos rfl, Option.some.injEq] at h
    rw [← h, hw, Option.some_or]
  | none =>
    rw [hw, Option.isSome_none, if_neg Bool.false_ne_true] at h
    cases hd : f (cache.dataPath d) with
    | some b =>
      rw [hd, Option.isSome_some, if_pos rfl, Option.some.injEq] at h
      rw [← h, hd, Option.none_or]
    | none =>
      rw [hd, Option.isSome_none, if_neg Bool.false_ne_true] at h
      cases h

theorem StoredImage.found (hst : StoredImage oci cache layers before f) :
    (f (cache.wasmPath d)).or (f (cache.dataPath d)) = foundBytes oci cache layers before d := by
  rw [hst.wasm, hst.data, foundBytes]

theorem SpinApplication.readBack (h : SpinApplication P cache w₁ w₂ app app')
    (hp : cache.wasmFile w₁.files d = some p) : w₂.files p = w₁.files p := by
  rcases (wasmFile_eq_some hp).1 with rfl | rfl
  · exact h.cache.wasm d
  · exact h.cache.data d

theorem SpinApplication.trusts_found (hspin : SpinApplication P cache w₁ w₂ app app')
    (hst : StoredImage P.oci cache layers before w₁.files) :
    AotTrusted P wt layers app' w₂.files ↔ ∀ r ∈ app.wasmRefs, ∀ d b, r.digest = some d →
      foundBytes P.oci cache layers before d = some b → (wt.detectPrecompiled b).isSome →
      ∃ l ∈ layers, l.precompiled = true ∧ l.layer = b := by
  have hread {d : Digest} {q : PathBuf} (hq : cache.wasmFile w₁.files d = some q) :
      w₂.files q = foundBytes P.oci cache layers before d := by
    rw [hspin.readBack hq, wasmFile_bytes hq, hst.found]
  apply Iff.intro
  · intro htrust r hr d b hd hfound hb
    obtain ⟨r', hr', hres⟩ := forall₂_mem_left hspin.wasmRefs hr
    obtain ⟨d', p, hd', hp, rfl⟩ := hres.found
    rw [hd, Option.some.injEq] at hd'
    subst hd'
    exact htrust _ hr' p b rfl ((hread hp).trans hfound) hb
  · intro hall r' hr' p b hsource hf hb
    obtain ⟨r, hr, hres⟩ := forall₂_mem_right hspin.wasmRefs hr'
    obtain ⟨d, q, hd, hq, rfl⟩ := hres.found
    have hpq := P.loader.fileUrl_injective (Option.some.inj hsource)
    subst hpq
    exact hall r hr d b hd ((hread hq).symm.trans hf) hb

/-- The gate answers for all Wasm that comes from a Wasm layer. -/
theorem precompiled_of_own (hs : ctx.source = .oci layers) (haot : aotEnabled ctx src = true)
    (hl : l ∈ layers) (hp : isWasmOf P.oci d l = true)
    (hfound : foundBytes P.oci cache layers before d = some b) :
    ∃ l ∈ layers, l.precompiled = true ∧ l.layer = b := by
  obtain ⟨b', hb'⟩ := lastLayer_of_mem hl hp
  rw [foundBytes, hb', Option.some_or, Option.some_or, Option.some.injEq] at hfound
  obtain ⟨l', hl', hp', hlayer⟩ := lastLayer_mem hb'
  exact ⟨l', hl', precompiled_of_gate hs haot hl' (isWasmOf_kind hp'), hlayer.trans hfound⟩

theorem aotTrusted_wkg (hs : ctx.source = .oci layers)
    (hctx : fromCtx P ctx cache w = .ok (.ociWkg p, w₁))
    (happ : toLockedApp P (.ociWkg p) cache w₁ = .ok (app, w₂))
    (haot : aotEnabled ctx (.ociWkg p) = true) : AotTrusted P wt layers app w₂.files := by
  obtain ⟨hw₁, ⟨hsrc, _⟩ | ⟨l, hl, hk, hsrc⟩⟩ := fromCtx_ok hs hctx
  · cases hsrc
  cases hsrc
  obtain ⟨app', hload, he⟩ := bind_eq_ok.1 happ
  cases he
  have hload := ofResult_eq_ok.1 (context_eq_ok.1 hload)
  have hmem : l ∈ layers := hl ▸ List.mem_singleton_self l
  have hstored : w₁.files (cache.wasmPath l.config.digest) = some l.layer := by
    have hp : isWasmOf P.oci l.config.digest l = true := decide_eq_true ⟨.inr hk, rfl⟩
    rw [hw₁, hl, (afterLayers_stored P cache [l] w).wasm, lastLayer_of_filter (l := l),
      Option.some_or]
    simp only [List.filter_cons, hp, ↓reduceIte, List.filter_nil]
  intro r hr q b hq hf hb
  have hu := P.fromWasmFile_ok hload r hr
  rw [hu, Option.some.injEq] at hq
  have hpq := P.loader.fileUrl_injective hq
  rw [← hpq, hstored, Option.some.injEq] at hf
  exact ⟨l, hmem, precompiled_of_gate hs haot hmem (.inr hk), hf⟩

/-- Behind the gate, what an app can load that its image does not vouch for is found under digests
that no Wasm layer has. -/
theorem trusted_iff (hs : ctx.source = .oci layers)
    (hctx : fromCtx P ctx cache w = .ok (src, w₁))
    (happ : toLockedApp P src cache w₁ = .ok (app', w₂)) (haot : aotEnabled ctx src = true) :
    AotTrusted P wt layers app' w₂.files ↔ NoNativeLeftover P wt cache layers w.files := by
  obtain ⟨hw₁, ⟨hsrc, hnowkg⟩ | ⟨l, hl, hk, hsrc⟩⟩ := fromCtx_ok hs hctx
  · subst hsrc
    obtain ⟨app, hspin⟩ := toLockedApp_ociSpin happ
    obtain ⟨content, hcontent, hdecode⟩ := hspin.decoded
    have hst := afterLayers_stored P cache layers w
    rw [← hw₁] at hst
    rw [hst.spinJson] at hcontent
    rw [hspin.trusts_found hst]
    apply Iff.intro
    · intro hall _ content' decoded hcontent' hdecode' r hr d b hd _
      rw [hcontent, Option.some.injEq] at hcontent'
      subst hcontent'
      rw [hdecode, Except.ok.injEq] at hdecode'
      subst hdecode'
      exact hall r hr d b hd
    · intro hcond r hr d b hd hfound hb
      by_cases hown : ∃ l ∈ layers, isWasmOf P.oci d l = true
      · obtain ⟨l, hl, hp⟩ := hown
        exact precompiled_of_own hs haot hl hp hfound
      · have hnone : ∀ l ∈ layers, isWasmOf P.oci d l = false :=
          fun l hl => Bool.eq_false_iff.2 fun hp => hown ⟨l, hl, hp⟩
        exact hcond hnowkg content app hcontent hdecode r hr d b hd hnone hfound hb
  · subst hsrc
    have hmem : l ∈ layers := hl ▸ List.mem_singleton_self l
    apply iff_of_true (aotTrusted_wkg hs hctx happ haot)
    exact fun hnowkg => (hnowkg l hmem hk).elim

theorem foundBytes_of_empty (he : cache.Empty before)
    (hnone : ∀ l ∈ layers, isWasmOf oci d l = false) :
    foundBytes oci cache layers before d = dataBytes oci layers d := by
  have hlast : lastLayer (isWasmOf oci d) layers = none := by
    cases hlast : lastLayer (isWasmOf oci d) layers with
    | none => rfl
    | some b =>
      obtain ⟨l, hl, hp, _⟩ := lastLayer_mem hlast
      rw [hnone l hl] at hp
      cases hp
  simp only [foundBytes, hlast, he d, Option.none_or, dataBytes]

theorem noNativeLeftover_of_empty (he : cache.Empty before) :
    NoNativeLeftover P wt cache layers before ↔ NoNativeData P wt layers before := by
  apply Iff.intro
  · intro h hnowkg content app hcontent hdecode r hr d b hd hnone hdata
    rw [← foundBytes_of_empty he hnone] at hdata
    exact h hnowkg content app hcontent hdecode r hr d b hd hnone hdata
  · intro h hnowkg content app hcontent hdecode r hr d b hd hnone hfound
    rw [foundBytes_of_empty he hnone] at hfound
    exact h hnowkg content app hcontent hdecode r hr d b hd hnone hfound

/-- Exactly when data cannot take the place of Wasm does the gate keep all native code that
does not come from the precompile cache out. -/
theorem aotTrusted_iff (hs : ctx.source = .oci layers) (he : cache.Empty w.files)
    (hctx : fromCtx P ctx cache w = .ok (src, w₁))
    (happ : toLockedApp P src cache w₁ = .ok (app', w₂)) (haot : aotEnabled ctx src = true) :
    AotTrusted P wt layers app' w₂.files ↔ NoNativeData P wt layers w.files :=
  (trusted_iff hs hctx happ haot).trans (noNativeLeftover_of_empty he)

/-- Next to a layer from the precompile cache, a data layer that holds native code under the
digest that the app gives for its component. -/
def disguisedImage : List WasmLayer :=
  [layerOf SpinOci.inMemory.spinApplicationMediaType (componentJson "sha256:data") "sha256:app",
    ⟨[127, 69, 76, 70, 1], true, ⟨.other ociLayerMediaTypeWasm, "sha256:wasm"⟩⟩,
    layerOf SpinOci.inMemory.dataMediatype [127, 69, 76, 70, 2] "sha256:data"]

def disguisedWorld : World :=
  afterLayers (.inMemory (componentApp "sha256:data")) .inMemory disguisedImage (.bare .empty)

def nativeApp : LockedApp :=
  ⟨.empty, .empty, [],
    [⟨"hello", ⟨some (fileUrl "/.cache/registry/data/sha256:data"), none, none⟩, .empty, []⟩]⟩

theorem disguised_fromCtx : fromCtx (.inMemory (componentApp "sha256:data"))
    (imageCtx disguisedImage) .inMemory (.bare .empty) = .ok (.ociSpin, disguisedWorld) :=
  loadLayers_of_reliable (inMemory_reliable _) (by decide) (fun l _ _ => inMemory_unpacks _ l)

theorem disguised_toLockedApp : toLockedApp (.inMemory (componentApp "sha256:data")) .ociSpin
    .inMemory disguisedWorld = .ok (nativeApp, disguisedWorld) := rfl

theorem aotTrusted_iff_disguised :
    AotTrusted (.inMemory (componentApp "sha256:data")) .inMemory disguisedImage nativeApp
        disguisedWorld.files ↔
      NoNativeData (.inMemory (componentApp "sha256:data")) .inMemory disguisedImage
        (World.bare .empty).files :=
  aotTrusted_iff rfl (fun _ => ⟨rfl, rfl⟩) disguised_fromCtx disguised_toLockedApp (by decide)

theorem disguised_data_untrusted :
    fromCtx (.inMemory (componentApp "sha256:data")) (imageCtx disguisedImage) .inMemory
        (.bare .empty) = .ok (.ociSpin, disguisedWorld) ∧
      toLockedApp (.inMemory (componentApp "sha256:data")) .ociSpin .inMemory disguisedWorld =
        .ok (nativeApp, disguisedWorld) ∧
      aotEnabled (imageCtx disguisedImage) .ociSpin = true ∧
      ¬ AotTrusted (.inMemory (componentApp "sha256:data")) .inMemory disguisedImage nativeApp
        disguisedWorld.files := by
  apply And.intro disguised_fromCtx
  apply And.intro disguised_toLockedApp
  apply And.intro (by decide)
  intro h
  have hstored : disguisedWorld.files "/.cache/registry/data/sha256:data" =
      some [127, 69, 76, 70, 2] := by decide
  have hnative : ∃ l ∈ disguisedImage, l.precompiled = true ∧ l.layer = [127, 69, 76, 70, 2] :=
    h _ List.mem_cons_self "/.cache/registry/data/sha256:data" _ rfl hstored (by decide)
  obtain ⟨l, hl, hp, hb⟩ := hnative
  simp only [disguisedImage, List.mem_cons, List.not_mem_nil, or_false] at hl
  rcases hl with rfl | rfl | rfl
  · cases hp
  · cases hb
  · cases hp

/-- On a cache that others have used, the gate keeps all native code that does not come from the
image's own precompiled layers out exactly when nothing that is left there can take the place of
Wasm that the image lacks. -/
theorem cached_aotTrusted_iff (hs : ctx.source = .oci layers)
    (hctx : fromCtx P ctx cache w = .ok (src, w₁))
    (happ : toLockedApp P src cache w₁ = .ok (app', w₂)) (haot : aotEnabled ctx src = true) :
    AotTrusted P wt layers app' w₂.files ↔ NoNativeLeftover P wt cache layers w.files :=
  trusted_iff hs hctx happ haot

/-- The app of this image names Wasm that another image has left in the cache. -/
def borrowingImage : List WasmLayer :=
  [layerOf SpinOci.inMemory.spinApplicationMediaType (componentJson "sha256:old") "sha256:app",
    ⟨[127, 69, 76, 70, 1], true, ⟨.other ociLayerMediaTypeWasm, "sha256:wasm"⟩⟩]

/-- A start of that other image has stored native code that its own gate would not have loaded. -/
def leftoverWorld : World :=
  afterLayers (.inMemory (componentApp "sha256:old")) .inMemory
    [layerOf ociLayerMediaTypeWasm [127, 69, 76, 70, 2] "sha256:old"] (.bare .empty)

def borrowedWorld : World :=
  afterLayers (.inMemory (componentApp "sha256:old")) .inMemory borrowingImage leftoverWorld

def borrowedApp : LockedApp :=
  ⟨.empty, .empty, [],
    [⟨"hello", ⟨some (fileUrl "/.cache/registry/wasm/sha256:old"), none, none⟩, .empty, []⟩]⟩

theorem borrowed_fromCtx : fromCtx (.inMemory (componentApp "sha256:old"))
    (imageCtx borrowingImage) .inMemory leftoverWorld = .ok (.ociSpin, borrowedWorld) :=
  loadLayers_of_reliable (inMemory_reliable _) (by decide) (fun l _ _ => inMemory_unpacks _ l)

theorem borrowed_toLockedApp : toLockedApp (.inMemory (componentApp "sha256:old")) .ociSpin
    .inMemory borrowedWorld = .ok (borrowedApp, borrowedWorld) := rfl

theorem cached_aotTrusted_iff_borrowed :
    AotTrusted (.inMemory (componentApp "sha256:old")) .inMemory borrowingImage borrowedApp
        borrowedWorld.files ↔
      NoNativeLeftover (.inMemory (componentApp "sha256:old")) .inMemory .inMemory borrowingImage
        leftoverWorld.files :=
  cached_aotTrusted_iff rfl borrowed_fromCtx borrowed_toLockedApp (by decide)

end ShimSpin
