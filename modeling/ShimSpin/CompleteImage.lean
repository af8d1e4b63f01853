import ShimSpin.LayerOrder
import ShimSpin.Resolve

namespace ShimSpin
set_option autoImplicit true

/-- An image that holds everything an app needs. -/
structure CompleteImage (P : Platform) (cache : Cache) (layers : List WasmLayer)
    (app : LockedApp) : Prop where
  noWkg : ∀ l ∈ layers, kindOf P.oci l ≠ .wkg
  sameBytes : ∀ l ∈ layers, ∀ l' ∈ layers, kindOf P.oci l = kindOf P.oci l' →
    l.config.digest = l'.config.digest → l.layer = l'.layer
  addressed : ∀ l ∈ layers, kindOf P.oci l = .data ∨ kindOf P.oci l = .archive →
    P.oci.fileDigest l.layer = l.config.digest
  unpacks : ∀ l ∈ layers, kindOf P.oci l = .archive → Unpacks P cache l
  application : ∃ l, layers.filter (isApplication P.oci) = [l] ∧ P.fromJson l.layer = .ok app
  wasmRefs : ∀ r ∈ app.wasmRefs, ∃ l ∈ layers, kindOf P.oci l = .wasm ∧
    r.digest = some l.config.digest
  fileRefs : ∀ c ∈ app.components, ∀ file ∈ c.files, file.content.inline = none →
    ∃ b ∈ dataContents P.oci layers, file.content.digest = some (P.oci.fileDigest b)

/-- A reference that has become one to the cached bytes of a Wasm layer of its digest. -/
def LoadedRef (P : Platform) (cache : Cache) (layers : List WasmLayer) (f : Files)
    (r r' : ContentRef) : Prop :=
  ∃ l ∈ layers, kindOf P.oci l = .wasm ∧ r.digest = some l.config.digest ∧
    r' = ⟨some (P.loader.fileUrl (cache.wasmPath l.config.digest)), none, none⟩ ∧
    f (cache.wasmPath l.config.digest) = some l.layer

/-- The lookup of a digest finds a data layer, an archive or a file of an archive. -/
def FoundData (P : Platform) (cache : Cache) (layers : List WasmLayer) (f : Files)
    (digest : Option Digest) : Prop :=
  ∃ b ∈ dataContents P.oci layers, digest = some (P.oci.fileDigest b) ∧
    cache.dataFile f (P.oci.fileDigest b) = some (cache.dataPath (P.oci.fileDigest b)) ∧
    f (cache.dataPath (P.oci.fileDigest b)) = some b

/-- What is under a digest of the image in the data area is content of the image. -/
def Agreeing (oci : SpinOci) (cache : Cache) (layers : List WasmLayer) (before : Files) : Prop :=
  ∀ b ∈ dataContents oci layers, ∀ b', before (cache.dataPath (oci.fileDigest b)) = some b' →
    b' ∈ dataContents oci layers ∧ oci.fileDigest b' = oci.fileDigest b

structure LoadedComponent (P : Platform) (cache : Cache) (layers : List WasmLayer) (f : Files)
    (c c' : LockedComponent) : Prop where
  id : c'.id = c.id
  source : LoadedRef P cache layers f c.source c'.source
  dependencies : List.Forall₂ (fun e e' => e'.1 = e.1 ∧ LoadedRef P cache layers f e.2 e'.2)
    c.dependencies.entries c'.dependencies.entries
  files : ∀ file ∈ c.files, file.content.inline = none →
    FoundData P cache layers f file.content.digest

structure LoadedApp (P : Platform) (cache : Cache) (layers : List WasmLayer) (f : Files)
    (app app' : LockedApp) : Prop where
  metadata : app'.metadata = app.metadata
  appVariables : app'.appVariables = app.appVariables
  triggers : app'.triggers = app.triggers
  components : List.Forall₂ (LoadedComponent P cache layers f) app.components app'.components

variable {P : Platform} {cache : Cache} {layers : List WasmLayer} {app app' : LockedApp}
  {w : World} {f : Files} {l : WasmLayer} {r r' : ContentRef} {c c' : LockedComponent}
  {ctx : RuntimeContext}

theorem CompleteImage.wasm_stored (hi : CompleteImage P cache layers app)
    (hst : StoredImage P.oci cache layers before f) (hl : l ∈ layers)
    (hk : kindOf P.oci l = .wasm) : f (cache.wasmPath l.config.digest) = some l.layer := by
  have hp : isWasmOf P.oci l.config.digest l = true := by
    simp only [isWasmOf, hk, true_or, and_self, decide_true]
  obtain ⟨b, hb⟩ := lastLayer_of_mem hl hp
  obtain ⟨l', hl', hp', rfl⟩ := lastLayer_mem hb
  simp only [isWasmOf, decide_eq_true_eq] at hp'
  have hk' : kindOf P.oci l' = .wasm := hp'.1.resolve_right (hi.noWkg l' hl')
  have he := hi.sameBytes l hl l' hl' (hk.trans hk'.symm) hp'.2.symm
  rw [hst.wasm, hb, Option.some_or, he]

theorem memberOf_mem (h : memberOf oci d layers = some b) :
    b ∈ dataContents oci layers ∧ oci.fileDigest b = d := by
  have hd := List.find?_some h
  exact ⟨List.mem_append_right _ (List.mem_of_find?_eq_some h), of_decide_eq_true hd⟩

theorem Cache.Empty.agreeing (he : cache.Empty before) :
    Agreeing P.oci cache layers before := by
  intro b _ b' hb'
  rw [(he _).2] at hb'
  cases hb'

theorem CompleteImage.data_stored (hi : CompleteImage P cache layers app)
    (hst : StoredImage P.oci cache layers before f) (ha : Agreeing P.oci cache layers before)
    (hb : b ∈ dataContents P.oci layers) :
    ∃ b' ∈ dataContents P.oci layers, P.oci.fileDigest b' = P.oci.fileDigest b ∧
      f (cache.dataPath (P.oci.fileDigest b)) = some b' := by
  have hf := hst.data (P.oci.fileDigest b)
  cases hlast : lastLayer (isDataOf P.oci (P.oci.fileDigest b)) layers with
  | some b' =>
    rw [hlast, Option.some_or] at hf
    obtain ⟨l, hl, hp, rfl⟩ := lastLayer_mem hlast
    simp only [isDataOf, decide_eq_true_eq] at hp
    have hm : l.layer ∈ dataContents P.oci layers :=
      List.mem_append_left _ (List.mem_map_of_mem (List.mem_filter.2 ⟨hl, decide_eq_true hp.1⟩))
    exact ⟨l.layer, hm, (hi.addressed l hl hp.1).trans hp.2, hf⟩
  | none =>
    rw [hlast, Option.none_or] at hf
    cases hbefore : before (cache.dataPath (P.oci.fileDigest b)) with
    | some b' =>
      rw [hbefore, Option.some_or] at hf
      obtain ⟨hm, hd⟩ := ha b hb b' hbefore
      exact ⟨b', hm, hd, hf⟩
    | none =>
      rw [hbefore, Option.none_or] at hf
      rcases List.mem_append.1 hb with hb | hb
      · obtain ⟨l, hl, rfl⟩ := List.mem_map.1 hb
        obtain ⟨hl, hk⟩ := List.mem_filter.1 hl
        have hk := of_decide_eq_true hk
        have hp : isDataOf P.oci (P.oci.fileDigest l.layer) l = true :=
          decide_eq_true ⟨hk, (hi.addressed l hl hk).symm⟩
        obtain ⟨b', hb'⟩ := lastLayer_of_mem hl hp
        rw [hlast] at hb'
        cases hb'
      · have hs : (memberOf P.oci (P.oci.fileDigest b) layers).isSome :=
          List.find?_isSome.2 ⟨b, hb, decide_eq_true rfl⟩
        obtain ⟨b', hb'⟩ := Option.isSome_iff_exists.1 hs
        obtain ⟨hm, hd⟩ := memberOf_mem hb'
        exact ⟨b', hm, hd, hf.trans hb'⟩

theorem CompleteImage.foundData (hi : CompleteImage P cache layers app)
    (hst : StoredImage P.oci cache layers before f) (ha : Agreeing P.oci cache layers before)
    (hb : b ∈ dataContents P.oci layers) :
    FoundData P cache layers f (some (P.oci.fileDigest b)) := by
  obtain ⟨b', hm, hd, hf⟩ := hi.data_stored hst ha hb
  have hfile : cache.dataFile f (P.oci.fileDigest b) =
      some (cache.dataPath (P.oci.fileDigest b)) := by
    rw [Cache.dataFile, hf]
    rfl
  rw [← hd] at hfile hf
  exact ⟨b', hm, congrArg some hd.symm, hfile, hf⟩

theorem wasmFile_of_wasmPath {d : Digest} (h : f (cache.wasmPath d) = some b) :
    cache.wasmFile f d = some (cache.wasmPath d) := by
  rw [Cache.wasmFile, h]
  rfl

theorem CompleteImage.resolvable (hi : CompleteImage P cache layers app)
    (hst : StoredImage P.oci cache layers before f) (ha : Agreeing P.oci cache layers before)
    (hc : c ∈ app.components) : Resolvable cache f c := by
  apply Resolvable.mk
  · intro r hr
    have hm : r ∈ app.wasmRefs := List.mem_flatMap.2 ⟨c, hc, hr⟩
    obtain ⟨l, hl, hk, hd⟩ := hi.wasmRefs r hm
    have hw := wasmFile_of_wasmPath (hi.wasm_stored hst hl hk)
    exact ⟨l.config.digest, hd, Option.isSome_of_eq_some hw⟩
  · intro file hm hinline
    obtain ⟨b, hb, hd⟩ := hi.fileRefs c hc file hm hinline
    obtain ⟨b', hb', hd', hfile, hf⟩ := hi.foundData hst ha hb
    rw [← Option.some.inj hd'] at hfile
    exact ⟨P.oci.fileDigest b, hd, Option.isSome_of_eq_some hfile⟩

theorem CompleteImage.loadedRef (hi : CompleteImage P cache layers app)
    (hst : StoredImage P.oci cache layers before f) (hm : r ∈ app.wasmRefs)
    (hr : ResolvedRef P.loader.fileUrl cache f r r') : LoadedRef P cache layers f r r' := by
  obtain ⟨l, hl, hk, hd⟩ := hi.wasmRefs r hm
  have hw := hi.wasm_stored hst hl hk
  obtain ⟨d, p, hd', hp, he⟩ := hr.found
  have hdd : d = l.config.digest := Option.some.inj (hd'.symm.trans hd)
  rw [hdd, wasmFile_of_wasmPath hw] at hp
  cases hp
  exact ⟨l, hl, hk, hd, he, hw⟩

theorem CompleteImage.loadedComponent (hi : CompleteImage P cache layers app)
    (hst : StoredImage P.oci cache layers before f) (ha : Agreeing P.oci cache layers before)
    (hc : c ∈ app.components) (hr : ResolvedComponent P.loader.fileUrl cache f c c') :
    LoadedComponent P cache layers f c c' := by
  have hrefs {r : ContentRef} (h : r ∈ c.wasmRefs) : r ∈ app.wasmRefs :=
    List.mem_flatMap.2 ⟨c, hc, h⟩
  apply LoadedComponent.mk
  · exact hr.id
  · exact hi.loadedRef hst (hrefs List.mem_cons_self) hr.source
  · have hdeps := hr.dependencies
    rw [List.forall₂_iff_get] at hdeps ⊢
    apply And.intro hdeps.1
    intro i h₁ h₂
    obtain ⟨hk, hres⟩ := hdeps.2 i h₁ h₂
    apply And.intro hk
    apply hi.loadedRef hst (hrefs (List.mem_cons_of_mem _ _)) hres
    exact List.mem_map_of_mem (List.get_mem _ _)
  · intro file hm hinline
    obtain ⟨b, hb, hd⟩ := hi.fileRefs c hc file hm hinline
    rw [hd]
    exact hi.foundData hst ha hb

theorem LoadedComponent.sameCache (h : LoadedComponent P cache layers f c c')
    (hs : SameCache cache f f') : LoadedComponent P cache layers f' c c' := by
  have href {r r' : ContentRef} (h : LoadedRef P cache layers f r r') :
      LoadedRef P cache layers f' r r' := by
    obtain ⟨l, hl, hk, hd, he, hf⟩ := h
    exact ⟨l, hl, hk, hd, he, (hs.wasm _).trans hf⟩
  apply LoadedComponent.mk
  · exact h.id
  · exact href h.source
  · exact h.dependencies.imp fun _ _ he => ⟨he.1, href he.2⟩
  · intro file hm hinline
    obtain ⟨b, hb, hd, hfile, hf⟩ := h.files file hm hinline
    exact ⟨b, hb, hd, hs.dataFile.trans hfile, (hs.data _).trans hf⟩

theorem LoadedApp.sameCache (h : LoadedApp P cache layers f app app')
    (hs : SameCache cache f f') : LoadedApp P cache layers f' app app' :=
  ⟨h.metadata, h.appVariables, h.triggers, h.components.imp fun _ _ hc => hc.sameCache hs⟩

theorem CompleteImage.fromCtx_eq (hr : Reliable P cache) (hs : ctx.source = .oci layers)
    (hi : CompleteImage P cache layers app) :
    fromCtx P ctx cache w = .ok (.ociSpin, afterLayers P cache layers w) := by
  simp only [fromCtx, hs]
  exact loadLayers_of_reliable hr hi.noWkg hi.unpacks

/-- The app of a complete image is loaded with the bytes of the image, whatever else is cached. -/
theorem CompleteImage.loads (hl : Loads P cache) (hi : CompleteImage P cache layers app)
    (ha : Agreeing P.oci cache layers w.files) :
    ∃ app' w₂, toLockedApp P .ociSpin cache (afterLayers P cache layers w) = .ok (app', w₂) ∧
      LoadedApp P cache layers (afterLayers P cache layers w).files app app' ∧
      LoadedApp P cache layers w₂.files app app' := by
  have hst := afterLayers_stored P cache layers w
  obtain ⟨l, hfilter, hdecode⟩ := hi.application
  have hjson : (afterLayers P cache layers w).files spinJson = some l.layer := by
    rw [hst.spinJson, lastLayer_of_filter hfilter, Option.some_or]
  obtain ⟨app', w₂, happ⟩ := toLockedApp_of_resolvable hl hjson hdecode fun c hc =>
    hi.resolvable hst ha hc
  obtain ⟨decoded, hspin⟩ := toLockedApp_ociSpin happ
  obtain ⟨content, hcontent, hdecoded⟩ := hspin.decoded
  rw [hjson] at hcontent
  cases hcontent
  rw [hdecode] at hdecoded
  cases hdecoded
  have hcomponents : List.Forall₂ (LoadedComponent P cache layers
      (afterLayers P cache layers w).files) app.components app'.components := by
    have hres := hspin.components
    rw [List.forall₂_iff_get] at hres ⊢
    apply And.intro hres.1
    intro i h₁ h₂
    exact hi.loadedComponent hst ha (List.get_mem _ _) (hres.2 i h₁ h₂)
  have hloaded : LoadedApp P cache layers (afterLayers P cache layers w).files app app' := by
    rw [hspin.result]
    exact ⟨rfl, rfl, rfl, hcomponents⟩
  exact ⟨app', w₂, happ, hloaded, hloaded.sameCache hspin.cache⟩

/-- An app is loaded from a complete image as it is, with the bytes of the image's layers,
and the files it names are there when they are looked up. -/
theorem complete_image_loads (hr : Reliable P cache) (hl : Loads P cache)
    (hs : ctx.source = .oci layers) (hi : CompleteImage P cache layers app)
    (he : cache.Empty w.files) :
    ∃ w₁ app' w₂, fromCtx P ctx cache w = .ok (.ociSpin, w₁) ∧
      toLockedApp P .ociSpin cache w₁ = .ok (app', w₂) ∧
      LoadedApp P cache layers w₁.files app app' ∧ LoadedApp P cache layers w₂.files app app' := by
  obtain ⟨app', w₂, happ, hstored, hloaded⟩ := hi.loads hl he.agreeing
  exact ⟨_, app', w₂, hi.fromCtx_eq hr hs, happ, hstored, hloaded⟩

def sampleApp : LockedApp :=
  ⟨.empty, .empty, [], [⟨"hello", ⟨none, none, some "sha256:w"⟩,
    ⟨[("wasi:clocks", ⟨none, none, some "sha256:x"⟩)], List.pairwise_singleton _ _⟩,
    [⟨⟨none, none, some "sha256:A"⟩, "a.txt"⟩, ⟨⟨none, none, some "sha256:B"⟩, "b.txt"⟩]⟩]⟩

def sampleJson : String :=
  "\x7b\"spin_lock_version\": 1, \"triggers\": [], \"components\": [\x7b\"id\": \"hello\", " ++
  "\"source\": \x7b\"content_type\": \"application/wasm\", \"digest\": \"sha256:w\"\x7d, " ++
  "\"dependencies\": \x7b\"wasi:clocks\": " ++
  "\x7b\"source\": \x7b\"digest\": \"sha256:x\"\x7d\x7d\x7d, " ++
  "\"files\": [\x7b\"content\": \x7b\"digest\": \"sha256:A\"\x7d, \"path\": \"a.txt\"\x7d, " ++
  "\x7b\"content\": \x7b\"digest\": \"sha256:B\"\x7d, \"path\": \"b.txt\"\x7d]\x7d]\x7d"

/-- Of the two files in the archive, one is in a layer of its own, too. -/
def sampleImage : List WasmLayer :=
  [layerOf SpinOci.inMemory.dataMediatype [65] "sha256:A",
    layerOf SpinOci.inMemory.archiveMediatype [65, 0, 66] (byteDigest [65, 0, 66]),
    layerOf ociLayerMediaTypeWasm [0, 97, 115, 109] "sha256:w",
    layerOf SpinOci.inMemory.spinApplicationMediaType sampleJson.toUTF8.data.toList "sha256:app",
    layerOf ociLayerMediaTypeWasm [0, 97, 115, 110] "sha256:x"]

theorem sampleImage_complete :
    CompleteImage (.inMemory sampleApp) .inMemory sampleImage sampleApp where
  noWkg := by decide
  sameBytes l hl l' hl' _ hd := by
    have hn : (sampleImage.map (·.config.digest)).Nodup := by decide
    rw [List.inj_on_of_nodup_map hn hl hl' hd]
  addressed := by decide
  unpacks l _ _ := inMemory_unpacks sampleApp l
  application := ⟨_, rfl, rfl⟩
  wasmRefs := by decide
  fileRefs := by decide

theorem inMemory_loads (app : LockedApp) : Loads (.inMemory app) .inMemory where
  read {f p b} h := by
    simp only [Platform.inMemory, Fs.inMemory, h]
  resolve {f c} h := ⟨_, if_pos (resolvable_iff.2 h)⟩

theorem sampleImage_loads : ∃ w₁ app' w₂,
    fromCtx (.inMemory sampleApp) (imageCtx sampleImage) .inMemory (.bare .empty) =
      .ok (.ociSpin, w₁) ∧
    toLockedApp (.inMemory sampleApp) .ociSpin .inMemory w₁ = .ok (app', w₂) ∧
    LoadedApp (.inMemory sampleApp) .inMemory sampleImage w₁.files sampleApp app' ∧
    LoadedApp (.inMemory sampleApp) .inMemory sampleImage w₂.files sampleApp app' :=
  complete_image_loads (inMemory_reliable sampleApp) (inMemory_loads sampleApp) rfl
    sampleImage_complete (fun _ => ⟨rfl, rfl⟩)

end ShimSpin
