import ShimSpin.InMemory

namespace ShimSpin
open KeyedStore
set_option autoImplicit true

def lastLayer (p : WasmLayer → Bool) (layers : List WasmLayer) : Option Bytes :=
  (layers.reverse.find? p).map (·.layer)

def isApplication (oci : SpinOci) (l : WasmLayer) : Bool := kindOf oci l = .application

def isWasmOf (oci : SpinOci) (d : Digest) (l : WasmLayer) : Bool :=
  (kindOf oci l = .wasm ∨ kindOf oci l = .wkg) ∧ l.config.digest = d

def isDataOf (oci : SpinOci) (d : Digest) (l : WasmLayer) : Bool :=
  (kindOf oci l = .data ∨ kindOf oci l = .archive) ∧ l.config.digest = d

def archiveMembers (oci : SpinOci) (layers : List WasmLayer) : List Bytes :=
  (layers.filter (fun l => kindOf oci l = .archive)).flatMap (fun l => oci.archiveFiles l.layer)

def memberOf (oci : SpinOci) (d : Digest) (layers : List WasmLayer) : Option Bytes :=
  (archiveMembers oci layers).find? (fun m => oci.fileDigest m = d)

/-- What an image leaves in the files, whatever the order of its layers. -/
structure StoredImage (oci : SpinOci) (cache : Cache) (layers : List WasmLayer)
    (before after : Files) : Prop where
  spinJson : after spinJson = (lastLayer (isApplication oci) layers).or (before spinJson)
  wasm : ∀ d, after (cache.wasmPath d) =
    (lastLayer (isWasmOf oci d) layers).or (before (cache.wasmPath d))
  data : ∀ d, after (cache.dataPath d) =
    (lastLayer (isDataOf oci d) layers).or
      ((before (cache.dataPath d)).or (memberOf oci d layers))
  frame : ∀ p, p ≠ ShimSpin.spinJson → (∀ d, p ≠ cache.wasmPath d) →
    (∀ d, p ≠ cache.dataPath d) → after p = before p

variable {P : Platform} {oci : SpinOci} {cache : Cache} {l : WasmLayer} {layers : List WasmLayer}
  {w w' : World} {src : Source} {ctx : RuntimeContext} {d : Digest}

theorem lastLayer_mem {p : WasmLayer → Bool} (h : lastLayer p layers = some b) :
    ∃ l ∈ layers, p l = true ∧ l.layer = b := by
  obtain ⟨l, hl, hb⟩ := Option.map_eq_some_iff.1 h
  exact ⟨l, List.mem_reverse.1 (List.mem_of_find?_eq_some hl), List.find?_some hl, hb⟩

theorem lastLayer_of_mem {p : WasmLayer → Bool} (hl : l ∈ layers) (hp : p l = true) :
    ∃ b, lastLayer p layers = some b := by
  have hs : (layers.reverse.find? p).isSome :=
    List.find?_isSome.2 ⟨l, List.mem_reverse.2 hl, hp⟩
  obtain ⟨l', hl'⟩ := Option.isSome_iff_exists.1 hs
  exact ⟨l'.layer, by rw [lastLayer, hl', Option.map_some]⟩

theorem lastLayer_of_filter {p : WasmLayer → Bool} (h : layers.filter p = [l]) :
    lastLayer p layers = some l.layer := by
  rw [lastLayer, ← List.head?_filter, List.filter_reverse, h]
  rfl

theorem findSome?_ite (p : WasmLayer → Bool) (ls : List WasmLayer) :
    ls.findSome? (fun l => if p l = true then some l.layer else none) =
      (ls.find? p).map (·.layer) := by
  induction ls with
  | nil => rfl
  | cons l rest ih =>
    cases hp : p l with
    | true => simp only [List.findSome?_cons, hp, ↓reduceIte, List.find?_cons, Option.map_some]
    | false => simp only [List.findSome?_cons, hp, Bool.false_eq_true, ↓reduceIte, ih,
        List.find?_cons]

theorem lastPut_layers (p : WasmLayer → Bool) (k : PathBuf)
    (h : ∀ l, lastPut k (layerWrites oci cache l) = if p l = true then some l.layer else none) :
    lastPut k (layers.flatMap (layerWrites oci cache)) = lastLayer p layers := by
  rw [lastPut_flatMap]
  simp only [h]
  exact findSome?_ite p layers.reverse

theorem lastPut_map_fill (k : PathBuf) (f : Bytes → PathBuf) (ms : List Bytes) :
    lastPut k (ms.map (fun m => Op.fill (f m) m)) = none := by
  cases h : lastPut k (ms.map (fun m => Op.fill (f m) m)) with
  | none => rfl
  | some v =>
    obtain ⟨m, _, he⟩ := List.mem_map.1 (mem_of_lastPut h)
    cases he

theorem firstFill_map_fill (k : PathBuf) (f : Bytes → PathBuf) (ms : List Bytes) :
    firstFill k (ms.map (fun m => Op.fill (f m) m)) = ms.find? (fun m => f m = k) := by
  induction ms with
  | nil => rfl
  | cons m rest ih =>
    rw [List.map_cons, firstFill_cons, ih, List.find?_cons]
    by_cases h : f m = k
    · simp only [fillAt, h, ↓reduceIte, Option.some_or, decide_true]
    · simp only [fillAt, h, ↓reduceIte, Option.none_or, decide_false]

theorem lastPut_layerWrites (k : PathBuf) (l : WasmLayer) :
    lastPut k (layerWrites oci cache l) =
      match kindOf oci l with
      | .application => if ShimSpin.spinJson = k then some l.layer else none
      | .wasm | .wkg => if cache.wasmPath l.config.digest = k then some l.layer else none
      | .data | .archive => if cache.dataPath l.config.digest = k then some l.layer else none
      | .unknown => none := by
  rw [layerWrites]
  cases kindOf oci l with
  | archive =>
    simp only [lastPut_cons, lastPut_map_fill, Option.none_or, putAt]
  | application | wasm | wkg | data =>
    simp only [lastPut_cons, putAt]
    rfl
  | unknown => rfl

theorem firstFill_layerWrites (k : PathBuf) (l : WasmLayer) :
    firstFill k (layerWrites oci cache l) =
      if kindOf oci l = .archive then
        (oci.archiveFiles l.layer).find? (fun m => cache.dataPath (oci.fileDigest m) = k)
      else none := by
  rw [layerWrites]
  cases kindOf oci l with
  | archive =>
    simp only [firstFill_cons, firstFill_map_fill, fillAt, Option.none_or, ↓reduceIte]
  | application | wasm | wkg | data | unknown => rfl

theorem archiveMembers_cons (l : WasmLayer) (rest : List WasmLayer) :
    archiveMembers oci (l :: rest) =
      (if kindOf oci l = .archive then oci.archiveFiles l.layer else []) ++
        archiveMembers oci rest := by
  by_cases h : kindOf oci l = .archive
  · simp only [archiveMembers, List.filter_cons, h, decide_true, ↓reduceIte, List.flatMap_cons]
  · simp only [archiveMembers, List.filter_cons, h, decide_false, Bool.false_eq_true, ↓reduceIte,
      List.nil_append]

theorem firstFill_layers (k : PathBuf) : firstFill k (layers.flatMap (layerWrites oci cache)) =
    (archiveMembers oci layers).find? (fun m => cache.dataPath (oci.fileDigest m) = k) := by
  rw [firstFill_flatMap]
  induction layers with
  | nil => rfl
  | cons l rest ih =>
    rw [List.findSome?_cons, archiveMembers_cons, List.find?_append, ← ih, firstFill_layerWrites]
    by_cases h : kindOf oci l = .archive
    · simp only [h, ↓reduceIte]
      cases (oci.archiveFiles l.layer).find? (fun m => cache.dataPath (oci.fileDigest m) = k) <;>
        rfl
    · simp only [h, ↓reduceIte, List.find?_nil, Option.none_or]

theorem afterLayers_stored (P : Platform) (cache : Cache) (layers : List WasmLayer) (w : World) :
    StoredImage P.oci cache layers w.files (afterLayers P cache layers w).files := by
  have hrun (k : PathBuf) : (afterLayers P cache layers w).files k =
      (lastPut k (layers.flatMap (layerWrites P.oci cache))).or ((w.files k).or
        ((archiveMembers P.oci layers).find?
          (fun m => cache.dataPath (P.oci.fileDigest m) = k))) := by
    rw [afterLayers_files, run_key, firstFill_layers]
  have hnone (k : PathBuf) (hk : ∀ d, k ≠ cache.dataPath d) : (archiveMembers P.oci layers).find?
      (fun m => cache.dataPath (P.oci.fileDigest m) = k) = none := by
    rw [List.find?_eq_none]
    intro m _
    simpa only [decide_eq_true_eq] using (hk (P.oci.fileDigest m)).symm
  refine ⟨?_, fun d => ?_, fun d => ?_, fun p h₁ h₂ h₃ => ?_⟩
  · rw [hrun, hnone _ (fun d => (cache.dataPath_ne_spinJson d).symm), Option.or_none]
    congr 1
    apply lastPut_layers
    intro l
    rw [lastPut_layerWrites]
    cases hk : kindOf P.oci l <;>
      simp only [isApplication, hk, decide_true, decide_false, reduceCtorEq, ↓reduceIte,
        cache.wasmPath_ne_spinJson, cache.dataPath_ne_spinJson, Bool.false_eq_true]
  · rw [hrun, hnone _ (cache.wasmPath_ne_dataPath d), Option.or_none]
    congr 1
    apply lastPut_layers
    intro l
    rw [lastPut_layerWrites]
    cases hk : kindOf P.oci l <;>
      simp only [isWasmOf, hk, reduceCtorEq, or_false, or_true, false_and, true_and, decide_false,
        decide_eq_true_eq, Bool.false_eq_true, ↓reduceIte, (cache.wasmPath_ne_spinJson d).symm,
        (cache.wasmPath_ne_dataPath d _).symm, cache.wasmPath_injective.eq_iff]
  · rw [hrun, memberOf]
    simp only [cache.dataPath_injective.eq_iff]
    congr 1
    apply lastPut_layers
    intro l
    rw [lastPut_layerWrites]
    cases hk : kindOf P.oci l <;>
      simp only [isDataOf, hk, reduceCtorEq, or_false, or_true, false_and, true_and, decide_false,
        decide_eq_true_eq, Bool.false_eq_true, ↓reduceIte, (cache.dataPath_ne_spinJson d).symm,
        cache.wasmPath_ne_dataPath _ d, cache.dataPath_injective.eq_iff]
  · have hl : lastPut p (layers.flatMap (layerWrites P.oci cache)) = none := by
      rw [lastPut_layers (fun _ => false) p]
      · rw [lastLayer, List.find?_eq_none.2 (fun _ _ => Bool.false_ne_true), Option.map_none]
      · intro l
        rw [lastPut_layerWrites]
        cases kindOf P.oci l <;>
          simp only [h₁.symm, (h₂ _).symm, (h₃ _).symm, ↓reduceIte, Bool.false_eq_true]
    rw [hrun, hl, hnone p h₃, Option.none_or, Option.or_none]

/-- The precompile pass and the trust gate agree with the loop on what is Wasm. -/
theorem isWasmContent_iff_kind (oci : SpinOci) : (isWasmContent l).isSome ↔
    kindOf oci l = .wasm ∨ kindOf oci l = .wkg := by
  have hn := oci.mediaTypes_nodup
  simp only [List.nodup_cons, List.mem_cons, List.not_mem_nil, or_false, not_or] at hn
  obtain ⟨⟨h₁, h₂, _⟩, ⟨h₃, _⟩, _⟩ := hn
  rw [isWasmContent_isSome, kindOf]
  cases l.config.mediaType with
  | known name => simp only [layerKind, reduceCtorEq, or_self]
  | other name =>
    simp only [layerKind, MediaType.other.injEq]
    refine ⟨?_, fun h => ?_⟩
    · rintro (rfl | rfl)
      · rw [if_neg (Ne.symm h₁), if_pos rfl]
        exact .inl rfl
      · rw [if_neg (Ne.symm h₂), if_neg (Ne.symm h₃), if_pos rfl]
        exact .inr rfl
    · split_ifs at h with ha hw hg hd hr
      · rcases h with h | h <;> cases h
      · exact .inl hw
      · exact .inr hg
      · rcases h with h | h <;> cases h
      · rcases h with h | h <;> cases h
      · rcases h with h | h <;> cases h

theorem layerKind_ne_unknown {m : MediaType} :
    layerKind oci m ≠ .unknown ↔ ∃ t ∈ supportedLayersTypes oci, m = .other t := by
  cases m with
  | known name => simp only [layerKind, ne_eq, not_true_eq_false, reduceCtorEq, and_false,
      exists_false]
  | other name =>
    simp only [layerKind, supportedLayersTypes, List.mem_cons, List.not_mem_nil, or_false,
      MediaType.other.injEq, exists_eq_right']
    split_ifs with ha hw hg hd hr
    · simp only [ne_eq, reduceCtorEq, not_false_eq_true, ha, or_true]
    · simp only [ne_eq, reduceCtorEq, not_false_eq_true, hw, true_or]
    · simp only [ne_eq, reduceCtorEq, not_false_eq_true, hg, true_or, or_true]
    · simp only [ne_eq, reduceCtorEq, not_false_eq_true, hd, true_or, or_true]
    · simp only [ne_eq, reduceCtorEq, not_false_eq_true, hr, true_or, or_true]
    · simp only [ne_eq, not_true_eq_false, hw, hg, hr, hd, ha, or_self]

/-- A layer of this media type can change the world or end the loop. -/
def HasEffect (P : Platform) (cache : Cache) (m : MediaType) : Prop :=
  ∃ (l : WasmLayer) (n : Nat) (w : World), l.config.mediaType = m ∧
    loadLayer P cache n l w ≠ .ok (.next w)

/-- A layer of this media type can change the Wasm area of the cache. -/
def WritesWasmArea (P : Platform) (cache : Cache) (m : MediaType) : Prop :=
  ∃ (l : WasmLayer) (n : Nat) (w w' : World) (d : Digest), l.config.mediaType = m ∧
    (loadLayer P cache n l w = .ok (.next w') ∨
      ∃ src, loadLayer P cache n l w = .ok (.done src w')) ∧
    w'.files (cache.wasmPath d) ≠ w.files (cache.wasmPath d)

theorem afterLayer_stored (P : Platform) (cache : Cache) (l : WasmLayer) (w : World) :
    StoredImage P.oci cache [l] w.files (afterLayer P cache w l).files :=
  afterLayers_stored P cache [l] w

theorem hasEffect_iff {m : MediaType} :
    HasEffect P cache m ↔ ∃ t ∈ supportedLayersTypes P.oci, m = .other t := by
  rw [← layerKind_ne_unknown]
  refine ⟨fun ⟨l, n, w, hm, he⟩ hk => he ?_, fun hk => ?_⟩
  · rw [← hm] at hk
    simp only [loadLayer, hk]
    rfl
  · refine ⟨⟨[], false, ⟨m, ""⟩⟩, 0, .bare .empty, rfl, fun h => ?_⟩
    have he := congrArg World.files (loadLayer_next h).2
    have hl : ∃ k, lastPut k (layerWrites P.oci cache ⟨[], false, ⟨m, ""⟩⟩) = some [] := by
      cases hm : kindOf P.oci ⟨[], false, ⟨m, ""⟩⟩ with
      | unknown => exact (hk hm).elim
      | application | wasm | wkg | data | archive =>
        simp only [lastPut_layerWrites, hm]
        exact ⟨_, if_pos rfl⟩
    obtain ⟨k, hk⟩ := hl
    have hr := congrFun he k
    simp only [afterLayer, run_key, hk, Option.some_or, World.bare, reduceCtorEq] at hr

theorem writesWasmArea_iff (hr : Reliable P cache) :
    WritesWasmArea P cache l.config.mediaType ↔ (isWasmContent l).isSome := by
  rw [isWasmContent_iff_kind P.oci]
  refine ⟨fun ⟨l', n, w, w', d, hm, hl, hd⟩ => ?_, fun hk => ?_⟩
  · have hw : w' = afterLayer P cache w l' := by
      rcases hl with hl | ⟨src, hl⟩
      · exact (loadLayer_next hl).2
      · exact (loadLayer_done hl).2.2.2
    rw [hw, (afterLayer_stored P cache l' w).wasm d] at hd
    by_contra hk
    have hf : lastLayer (isWasmOf P.oci d) [l'] = none := by
      rw [lastLayer, List.find?_eq_none.2 ?_, Option.map_none]
      intro x hx
      rw [List.reverse_singleton, List.mem_singleton] at hx
      subst hx
      simp only [isWasmOf, kindOf, hm, hk, false_and, decide_false, Bool.false_eq_true,
        not_false_eq_true]
    rw [hf, Option.none_or] at hd
    exact hd rfl
  · have hs : ∃ flow, loadLayer P cache 1 l (.bare .empty) = .ok flow ∧
        (flow = .next (afterLayer P cache (.bare .empty) l) ∨
          ∃ src, flow = .done src (afterLayer P cache (.bare .empty) l)) := by
      rcases hk with hk | hk
      · have hl := loadLayer_next_of_reliable (w := .bare .empty) (n := 1) hr (by rw [hk]; nofun)
          (by rw [hk]; nofun)
        exact ⟨_, hl, .inl rfl⟩
      · exact ⟨_, loadLayer_wkg_of_reliable hr hk, .inr ⟨_, rfl⟩⟩
    obtain ⟨flow, hl, hf⟩ := hs
    refine ⟨l, 1, .bare .empty, afterLayer P cache (.bare .empty) l, l.config.digest, rfl, ?_, ?_⟩
    · rcases hf with hf | ⟨src, hf⟩
      · exact .inl (hf ▸ hl)
      · exact .inr ⟨src, hf ▸ hl⟩
    · have ht : isWasmOf P.oci l.config.digest l = true := by
        simp only [isWasmOf, hk, and_self, decide_true]
      rw [(afterLayer_stored P cache l (.bare .empty)).wasm, lastLayer, List.reverse_singleton,
        List.find?_cons, ht]
      exact nofun

/-- What an image is loaded as, and what it leaves in the cache and the other files, depends
on its layers alone. -/
theorem fromCtx_classification (hr : Reliable P cache) (hs : ctx.source = .oci layers)
    (hu : ∀ l ∈ layers, kindOf P.oci l = .archive → Unpacks P cache l) (w : World) :
    ((∃ p w', fromCtx P ctx cache w = .ok (.ociWkg p, w')) ↔
      ∃ l, layers = [l] ∧ kindOf P.oci l = .wkg) ∧
    (∀ p w', fromCtx P ctx cache w = .ok (.ociWkg p, w') →
      ∃ l, layers = [l] ∧ w'.files p = some l.layer) ∧
    ((∃ e, fromCtx P ctx cache w = .error (.error e)) ↔
      (∃ l ∈ layers, kindOf P.oci l = .wkg) ∧ layers.length ≠ 1) ∧
    ((∀ l ∈ layers, kindOf P.oci l ≠ .wkg) → ∃ w', fromCtx P ctx cache w = .ok (.ociSpin, w') ∧
      StoredImage P.oci cache layers w.files w'.files) ∧
    (∀ m, HasEffect P cache m ↔ ∃ t ∈ supportedLayersTypes P.oci, m = .other t) ∧
    (∀ l : WasmLayer, WritesWasmArea P cache l.config.mediaType ↔ (isWasmContent l).isSome) := by
  have hspin (hw : ∀ l ∈ layers, kindOf P.oci l ≠ .wkg) :
      fromCtx P ctx cache w = .ok (.ociSpin, afterLayers P cache layers w) := by
    simp only [fromCtx, hs]
    exact loadLayers_of_reliable hr hw hu
  have hwkg {l : WasmLayer} (hl : layers = [l]) (hk : kindOf P.oci l = .wkg) :
      fromCtx P ctx cache w = .ok (.ociWkg (cache.wasmPath l.config.digest),
        afterLayer P cache w l) := by
    simp only [fromCtx, hs, hl, List.length_singleton, loadLayers,
      loadLayer_wkg_of_reliable hr hk]
    rfl
  refine ⟨⟨fun ⟨p, w', h⟩ => ?_, fun ⟨l, hl, hk⟩ => ⟨_, _, hwkg hl hk⟩⟩, fun p w' h => ?_,
    ⟨fun ⟨e, h⟩ => ?_, fun ⟨⟨l, hl, hk⟩, hn⟩ => ?_⟩, fun hw => ?_, fun m => hasEffect_iff,
    fun l => writesWasmArea_iff hr⟩
  · rcases (fromCtx_ok hs h).2 with ⟨hsrc, _⟩ | ⟨l, hl, hk, _⟩
    · cases hsrc
    · exact ⟨l, hl, hk⟩
  · obtain ⟨he, hsrc | ⟨l, hl, hk, hsrc⟩⟩ := fromCtx_ok hs h
    · cases hsrc.1
    · cases hsrc
      refine ⟨l, hl, ?_⟩
      have ht : isWasmOf P.oci l.config.digest l = true := by
        simp only [isWasmOf, hk, or_true, and_self, decide_true]
      rw [he, hl, (afterLayers_stored P cache [l] w).wasm, lastLayer, List.reverse_singleton,
        List.find?_cons, ht]
      rfl
  · by_cases hw : ∀ l ∈ layers, kindOf P.oci l ≠ .wkg
    · rw [hspin hw] at h
      cases h
    · simp only [ne_eq, not_forall, not_not] at hw
      obtain ⟨l, hl, hk⟩ := hw
      refine ⟨⟨l, hl, hk⟩, fun hn => ?_⟩
      obtain ⟨l', hl'⟩ := List.length_eq_one_iff.1 hn
      rw [hl', List.mem_singleton] at hl
      rw [hwkg hl' (hl ▸ hk)] at h
      cases h
  · apply exists_error _ (fromCtx_not_panics ctx)
    intro a h
    rcases (fromCtx_ok hs h).2 with ⟨_, hw⟩ | ⟨l', hl', _⟩
    · exact hw l hl hk
    · exact hn (by rw [hl', List.length_singleton])
  · exact ⟨_, hspin hw, afterLayers_stored P cache layers w⟩

/-- Two application layers, one digest for two Wasm layers, and a file that is in an archive and
in a layer of its own. -/
def repeatingImage : List WasmLayer :=
  [layerOf SpinOci.inMemory.spinApplicationMediaType [1] "sha256:app",
    layerOf ociLayerMediaTypeWasm [2] "sha256:w",
    layerOf SpinOci.inMemory.archiveMediatype [65, 0, 66] (byteDigest [65, 0, 66]),
    layerOf ociLayerMediaTypeWasm [3] "sha256:w",
    layerOf SpinOci.inMemory.dataMediatype [67] "sha256:A",
    layerOf SpinOci.inMemory.spinApplicationMediaType [4] "sha256:app"]

theorem fromCtx_classification_repeating : ∃ w',
    fromCtx (.inMemory .bare) (imageCtx repeatingImage) .inMemory (.bare .empty) =
      .ok (.ociSpin, w') ∧
    StoredImage .inMemory .inMemory repeatingImage (World.bare .empty).files w'.files ∧
    w'.files spinJson = some [4] ∧ w'.files "/.cache/registry/wasm/sha256:w" = some [3] ∧
    w'.files "/.cache/registry/data/sha256:A" = some [67] ∧
    w'.files "/.cache/registry/data/sha256:B" = some [66] := by
  have hs : (imageCtx repeatingImage).source = .oci repeatingImage := rfl
  have hall := fromCtx_classification (inMemory_reliable .bare) hs
    (fun l _ _ => inMemory_unpacks .bare l) (.bare .empty)
  obtain ⟨w', hctx, hst⟩ := hall.2.2.2.1 (by decide)
  exact ⟨w', hctx, hst, hst.spinJson, hst.wasm "sha256:w", hst.data "sha256:A",
    hst.data "sha256:B"⟩

end ShimSpin
