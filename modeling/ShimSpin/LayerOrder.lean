import ShimSpin.Classification

namespace ShimSpin
open KeyedStore
set_option autoImplicit true

/-- The bytes that go to the data area: data layers, archives and the files of archives. -/
def dataContents (oci : SpinOci) (layers : List WasmLayer) : List Bytes :=
  (layers.filter (fun l => kindOf oci l = .data ∨ kindOf oci l = .archive)).map (·.layer) ++
    archiveMembers oci layers

/-- An image whose digests say what its layers hold. -/
structure Addressed (oci : SpinOci) (layers : List WasmLayer) : Prop where
  application : (layers.filter (isApplication oci)).length ≤ 1
  wasm : ∀ l ∈ layers, ∀ l' ∈ layers, (isWasmContent l).isSome → (isWasmContent l').isSome →
    l.config.digest = l'.config.digest → l.layer = l'.layer
  data : ∀ l ∈ layers, kindOf oci l = .data ∨ kindOf oci l = .archive →
    oci.fileDigest l.layer = l.config.digest
  collisionFree : ∀ b ∈ dataContents oci layers, ∀ b' ∈ dataContents oci layers,
    oci.fileDigest b = oci.fileDigest b' → b = b'

variable {P : Platform} {oci : SpinOci} {cache : Cache} {l : WasmLayer}
  {layers layers' : List WasmLayer} {w w' : World} {src : Source} {ctx ctx' : RuntimeContext}

theorem mem_archiveMembers {b : Bytes} : b ∈ archiveMembers oci layers ↔
    ∃ l ∈ layers, kindOf oci l = .archive ∧ b ∈ oci.archiveFiles l.layer := by
  simp only [archiveMembers, List.mem_flatMap, List.mem_filter, decide_eq_true_eq, and_assoc]

theorem Addressed.perm (h : Addressed oci layers) (hp : layers.Perm layers') :
    Addressed oci layers' := by
  have hc {b : Bytes} (hb : b ∈ dataContents oci layers') : b ∈ dataContents oci layers := by
    simp only [dataContents, List.mem_append, List.mem_map, List.mem_filter,
      mem_archiveMembers, hp.mem_iff] at hb ⊢
    exact hb
  refine ⟨?_, fun l hl l' hl' => ?_, fun l hl => ?_, fun b hb b' hb' => ?_⟩
  · rw [← (hp.filter _).length_eq]
    exact h.application
  · exact h.wasm l (hp.mem_iff.2 hl) l' (hp.mem_iff.2 hl')
  · exact h.data l (hp.mem_iff.2 hl)
  · exact h.collisionFree b (hc hb) b' (hc hb')

theorem put_mem_layerWrites {k : PathBuf} {v : Bytes} :
    .put k v ∈ layerWrites oci cache l → v = l.layer ∧
      ((kindOf oci l = .application ∧ k = spinJson) ∨
        ((isWasmContent l).isSome ∧ k = cache.wasmPath l.config.digest) ∨
        ((kindOf oci l = .data ∨ kindOf oci l = .archive) ∧
          k = cache.dataPath l.config.digest)) := by
  intro h
  rw [isWasmContent_iff_kind oci]
  cases hk : kindOf oci l with
  | application =>
    simp only [layerWrites, hk, List.mem_singleton, Op.put.injEq] at h
    exact ⟨h.2, .inl ⟨rfl, h.1⟩⟩
  | wasm =>
    simp only [layerWrites, hk, List.mem_singleton, Op.put.injEq] at h
    exact ⟨h.2, .inr (.inl ⟨.inl rfl, h.1⟩)⟩
  | wkg =>
    simp only [layerWrites, hk, List.mem_singleton, Op.put.injEq] at h
    exact ⟨h.2, .inr (.inl ⟨.inr rfl, h.1⟩)⟩
  | data =>
    simp only [layerWrites, hk, List.mem_singleton, Op.put.injEq] at h
    exact ⟨h.2, .inr (.inr ⟨.inl rfl, h.1⟩)⟩
  | archive =>
    simp only [layerWrites, hk, List.mem_cons, Op.put.injEq, List.mem_map, reduceCtorEq,
      and_false, exists_false, or_false] at h
    exact ⟨h.2, .inr (.inr ⟨.inr rfl, h.1⟩)⟩
  | unknown => simp only [layerWrites, hk, List.not_mem_nil] at h

theorem fill_mem_layerWrites {k : PathBuf} {v : Bytes} :
    .fill k v ∈ layerWrites oci cache l → kindOf oci l = .archive ∧
      v ∈ oci.archiveFiles l.layer ∧ k = cache.dataPath (oci.fileDigest v) := by
  intro h
  cases hk : kindOf oci l with
  | archive =>
    simp only [layerWrites, hk, List.mem_cons, List.mem_map, Op.fill.injEq, reduceCtorEq,
      false_or] at h
    obtain ⟨m, hm, he, rfl⟩ := h
    exact ⟨rfl, hm, he.symm⟩
  | application | wasm | wkg | data =>
    simp only [layerWrites, hk, List.mem_singleton, reduceCtorEq] at h
  | unknown => simp only [layerWrites, hk, List.not_mem_nil] at h

theorem application_unique (h : (layers.filter (isApplication oci)).length ≤ 1)
    (hl : l ∈ layers) (hk : kindOf oci l = .application) (hl' : l' ∈ layers)
    (hk' : kindOf oci l' = .application) : l = l' := by
  have hm {a : WasmLayer} (ha : a ∈ layers) (hk : kindOf oci a = .application) :
      a ∈ layers.filter (isApplication oci) :=
    List.mem_filter.2 ⟨ha, decide_eq_true hk⟩
  have h₁ := hm hl hk
  have h₂ := hm hl' hk'
  match hf : layers.filter (isApplication oci), h with
  | [], _ => rw [hf] at h₁; cases h₁
  | [a], _ =>
    rw [hf, List.mem_singleton] at h₁ h₂
    rw [h₁, h₂]
  | _ :: _ :: _, h => simp only [List.length_cons] at h; omega

theorem Addressed.agree (h : Addressed oci layers) :
    Agree (layers.flatMap (layerWrites oci cache)) := by
  have hdata {l : WasmLayer} (hl : l ∈ layers)
      (hk : kindOf oci l = .data ∨ kindOf oci l = .archive) :
      l.layer ∈ dataContents oci layers :=
    List.mem_append_left _ (List.mem_map.2 ⟨l, List.mem_filter.2 ⟨hl, decide_eq_true hk⟩, rfl⟩)
  refine ⟨fun {k v v'} hv hv' => ?_, fun {k v v'} hv hv' => ?_⟩
  · obtain ⟨l, hl, hv⟩ := List.mem_flatMap.1 hv
    obtain ⟨l', hl', hv'⟩ := List.mem_flatMap.1 hv'
    obtain ⟨rfl, ⟨hk, rfl⟩ | ⟨hk, rfl⟩ | ⟨hk, rfl⟩⟩ := put_mem_layerWrites hv
    · obtain ⟨rfl, ⟨hk', _⟩ | ⟨_, he⟩ | ⟨_, he⟩⟩ := put_mem_layerWrites hv'
      · rw [application_unique h.application hl hk hl' hk']
      · exact (cache.wasmPath_ne_spinJson _ he.symm).elim
      · exact (cache.dataPath_ne_spinJson _ he.symm).elim
    · obtain ⟨rfl, ⟨_, he⟩ | ⟨hk', he⟩ | ⟨_, he⟩⟩ := put_mem_layerWrites hv'
      · exact (cache.wasmPath_ne_spinJson _ he).elim
      · exact h.wasm l hl l' hl' hk hk' (cache.wasmPath_injective he)
      · exact (cache.wasmPath_ne_dataPath _ _ he).elim
    · obtain ⟨rfl, ⟨_, he⟩ | ⟨_, he⟩ | ⟨hk', he⟩⟩ := put_mem_layerWrites hv'
      · exact (cache.dataPath_ne_spinJson _ he).elim
      · exact (cache.wasmPath_ne_dataPath _ _ he.symm).elim
      · apply h.collisionFree _ (hdata hl hk) _ (hdata hl' hk')
        rw [h.data l hl hk, h.data l' hl' hk', cache.dataPath_injective he]
  · obtain ⟨l, hl, hv⟩ := List.mem_flatMap.1 hv
    obtain ⟨l', hl', hv'⟩ := List.mem_flatMap.1 hv'
    obtain ⟨hk, hm, rfl⟩ := fill_mem_layerWrites hv
    obtain ⟨hk', hm', he⟩ := fill_mem_layerWrites hv'
    apply h.collisionFree
    · exact List.mem_append_right _ (mem_archiveMembers.2 ⟨l, hl, hk, hm⟩)
    · exact List.mem_append_right _ (mem_archiveMembers.2 ⟨l', hl', hk', hm'⟩)
    · exact cache.dataPath_injective he

theorem afterLayers_perm (h : Addressed P.oci layers) (hp : layers.Perm layers') (w : World) :
    afterLayers P cache layers w = afterLayers P cache layers' w := by
  have hf : (afterLayers P cache layers w).files = (afterLayers P cache layers' w).files := by
    rw [afterLayers_files, afterLayers_files]
    exact run_perm h.agree (hp.flatMap_right _) w.files
  have he : (afterLayers P cache layers w).env = (afterLayers P cache layers' w).env := by
    simp only [afterLayers_env, hp.mem_iff]
  have hc : (afterLayers P cache layers w).cwd = (afterLayers P cache layers' w).cwd := by
    rw [afterLayers_cwd, afterLayers_cwd]
  cases hw : afterLayers P cache layers w
  cases hw' : afterLayers P cache layers' w
  rw [hw, hw'] at hf he hc
  cases hf
  cases he
  cases hc
  rfl

/-- Whether an archive unpacks depends on its bytes only. -/
def UnpackByBytes (P : Platform) (cache : Cache) : Prop :=
  ∀ f d f' d' b, (∃ g, P.oci.unpackArchiveLayer cache f b d = .ok g) →
    ∃ g, P.oci.unpackArchiveLayer cache f' b d' = .ok g

theorem loadLayers_unpacks (hu : UnpackByBytes P cache)
    (h : loadLayers P cache n layers w = .ok (.ociSpin, w')) (hl : l ∈ layers)
    (hk : kindOf P.oci l = .archive) : Unpacks P cache l := by
  induction layers generalizing w with
  | nil => cases hl
  | cons a rest ih =>
    obtain ⟨flow, hf, h⟩ := bind_eq_ok.1 h
    cases flow with
    | next w₁ =>
      rcases List.mem_cons.1 hl with rfl | hl
      · simp only [loadLayer, hk, handleArchiveLayer_eq] at hf
        intro f
        cases hg : P.oci.unpackArchiveLayer cache w.files l.layer l.config.digest with
        | ok g => exact hu _ _ _ _ _ ⟨g, hg⟩
        | error e => rw [hg] at hf; cases hf
      · exact ih h hl
    | done src w₁ =>
      have hs := (loadLayer_done hf).2.2.1
      cases h
      cases hs

theorem fromCtx_perm_ok (hr : Reliable P cache) (hu : UnpackByBytes P cache)
    (hs : ctx.source = .oci layers) (hs' : ctx'.source = .oci layers')
    (ha : Addressed P.oci layers) (hp : layers.Perm layers')
    (h : fromCtx P ctx cache w = .ok (src, w')) : fromCtx P ctx' cache w = .ok (src, w') := by
  obtain ⟨he, ⟨hsrc, hw⟩ | ⟨l, hl, _⟩⟩ := fromCtx_ok hs h
  · subst hsrc he
    rw [afterLayers_perm ha hp]
    simp only [fromCtx, hs, hs'] at h ⊢
    apply loadLayers_of_reliable hr
    · exact fun l hl => hw l (hp.mem_iff.2 hl)
    · exact fun l hl hk => loadLayers_unpacks hu h (hp.mem_iff.2 hl) hk
  · have hl' : layers' = [l] := List.perm_singleton.1 (hl ▸ hp.symm)
    simp only [fromCtx, hs, hs', hl, hl'] at h ⊢
    exact h

/-- The order of the layers of an addressed image decides neither whether it loads nor what
loading it leaves behind. -/
theorem fromCtx_perm (hr : Reliable P cache) (hu : UnpackByBytes P cache)
    (hs : ctx.source = .oci layers) (hs' : ctx'.source = .oci layers')
    (ha : Addressed P.oci layers) (hp : layers.Perm layers') (w : World) :
    ((fromCtx P ctx cache w).Succeeds ↔ (fromCtx P ctx' cache w).Succeeds) ∧
      ∀ src w₁ src' w₂, fromCtx P ctx cache w = .ok (src, w₁) →
        fromCtx P ctx' cache w = .ok (src', w₂) →
        src = src' ∧ w₁.files = w₂.files ∧ w₁.env = w₂.env := by
  have hto {src : Source} {w₁ : World} (h : fromCtx P ctx cache w = .ok (src, w₁)) :
      fromCtx P ctx' cache w = .ok (src, w₁) := fromCtx_perm_ok hr hu hs hs' ha hp h
  have hof {src : Source} {w₁ : World} (h : fromCtx P ctx' cache w = .ok (src, w₁)) :
      fromCtx P ctx cache w = .ok (src, w₁) := fromCtx_perm_ok hr hu hs' hs (ha.perm hp) hp.symm h
  refine ⟨⟨fun ⟨⟨src, w₁⟩, h⟩ => ⟨_, hto h⟩, fun ⟨⟨src, w₁⟩, h⟩ => ⟨_, hof h⟩⟩, ?_⟩
  intro src w₁ src' w₂ h h'
  have := (hto h).symm.trans h'
  cases this
  exact ⟨rfl, rfl, rfl⟩

/-- A file that is in two archives and in a layer of its own. -/
def sharedFileImage : List WasmLayer :=
  [layerOf SpinOci.inMemory.spinApplicationMediaType [123, 125] "sha256:app",
    layerOf SpinOci.inMemory.archiveMediatype [65, 0, 66] (byteDigest [65, 0, 66]),
    layerOf ociLayerMediaTypeWasm [0, 97, 115, 109] "sha256:A",
    layerOf SpinOci.inMemory.dataMediatype [65] "sha256:A",
    layerOf SpinOci.inMemory.archiveMediatype [67, 0, 65] (byteDigest [67, 0, 65])]

theorem sharedFileImage_addressed : Addressed SpinOci.inMemory sharedFileImage where
  application := by decide
  wasm := by decide
  data := by decide
  collisionFree := by decide

theorem fromCtx_perm_reversed : ∃ src w₁ src' w₂,
    fromCtx (.inMemory .bare) (imageCtx sharedFileImage) .inMemory (.bare .empty) =
      .ok (src, w₁) ∧
    fromCtx (.inMemory .bare) (imageCtx sharedFileImage.reverse) .inMemory (.bare .empty) =
      .ok (src', w₂) ∧
    src = src' ∧ w₁.files = w₂.files ∧ w₁.env = w₂.env := by
  have hsource : (imageCtx sharedFileImage).source = .oci sharedFileImage := rfl
  have hsource' : (imageCtx sharedFileImage.reverse).source = .oci sharedFileImage.reverse := rfl
  have hperm := (fromCtx_perm (inMemory_reliable .bare) (fun _ _ _ _ _ _ => ⟨_, rfl⟩) hsource
    hsource' sharedFileImage_addressed (List.reverse_perm _).symm (.bare .empty)).2
  exact ⟨_, _, _, _, rfl, rfl, hperm _ _ _ _ rfl rfl⟩

end ShimSpin
