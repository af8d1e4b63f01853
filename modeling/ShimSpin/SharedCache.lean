import ShimSpin.AotTrust
import ShimSpin.CompleteImage

namespace ShimSpin
set_option autoImplicit true

def Truthful (oci : SpinOci) (layers : List WasmLayer) : Prop :=
  ∀ l ∈ layers, kindOf oci l = .data ∨ kindOf oci l = .archive →
    oci.fileDigest l.layer = l.config.digest

def CollisionFree (oci : SpinOci) (contents : List Bytes) : Prop :=
  ∀ b ∈ contents, ∀ b' ∈ contents, oci.fileDigest b = oci.fileDigest b' → b = b'

/-- Starts of the shim on files whose cache one start leaves to the next. A start may be stopped
after any of its layers, and other files may change in between. -/
inductive Starts (P : Platform) (cache : Cache) : Files → List (List WasmLayer) → Files → Prop where
  | none (f : Files) : Starts P cache f [] f
  | next {layers : List WasmLayer} {f : Files} (w : World) (k : Nat)
      (hload : loadLayers P cache layers.length (layers.take k) w = .ok (src, w'))
      (hsame : SameCache cache w'.files f) (hrest : Starts P cache f images f') :
      Starts P cache w.files (layers :: images) f'

/-- The data area has nothing but contents from a list, under their own digests. -/
def Holds (oci : SpinOci) (cache : Cache) (contents : List Bytes) (f : Files) : Prop :=
  ∀ d b, f (cache.dataPath d) = some b → b ∈ contents ∧ oci.fileDigest b = d

variable {P : Platform} {oci : SpinOci} {cache : Cache} {layers layers' : List WasmLayer}
  {images : List (List WasmLayer)} {contents : List Bytes} {app app' : LockedApp}
  {c c' : LockedComponent} {w w' : World} {f f' : Files} {src : Source} {ctx : RuntimeContext}
  {wt : Wasmtime}

theorem dataContents_subset (h : layers' ⊆ layers) :
    dataContents oci layers' ⊆ dataContents oci layers := by
  intro b hb
  rw [dataContents, List.mem_append, mem_archiveMembers] at hb ⊢
  rcases hb with hb | ⟨l, hl, hk⟩
  · obtain ⟨l, hl, rfl⟩ := List.mem_map.1 hb
    obtain ⟨hl, hk⟩ := List.mem_filter.1 hl
    exact .inl (List.mem_map_of_mem (List.mem_filter.2 ⟨h hl, hk⟩))
  · exact .inr ⟨l, h hl, hk⟩

theorem Holds.afterLayers (h : Holds P.oci cache contents w.files) (ht : Truthful P.oci layers) :
    Holds P.oci cache (contents ++ dataContents P.oci layers)
      (afterLayers P cache layers w).files := by
  intro d b hb
  have hnew {b : Bytes} (hm : b ∈ dataContents P.oci layers) :
      b ∈ contents ++ dataContents P.oci layers := List.mem_append_right _ hm
  rw [(afterLayers_stored P cache layers w).data, Option.or_eq_some_iff,
    Option.or_eq_some_iff] at hb
  rcases hb with hb | ⟨_, hb | ⟨_, hb⟩⟩
  · obtain ⟨l, hl, hp, rfl⟩ := lastLayer_mem hb
    simp only [isDataOf, decide_eq_true_eq] at hp
    have hm : l ∈ layers.filter fun l => kindOf P.oci l = .data ∨ kindOf P.oci l = .archive :=
      List.mem_filter.2 ⟨hl, decide_eq_true hp.1⟩
    exact ⟨hnew (List.mem_append_left _ (List.mem_map_of_mem hm)), (ht l hl hp.1).trans hp.2⟩
  · obtain ⟨hm, hd⟩ := h d b hb
    exact ⟨List.mem_append_left _ hm, hd⟩
  · obtain ⟨hm, hd⟩ := memberOf_mem hb
    exact ⟨hnew hm, hd⟩

theorem loadLayers_take (h : loadLayers P cache n (layers.take k) w = .ok (src, w')) :
    ∃ j, w' = afterLayers P cache (layers.take j) w := by
  rcases loadLayers_ok h with ⟨_, _, he⟩ | ⟨_, before, l, after, hl, _, _, he⟩
  · exact ⟨k, he⟩
  · have hp : before ++ [l] <+: layers := by
      apply List.IsPrefix.trans _ (List.take_prefix k layers)
      rw [hl]
      exact ⟨after, by rw [List.append_assoc, List.singleton_append]⟩
    rw [List.prefix_iff_eq_take] at hp
    exact ⟨_, hp ▸ he⟩

theorem Starts.holds (h : Starts P cache f images f')
    (ht : ∀ layers ∈ images, Truthful P.oci layers) (hf : Holds P.oci cache contents f) :
    Holds P.oci cache (contents ++ images.flatMap (dataContents P.oci)) f' := by
  induction h generalizing contents with
  | none f =>
    rw [List.flatMap_nil, List.append_nil]
    exact hf
  | @next src w' images f' layers f w k hload hsame hrest ih =>
    rw [List.forall_mem_cons] at ht
    obtain ⟨j, rfl⟩ := loadLayers_take hload
    have htake : Truthful P.oci (layers.take j) := fun l hl => ht.1 l (List.mem_of_mem_take hl)
    have hnext : Holds P.oci cache (contents ++ dataContents P.oci layers) f := by
      intro d b hb
      have hnew : dataContents P.oci (layers.take j) ⊆ contents ++ dataContents P.oci layers :=
        fun b hb => List.mem_append_right _ (dataContents_subset (List.take_subset j layers) hb)
      rw [hsame.data] at hb
      obtain ⟨hm, hd⟩ := hf.afterLayers htake d b hb
      exact ⟨List.append_subset.2 ⟨List.subset_append_left _ _, hnew⟩ hm, hd⟩
    rw [List.flatMap_cons, ← List.append_assoc]
    exact ih ht.2 hnext

theorem Cache.Empty.holds (he : cache.Empty f) : Holds oci cache [] f := by
  intro d b hb
  rw [(he d).2] at hb
  cases hb

/-- What other images have left can stand in for content of the image only where it is the same. -/
theorem Holds.agreeing (h : Holds oci cache contents f)
    (hc : CollisionFree oci (contents ++ dataContents oci layers)) :
    Agreeing oci cache layers f := by
  intro b hb b' hb'
  obtain ⟨hm, hd⟩ := h _ b' hb'
  have he : b' = b := hc b' (List.mem_append_left _ hm) b (List.mem_append_right _ hb) hd
  exact ⟨he ▸ hb, hd⟩

theorem LoadedComponent.wasmRefs (h : LoadedComponent P cache layers f c c') :
    List.Forall₂ (LoadedRef P cache layers f) c.wasmRefs c'.wasmRefs := by
  apply List.Forall₂.cons h.source
  apply List.rel_map _ h.dependencies
  exact fun e e' he => he.2

/-- All Wasm of a loaded app is the image's own, so the gate that looks at the image is enough. -/
theorem LoadedApp.aotTrusted (h : LoadedApp P cache layers f app app')
    (hs : ctx.source = .oci layers) (haot : aotEnabled ctx src = true) :
    AotTrusted P wt layers app' f := by
  have hrefs : List.Forall₂ (LoadedRef P cache layers f) app.wasmRefs app'.wasmRefs :=
    List.rel_flatMap h.components fun _ _ hc => hc.wasmRefs
  intro r' hr' p b hp hb _
  obtain ⟨r, _, l, hl, hk, _, he, hf⟩ := forall₂_mem_right hrefs hr'
  rw [he, Option.some.injEq] at hp
  have hpath := P.loader.fileUrl_injective hp
  rw [← hpath, hf, Option.some.injEq] at hb
  exact ⟨l, hl, precompiled_of_gate hs haot hl (.inl hk), hb⟩

/-- On a cache that starts of other images have left behind, finished or not, a complete image is
loaded with its own bytes, and with native code of its own precompiled layers only. -/
theorem restarted_image_loads (hr : Reliable P cache) (hl : Loads P cache)
    (hs : ctx.source = .oci layers) (hi : CompleteImage P cache layers app)
    (he : cache.Empty f) (hstarts : Starts P cache f images w.files)
    (ht : ∀ image ∈ images, Truthful P.oci image)
    (hc : CollisionFree P.oci (images.flatMap (dataContents P.oci) ++ dataContents P.oci layers)) :
    ∃ w₁ app' w₂, fromCtx P ctx cache w = .ok (.ociSpin, w₁) ∧
      toLockedApp P .ociSpin cache w₁ = .ok (app', w₂) ∧
      LoadedApp P cache layers w₂.files app app' ∧
      ∀ wt, aotEnabled ctx .ociSpin = true → AotTrusted P wt layers app' w₂.files := by
  have hholds := hstarts.holds ht he.holds
  rw [List.nil_append] at hholds
  have hagreeing : Agreeing P.oci cache layers w.files := hholds.agreeing hc
  obtain ⟨app', w₂, happ, _, hloaded⟩ := hi.loads hl hagreeing
  exact ⟨_, app', w₂, hi.fromCtx_eq hr hs, happ, hloaded, fun _ => hloaded.aotTrusted hs⟩

def otherImage : List WasmLayer :=
  [layerOf SpinOci.inMemory.dataMediatype [65] "sha256:A",
    layerOf ociLayerMediaTypeWasm [0, 97, 115, 111] "sha256:y",
    layerOf SpinOci.inMemory.dataMediatype [66] "sha256:B"]

def restartedWorld : World :=
  afterLayers (.inMemory sampleApp) .inMemory (otherImage.take 2) (.bare .empty)

/-- The other start is stopped before its last layer. -/
theorem otherImage_starts : Starts (.inMemory sampleApp) .inMemory (World.bare .empty).files
    [otherImage] restartedWorld.files :=
  .next (.bare .empty) 2 (loadLayers_of_reliable (inMemory_reliable _) (by decide)
    fun l _ _ => inMemory_unpacks _ l) .refl (.none _)

theorem restarted_sampleImage_loads : ∃ w₁ app' w₂,
    fromCtx (.inMemory sampleApp) (imageCtx sampleImage) .inMemory restartedWorld =
      .ok (.ociSpin, w₁) ∧
    toLockedApp (.inMemory sampleApp) .ociSpin .inMemory w₁ = .ok (app', w₂) ∧
    LoadedApp (.inMemory sampleApp) .inMemory sampleImage w₂.files sampleApp app' ∧
    ∀ wt, aotEnabled (imageCtx sampleImage) .ociSpin = true →
      AotTrusted (.inMemory sampleApp) wt sampleImage app' w₂.files :=
  restarted_image_loads (inMemory_reliable sampleApp) (inMemory_loads sampleApp) rfl
    sampleImage_complete (fun _ => ⟨rfl, rfl⟩) otherImage_starts
    (by unfold Truthful; decide) (by unfold CollisionFree; decide)

end ShimSpin
