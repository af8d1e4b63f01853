import ShimSpin.CompiledImage
import ShimSpin.Panics
import ShimSpin.SharedCache

namespace ShimSpin
open KeyedStore
set_option autoImplicit true

/-- Starts of one container that are stopped, each after some of the image's layers. -/
inductive Attempts (P : Platform) (cache : Cache) (layers : List WasmLayer) :
    Files → Files → Prop where
  | none (f : Files) : Attempts P cache layers f f
  | next (w : World) (k : Nat)
      (hload : loadLayers P cache layers.length (layers.take k) w = .ok (src, w'))
      (hrest : Attempts P cache layers w'.files f) : Attempts P cache layers w.files f

variable {Addr : Type} {P : Platform} {H : Host Addr} {cache : Cache} {layers : List WasmLayer}
  {w w₁ : World} {f f' : Files} {src : Source} {ctx : RuntimeContext}

theorem Attempts.run (h : Attempts P cache layers f f') :
    run (layers.flatMap (layerWrites P.oci cache)) f' =
      run (layers.flatMap (layerWrites P.oci cache)) f := by
  induction h with
  | none f => rfl
  | next w k hload _ ih =>
    obtain ⟨j, rfl⟩ := loadLayers_take hload
    rw [ih, afterLayers_files]
    apply run_of_prefix
    exact (List.take_prefix j layers).flatMap _

theorem afterLayers_attempts (h : Attempts P cache layers f f') (w : World) :
    afterLayers P cache layers { w with files := f' } =
      afterLayers P cache layers { w with files := f } := by
  have hfiles : (afterLayers P cache layers { w with files := f' }).files =
      (afterLayers P cache layers { w with files := f }).files := by
    rw [afterLayers_files, afterLayers_files]
    exact h.run
  have henv : (afterLayers P cache layers { w with files := f' }).env =
      (afterLayers P cache layers { w with files := f }).env := by
    rw [afterLayers_env, afterLayers_env]
    rfl
  have hcwd : (afterLayers P cache layers { w with files := f' }).cwd =
      (afterLayers P cache layers { w with files := f }).cwd := by
    rw [afterLayers_cwd, afterLayers_cwd]
  exact World.ext hfiles henv hcwd

theorem fromCtx_attempts (hr : Reliable P cache) (hu : UnpackByBytes P cache)
    (hs : ctx.source = .oci layers) (h : Attempts P cache layers f f') (w : World) :
    (∃ r, fromCtx P ctx cache { w with files := f' } = .ok r ∧
      fromCtx P ctx cache { w with files := f } = .ok r) ∨
    (fromCtx P ctx cache { w with files := f' }).Fails ∧
      (fromCtx P ctx cache { w with files := f }).Fails := by
  have hself : List.Forall₂ SameLayer layers layers :=
    List.forall₂_same.2 fun l _ => ⟨rfl, fun _ => rfl⟩
  have hworlds := afterLayers_attempts h w
  cases hold : fromCtx P ctx cache { w with files := f } with
  | ok r =>
    obtain ⟨src, w₁⟩ := r
    have hnew := fromCtx_sameLayers hr hu hs hs hself hold { w with files := f' }
    rw [hworlds, ← (fromCtx_ok hs hold).1] at hnew
    exact .inl ⟨_, hnew, rfl⟩
  | error failure =>
    have hfails {g : Files} (hn : ¬ ∃ r, fromCtx P ctx cache { w with files := g } = .ok r) :
        (fromCtx P ctx cache { w with files := g }).Fails := by
      by_contra hf
      exact hn ((not_fails_iff (fromCtx_not_panics ctx)).1 hf)
    refine .inr ⟨hfails ?_, hold ▸ hfails ?_⟩
    · intro ⟨⟨src, w₁⟩, hnew⟩
      rw [fromCtx_sameLayers hr hu hs hs hself hnew] at hold
      cases hold
    · intro ⟨r, hok⟩
      rw [hold] at hok
      cases hok

theorem loadFrom_attempts (hr : Reliable P cache) (hu : UnpackByBytes P cache)
    (hs : ctx.source = .oci layers) (h : Attempts P cache layers f f') (w : World) :
    loadFrom P ctx cache { w with files := f' } = loadFrom P ctx cache { w with files := f } ∨
    (loadFrom P ctx cache { w with files := f' }).Fails ∧
      (loadFrom P ctx cache { w with files := f }).Fails := by
  rcases fromCtx_attempts hr hu hs h w with ⟨r, h', hfirst⟩ | ⟨⟨e', he'⟩, ⟨e, he⟩⟩
  · rw [loadFrom, loadFrom, h', hfirst]
    exact .inl rfl
  · rw [loadFrom, loadFrom, he', he]
    exact .inr ⟨⟨e', rfl⟩, ⟨e, rfl⟩⟩

/-- However often a container has been stopped while its image was stored, the next start runs
as if it were the first: to the same end, unless it would have failed in the first place. -/
theorem attempts_recover (hr : Reliable H.platform cache) (hu : UnpackByBytes H.platform cache)
    (hnew : H.platform.newCache cacheDir = .ok cache) (hs : ctx.source = .oci layers)
    (h : Attempts H.platform cache layers f f') (w : World) (aborted : Bool) :
    runWasi H ctx aborted { w with files := f' } = runWasi H ctx aborted { w with files := f } ∨
    (runWasi H ctx aborted { w with files := f' }).Fails ∧
      (runWasi H ctx aborted { w with files := f }).Fails := by
  simp only [runWasi]
  cases importEnvs ctx.envs w.env with
  | error e => exact .inl rfl
  | ok E =>
    cases H.setHandler with
    | error e => exact .inl rfl
    | ok u =>
      cases aborted with
      | true => exact .inl rfl
      | false =>
        have hload (g : Files) : loadApp H.platform ctx ⟨g, E, w.cwd⟩ =
            loadFrom H.platform ctx cache { withCache ⟨f, E, w.cwd⟩ with files := g } :=
          loadApp_eq hnew
        simp only [ofResult, ok_bind, Bool.false_eq_true, ↓reduceIte, wasmExecAsync, hload]
        rcases loadFrom_attempts hr hu hs h (withCache ⟨f, E, w.cwd⟩)
          with heq | ⟨⟨e', he'⟩, ⟨e, he⟩⟩
        · rw [heq]
          exact .inl rfl
        · rw [he', he]
          exact .inr ⟨⟨e', rfl⟩, ⟨e, rfl⟩⟩

/-- One start is stopped after two layers and one after four. -/
def attemptedFiles : Files :=
  (afterLayers (.inMemory sampleApp) .inMemory (sampleImage.take 4)
    (afterLayers (.inMemory sampleApp) .inMemory (sampleImage.take 2) (.bare .empty))).files

theorem sampleImage_attempts : Attempts (.inMemory sampleApp) .inMemory sampleImage
    (World.bare .empty).files attemptedFiles := by
  have hload (k : Nat) (w : World) : loadLayers (.inMemory sampleApp) .inMemory sampleImage.length
      (sampleImage.take k) w = .ok (.ociSpin,
        afterLayers (.inMemory sampleApp) .inMemory (sampleImage.take k) w) :=
    loadLayers_of_reliable (inMemory_reliable sampleApp)
      (fun l hl => sampleImage_complete.noWkg l (List.mem_of_mem_take hl))
      (fun l _ _ => inMemory_unpacks sampleApp l)
  exact .next (.bare .empty) 2 (hload 2 _) (.next _ 4 (hload 4 _) (.none _))

theorem attempts_recover_sample :
    runWasi (.inMemory sampleApp) (imageCtx sampleImage) false
        { World.bare .empty with files := attemptedFiles } =
      runWasi (.inMemory sampleApp) (imageCtx sampleImage) false (.bare .empty) ∨
    (runWasi (.inMemory sampleApp) (imageCtx sampleImage) false
        { World.bare .empty with files := attemptedFiles }).Fails ∧
      (runWasi (.inMemory sampleApp) (imageCtx sampleImage) false (.bare .empty)).Fails :=
  attempts_recover (inMemory_reliable sampleApp) (fun _ _ _ _ _ _ => ⟨_, rfl⟩) rfl rfl
    sampleImage_attempts (.bare .empty) false

end ShimSpin
