import ShimSpin.Engine

namespace ShimSpin
open KeyedStore
set_option autoImplicit true

/-- The writes that a layer asks for, by its kind. -/
def layerWrites (oci : SpinOci) (cache : Cache) (l : WasmLayer) : List (Op PathBuf Bytes) :=
  match kindOf oci l with
  | .application => [.put spinJson l.layer]
  | .wasm | .wkg => [.put (cache.wasmPath l.config.digest) l.layer]
  | .data => [.put (cache.dataPath l.config.digest) l.layer]
  | .archive => .put (cache.dataPath l.config.digest) l.layer ::
      (oci.archiveFiles l.layer).map (fun m => .fill (cache.dataPath (oci.fileDigest m)) m)
  | .unknown => []

def afterLayer (P : Platform) (cache : Cache) (w : World) (l : WasmLayer) : World where
  files := run (layerWrites P.oci cache l) w.files
  env := if kindOf P.oci l = .archive then archiveEnv w else w.env
  cwd := w.cwd

def afterLayers (P : Platform) (cache : Cache) (layers : List WasmLayer) (w : World) : World :=
  layers.foldl (afterLayer P cache) w

variable {P : Platform} {cache : Cache} {l : WasmLayer} {layers : List WasmLayer} {w w' : World}
  {n : Nat} {src : Source}

theorem loadLayer_next (h : loadLayer P cache n l w = .ok (.next w')) :
    kindOf P.oci l ≠ .wkg ∧ w' = afterLayer P cache w l := by
  unfold loadLayer at h
  cases hk : kindOf P.oci l with
  | application =>
    simp only [hk] at h
    obtain ⟨f₁, h₁, h⟩ := bind_eq_ok.1 h
    obtain ⟨f₂, h₂, h⟩ := bind_eq_ok.1 h
    rw [context_eq_ok, ofResult_eq_ok] at h₁ h₂
    have he₁ := P.fs.create_ok h₁
    have hnew : f₁ spinJson = some [] := by rw [he₁, Function.update_self]
    have he₂ := P.fs.writeAll_ok h₂ hnew
    cases h
    apply And.intro (by decide)
    rw [he₁, List.nil_append, Function.update_idem] at he₂
    simp only [afterLayer, layerWrites, hk, he₂, run_cons, run_nil, Op.apply, reduceCtorEq,
      ↓reduceIte]
  | wasm =>
    simp only [hk] at h
    obtain ⟨f, hf, h⟩ := bind_eq_ok.1 h
    cases h
    apply And.intro (by decide)
    simp only [afterLayer, layerWrites, hk, cache.writeWasm_ok (ofResult_eq_ok.1 hf), run_cons,
      run_nil, Op.apply, reduceCtorEq, ↓reduceIte]
  | wkg =>
    simp only [hk] at h
    obtain ⟨f, hf, h⟩ := bind_eq_ok.1 h
    split at h <;> cases h
  | data =>
    simp only [hk] at h
    obtain ⟨f, hf, h⟩ := bind_eq_ok.1 h
    cases h
    apply And.intro (by decide)
    simp only [afterLayer, layerWrites, hk, cache.writeData_ok (ofResult_eq_ok.1 hf), run_cons,
      run_nil, Op.apply, reduceCtorEq, ↓reduceIte]
  | archive =>
    simp only [hk] at h
    obtain ⟨w₁, h₁, h⟩ := bind_eq_ok.1 h
    cases h
    apply And.intro (by decide)
    rw [context_eq_ok, handleArchiveLayer_eq] at h₁
    cases hu : P.oci.unpackArchiveLayer cache w.files l.layer l.config.digest with
    | error e => rw [hu] at h₁; cases h₁
    | ok f =>
      rw [hu] at h₁
      cases h₁
      simp only [afterLayer, layerWrites, hk, P.oci.unpackArchiveLayer_ok hu, ↓reduceIte]
  | unknown =>
    simp only [hk] at h
    cases h
    apply And.intro (by decide)
    simp only [afterLayer, layerWrites, hk, run_nil, reduceCtorEq, ↓reduceIte]

theorem loadLayer_done (h : loadLayer P cache n l w = .ok (.done src w')) :
    kindOf P.oci l = .wkg ∧ n = 1 ∧ src = .ociWkg (cache.wasmPath l.config.digest) ∧
      w' = afterLayer P cache w l := by
  unfold loadLayer at h
  cases hk : kindOf P.oci l with
  | application =>
    simp only [hk] at h
    obtain ⟨f₁, h₁, h⟩ := bind_eq_ok.1 h
    obtain ⟨f₂, h₂, h⟩ := bind_eq_ok.1 h
    cases h
  | wkg =>
    simp only [hk] at h
    obtain ⟨f, hf, h⟩ := bind_eq_ok.1 h
    by_cases hn : n = 1
    · simp only [hn, ne_eq, not_true_eq_false, ↓reduceIte] at h
      cases h
      refine ⟨rfl, hn, rfl, ?_⟩
      simp only [afterLayer, layerWrites, hk, cache.writeWasm_ok (ofResult_eq_ok.1 hf), run_cons,
        run_nil, Op.apply, reduceCtorEq, ↓reduceIte]
    · simp only [hn, ne_eq, not_false_eq_true, ↓reduceIte] at h
      cases h
  | wasm | data | archive =>
    simp only [hk] at h
    obtain ⟨f, hf, h⟩ := bind_eq_ok.1 h
    cases h
  | unknown =>
    simp only [hk] at h
    cases h

/-- A run over layers that returns has stored the layers it passed: all of them, or those up
to a wkg layer that is alone. -/
theorem loadLayers_ok (h : loadLayers P cache n layers w = .ok (src, w')) :
    (src = .ociSpin ∧ (∀ l ∈ layers, kindOf P.oci l ≠ .wkg) ∧ w' = afterLayers P cache layers w) ∨
    (n = 1 ∧ ∃ before l after, layers = before ++ l :: after ∧ kindOf P.oci l = .wkg ∧
      src = .ociWkg (cache.wasmPath l.config.digest) ∧
      w' = afterLayers P cache (before ++ [l]) w) := by
  induction layers generalizing w with
  | nil =>
    cases h
    exact .inl ⟨rfl, nofun, rfl⟩
  | cons a rest ih =>
    obtain ⟨flow, hf, h⟩ := bind_eq_ok.1 h
    cases flow with
    | next w₁ =>
      obtain ⟨hk, he⟩ := loadLayer_next hf
      rw [he] at h
      rcases ih h with ⟨hs, hw, he'⟩ | ⟨hn, before, l, after, hl, hk', hs, he'⟩
      · exact .inl ⟨hs, List.forall_mem_cons.2 ⟨hk, hw⟩, he'⟩
      · exact .inr ⟨hn, a :: before, l, after, by rw [hl]; rfl, hk', hs, he'⟩
    | done src' w₁ =>
      obtain ⟨hk, hn, hs, he⟩ := loadLayer_done hf
      cases h
      exact .inr ⟨hn, [], a, rest, rfl, hk, hs, he⟩

theorem fromCtx_ok {ctx : RuntimeContext} (hs : ctx.source = .oci layers)
    (h : fromCtx P ctx cache w = .ok (src, w')) :
    w' = afterLayers P cache layers w ∧
      ((src = .ociSpin ∧ ∀ l ∈ layers, kindOf P.oci l ≠ .wkg) ∨
        ∃ l, layers = [l] ∧ kindOf P.oci l = .wkg ∧
          src = .ociWkg (cache.wasmPath l.config.digest)) := by
  simp only [fromCtx, hs] at h
  rcases loadLayers_ok h with ⟨hsrc, hw, he⟩ | ⟨hn, before, l, after, hl, hk, hsrc, he⟩
  · exact ⟨he, .inl ⟨hsrc, hw⟩⟩
  · rw [hl, List.length_append, List.length_cons] at hn
    have hb : before = [] := List.eq_nil_of_length_eq_zero (by omega)
    have ha : after = [] := List.eq_nil_of_length_eq_zero (by omega)
    subst hb ha
    rw [List.nil_append] at hl he
    exact ⟨hl ▸ he, .inr ⟨l, hl, hk, hsrc⟩⟩

theorem afterLayers_files (layers : List WasmLayer) (w : World) :
    (afterLayers P cache layers w).files =
      run (layers.flatMap (layerWrites P.oci cache)) w.files := by
  induction layers generalizing w with
  | nil => rfl
  | cons l rest ih =>
    rw [List.flatMap_cons, run_append]
    exact ih (afterLayer P cache w l)

theorem afterLayers_cwd (layers : List WasmLayer) (w : World) :
    (afterLayers P cache layers w).cwd = w.cwd := by
  induction layers generalizing w with
  | nil => rfl
  | cons l rest ih => exact ih (afterLayer P cache w l)

/-- Setting the directory for temporary files again changes nothing. -/
theorem archiveEnv_archiveEnv (f : Files) :
    archiveEnv { w with files := f, env := archiveEnv w } = archiveEnv w := by
  apply Env.ext
  funext n
  rw [archiveEnv_get]
  by_cases hn : n = tmpdir ∧ (archiveEnv w).var tmpdir = none
  · rw [if_pos hn, hn.1, archiveEnv_get]
    by_cases hv : w.env.var tmpdir = none
    · rw [if_pos ⟨rfl, hv⟩]
      rfl
    · have he : archiveEnv w = w.env := by
        unfold archiveEnv
        cases ho : w.env.var tmpdir with
        | none => exact (hv ho).elim
        | some v => rfl
      rw [he] at hn
      exact (hv hn.2).elim
  · rw [if_neg hn]

theorem afterLayers_env (layers : List WasmLayer) (w : World) :
    (afterLayers P cache layers w).env =
      if ∃ l ∈ layers, kindOf P.oci l = .archive then archiveEnv w else w.env := by
  induction layers generalizing w with
  | nil => simp only [List.not_mem_nil, false_and, exists_false, ↓reduceIte, afterLayers,
      List.foldl_nil]
  | cons l rest ih =>
    have hs := ih (afterLayer P cache w l)
    change (afterLayers P cache rest (afterLayer P cache w l)).env = _
    rw [hs]
    by_cases hl : kindOf P.oci l = .archive
    · have he : (afterLayer P cache w l).env = archiveEnv w := if_pos hl
      have hw : afterLayer P cache w l =
          { w with files := (afterLayer P cache w l).files, env := archiveEnv w } := by
        rw [← he]
        rfl
      have ha : archiveEnv (afterLayer P cache w l) = archiveEnv w := by
        rw [hw, archiveEnv_archiveEnv]
      have hr : ∃ l' ∈ l :: rest, kindOf P.oci l' = .archive := ⟨l, List.mem_cons_self, hl⟩
      rw [if_pos hr, ha, he, ite_self]
    · have he : (afterLayer P cache w l).env = w.env := if_neg hl
      have ha : archiveEnv (afterLayer P cache w l) = archiveEnv w := by
        unfold archiveEnv
        rw [he]
        rfl
      simp only [List.mem_cons, exists_eq_or_imp, hl, false_or, ha, he]

theorem handleArchiveLayer_not_panics (b : Bytes) (d : Digest) :
    ¬ (handleArchiveLayer P cache b d w).Panics := by
  rw [handleArchiveLayer_eq]
  rintro ⟨m, h⟩
  cases hu : P.oci.unpackArchiveLayer cache w.files b d <;> rw [hu] at h <;> cases h

theorem loadLayer_not_panics : ¬ (loadLayer P cache n l w).Panics := by
  unfold loadLayer
  cases kindOf P.oci l with
  | application | wasm | data =>
    simp only [bind_panics, context_panics, ofResult_not_panics, pure_not_panics, and_false,
      exists_false, or_self, not_false_eq_true]
  | archive =>
    simp only [bind_panics, context_panics, handleArchiveLayer_not_panics, pure_not_panics,
      and_false, exists_false, or_self, not_false_eq_true]
  | wkg =>
    by_cases hn : n = 1
    · simp only [hn, ne_eq, not_true_eq_false, ↓reduceIte, bind_panics, ofResult_not_panics,
        pure_not_panics, and_false, exists_false, or_self, not_false_eq_true]
    · simp only [hn, ne_eq, not_false_eq_true, ↓reduceIte, bind_panics, ofResult_not_panics,
        bail_not_panics, and_false, exists_false, or_self]
  | unknown => exact pure_not_panics _

theorem loadLayers_not_panics : ¬ (loadLayers P cache n layers w).Panics := by
  induction layers generalizing w with
  | nil => exact pure_not_panics _
  | cons l rest ih =>
    unfold loadLayers
    rw [bind_panics]
    rintro (h | ⟨flow, _, h⟩)
    · exact loadLayer_not_panics h
    · cases flow with
      | next w₁ => exact ih h
      | done src w₁ => exact pure_not_panics _ h

theorem fromCtx_not_panics (ctx : RuntimeContext) : ¬ (fromCtx P ctx cache w).Panics := by
  unfold fromCtx
  cases ctx.source with
  | file path => exact pure_not_panics _
  | oci layers => exact loadLayers_not_panics

def hasArchive (oci : SpinOci) (ctx : RuntimeContext) : Bool :=
  match ctx.source with
  | .oci layers => layers.any fun l => kindOf oci l = .archive
  | .file _ => false

theorem fromCtx_env {ctx : RuntimeContext} (h : fromCtx P ctx cache w = .ok (src, w')) :
    w'.env = (if hasArchive P.oci ctx = true then archiveEnv w else w.env) ∧ w'.cwd = w.cwd := by
  cases hs : ctx.source with
  | file path =>
    simp only [fromCtx, hs] at h
    cases h
    simp only [hasArchive, hs, Bool.false_eq_true, ↓reduceIte, and_self]
  | oci layers =>
    have hw := (fromCtx_ok hs h).1
    have hany : hasArchive P.oci ctx = true ↔ ∃ l ∈ layers, kindOf P.oci l = .archive := by
      simp only [hasArchive, hs, List.any_eq_true, decide_eq_true_eq]
    rw [hw, afterLayers_env, afterLayers_cwd]
    simp only [hany, and_self]

/-- The system carries out every write that it is asked for. -/
structure Reliable (P : Platform) (cache : Cache) : Prop where
  create : ∀ f p, ∃ f', P.fs.create f p = .ok f'
  writeAll : ∀ f p b, ∃ f', P.fs.writeAll f p b = .ok f'
  writeWasm : ∀ f b d, ∃ f', cache.writeWasm f b d = .ok f'
  writeData : ∀ f b d, ∃ f', cache.writeData f b d = .ok f'

def Unpacks (P : Platform) (cache : Cache) (l : WasmLayer) : Prop :=
  ∀ f, ∃ f', P.oci.unpackArchiveLayer cache f l.layer l.config.digest = .ok f'

theorem loadLayer_next_of_reliable (hr : Reliable P cache) (hw : kindOf P.oci l ≠ .wkg)
    (hu : kindOf P.oci l = .archive → Unpacks P cache l) :
    loadLayer P cache n l w = .ok (.next (afterLayer P cache w l)) := by
  have hs : ∃ w', loadLayer P cache n l w = .ok (.next w') := by
    unfold loadLayer
    cases hk : kindOf P.oci l with
    | application =>
      obtain ⟨f₁, h₁⟩ := hr.create w.files spinJson
      obtain ⟨f₂, h₂⟩ := hr.writeAll f₁ spinJson l.layer
      simp only [h₁, h₂, ofResult, Outcome.context, ok_bind]
      exact ⟨_, rfl⟩
    | wasm =>
      obtain ⟨f, h⟩ := hr.writeWasm w.files l.layer l.config.digest
      simp only [h, ofResult, ok_bind]
      exact ⟨_, rfl⟩
    | wkg => exact (hw hk).elim
    | data =>
      obtain ⟨f, h⟩ := hr.writeData w.files l.layer l.config.digest
      simp only [h, ofResult, ok_bind]
      exact ⟨_, rfl⟩
    | archive =>
      obtain ⟨f, h⟩ := hu hk w.files
      simp only [handleArchiveLayer_eq, h, ofResult]
      exact ⟨_, rfl⟩
    | unknown => exact ⟨w, rfl⟩
  obtain ⟨w', h⟩ := hs
  rw [h, (loadLayer_next h).2]

theorem loadLayers_of_reliable (hr : Reliable P cache)
    (hw : ∀ l ∈ layers, kindOf P.oci l ≠ .wkg)
    (hu : ∀ l ∈ layers, kindOf P.oci l = .archive → Unpacks P cache l) :
    loadLayers P cache n layers w = .ok (.ociSpin, afterLayers P cache layers w) := by
  induction layers generalizing w with
  | nil => rfl
  | cons l rest ih =>
    rw [List.forall_mem_cons] at hw hu
    unfold loadLayers
    rw [loadLayer_next_of_reliable hr hw.1 hu.1]
    exact ih hw.2 hu.2

theorem loadLayer_wkg_of_reliable (hr : Reliable P cache) (hk : kindOf P.oci l = .wkg) :
    loadLayer P cache 1 l w = .ok (.done (.ociWkg (cache.wasmPath l.config.digest))
      (afterLayer P cache w l)) := by
  have hs : ∃ src w', loadLayer P cache 1 l w = .ok (.done src w') := by
    obtain ⟨f, h⟩ := hr.writeWasm w.files l.layer l.config.digest
    simp only [loadLayer, hk, h, ofResult, ok_bind]
    exact ⟨_, _, rfl⟩
  obtain ⟨src, w', h⟩ := hs
  obtain ⟨_, _, hsrc, hw⟩ := loadLayer_done h
  rw [h, hsrc, hw]

end ShimSpin
