import ShimSpin.InMemory

namespace ShimSpin
set_option autoImplicit true

inductive CompilesTo (wt : Wasmtime) (l : WasmLayer) : Option Bytes → Prop where
  | other : isWasmContent l = none → CompilesTo wt l none
  | cached : (isWasmContent l).isSome → l.precompiled = true →
      (wt.detectPrecompiled l.layer).isSome → CompilesTo wt l none
  | compiled : (isWasmContent l).isSome → l.precompiled = false →
      wt.componentizeIfNecessary l.layer = .ok c → wt.precompileComponent c = .ok b →
      CompilesTo wt l (some b)

/-- A layer that has been compiled, as the framework hands it over from then on. -/
def withCompiled (l : WasmLayer) : Option Bytes → WasmLayer
  | some b => { l with layer := b, precompiled := true }
  | none => l

def substitute (layers : List WasmLayer) (compiled : List (Option Bytes)) : List WasmLayer :=
  layers.zipWith withCompiled compiled

def Compilable (wt : Wasmtime) (l : WasmLayer) : Prop :=
  (l.precompiled = true ∧ (wt.detectPrecompiled l.layer).isSome) ∨
    (l.precompiled = false ∧ ∃ c b, wt.componentizeIfNecessary l.layer = .ok c ∧
      wt.precompileComponent c = .ok b)

/-- The entries of a compiled image: one for each layer, and bytes for those layers only
whose Wasm does not come from the cache. -/
structure CompiledEntries (wt : Wasmtime) (layers : List WasmLayer) (out : List (Option Bytes)) :
    Prop where
  length : out.length = layers.length
  compiled : ∀ (i : Nat) l, layers[i]? = some l → (isWasmContent l).isSome → l.precompiled = false →
    ∃ c b, wt.componentizeIfNecessary l.layer = .ok c ∧ wt.precompileComponent c = .ok b ∧
      out[i]? = some (some b)
  skipped : ∀ (i : Nat) l, layers[i]? = some l →
    ¬ ((isWasmContent l).isSome ∧ l.precompiled = false) → out[i]? = some none

/-- The image that the framework runs: what the gate lets through is what was compiled. -/
structure CachedImage (wt : Wasmtime) (layers layers' : List WasmLayer) : Prop where
  descriptors : layers'.map (·.config) = layers.map (·.config)
  trusted : ∀ l ∈ layers', (isWasmContent l).isSome →
    l.precompiled = true ∧ (wt.detectPrecompiled l.layer).isSome
  unchanged : ∀ (i : Nat) l, layers[i]? = some l → isWasmContent l = none → layers'[i]? = some l
  stable : compile wt layers' = .ok (layers'.map fun _ => none)
  gate : ∀ ctx : RuntimeContext, ctx.source = .oci layers' →
    (layersFromPrecompileCache ctx = true ↔ ∃ l ∈ layers, (isWasmContent l).isSome)

variable {wt : Wasmtime} {l l' : WasmLayer} {layers : List WasmLayer} {o : Option Bytes}
  {out : List (Option Bytes)}

theorem compileLayer_ok : compileLayer wt l = .ok o ↔ CompilesTo wt l o := by
  apply Iff.intro
  · intro h
    rw [compileLayer] at h
    cases hw : isWasmContent l with
    | none =>
      rw [hw] at h
      cases h
      exact .other hw
    | some l' =>
      have hs := Option.isSome_of_eq_some hw
      obtain ⟨he, _⟩ := isWasmContent_eq_some.1 hw
      subst he
      simp only [hw] at h
      cases hp : l'.precompiled with
      | true =>
        rw [hp, if_pos rfl] at h
        by_cases hd : (wt.detectPrecompiled l'.layer).isSome
        · rw [if_pos hd] at h
          cases h
          exact .cached hs hp hd
        · rw [if_neg hd] at h
          cases h
      | false =>
        rw [hp, if_neg Bool.false_ne_true] at h
        obtain ⟨c, hc, h⟩ := bind_eq_ok.1 h
        obtain ⟨b, hb, h⟩ := bind_eq_ok.1 h
        cases h
        exact .compiled hs hp (ofResult_eq_ok.1 hc) (ofResult_eq_ok.1 hb)
  · have hself (hs : (isWasmContent l).isSome) : isWasmContent l = some l := by
      obtain ⟨l', hw⟩ := Option.isSome_iff_exists.1 hs
      rw [hw, (isWasmContent_eq_some.1 hw).1]
    intro h
    cases h with
    | other hw =>
      rw [compileLayer, hw]
      rfl
    | cached hs hp hd =>
      simp only [compileLayer, hself hs, hp, ↓reduceIte, hd]
      rfl
    | compiled hs hp hc hb =>
      simp only [compileLayer, hself hs, hp, Bool.false_eq_true, ↓reduceIte, hc, ofResult,
        ok_bind, hb]
      rfl

theorem compile_ok : compile wt layers = .ok out ↔ List.Forall₂ (CompilesTo wt) layers out := by
  simp only [compile, mapM_eq_ok, compileLayer_ok]

theorem exists_compilesTo :
    (∃ o, CompilesTo wt l o) ↔ ((isWasmContent l).isSome → Compilable wt l) := by
  apply Iff.intro
  · intro ⟨o, h⟩ hs
    cases h with
    | other hw =>
      rw [hw] at hs
      cases hs
    | cached _ hp hd => exact .inl ⟨hp, hd⟩
    | compiled _ hp hc hb => exact .inr ⟨hp, _, _, hc, hb⟩
  · intro h
    cases hw : isWasmContent l with
    | none => exact ⟨none, .other hw⟩
    | some l' =>
      have hs := Option.isSome_of_eq_some hw
      rcases h hs with ⟨hp, hd⟩ | ⟨hp, c, b, hc, hb⟩
      · exact ⟨none, .cached hs hp hd⟩
      · exact ⟨some b, .compiled hs hp hc hb⟩

theorem compile_succeeds_iff : (∃ out, compile wt layers = .ok out) ↔
    ∀ l ∈ layers, (isWasmContent l).isSome → Compilable wt l := by
  simp only [compile_ok]
  apply Iff.intro
  · intro ⟨out, h⟩ l hl
    obtain ⟨o, _, ho⟩ := forall₂_mem_left h hl
    exact exists_compilesTo.1 ⟨o, ho⟩
  · intro h
    induction layers with
    | nil => exact ⟨[], .nil⟩
    | cons l rest ih =>
      rw [List.forall_mem_cons] at h
      obtain ⟨o, ho⟩ := exists_compilesTo.2 h.1
      obtain ⟨out, hout⟩ := ih h.2
      exact ⟨o :: out, .cons ho hout⟩

theorem withCompiled_config (l : WasmLayer) (o : Option Bytes) :
    (withCompiled l o).config = l.config := by
  cases o <;> rfl

theorem withCompiled_isWasm (l : WasmLayer) (o : Option Bytes) :
    (isWasmContent (withCompiled l o)).isSome ↔ (isWasmContent l).isSome := by
  rw [isWasmContent_isSome, isWasmContent_isSome, withCompiled_config]

/-- The pass has nothing left to do for a layer that it has compiled. -/
theorem CompilesTo.again (h : CompilesTo wt l o) : CompilesTo wt (withCompiled l o) none := by
  cases h with
  | other hw => exact .other hw
  | cached hs hp hd => exact .cached hs hp hd
  | @compiled c b hs hp hc hb =>
    exact .cached ((withCompiled_isWasm l (some b)).2 hs) rfl (wt.detect_precompileComponent hb)

theorem CompilesTo.trusted (h : CompilesTo wt l none) (hs : (isWasmContent l).isSome) :
    l.precompiled = true ∧ (wt.detectPrecompiled l.layer).isSome := by
  cases h with
  | other hw =>
    rw [hw] at hs
    cases hs
  | cached _ hp hd => exact ⟨hp, hd⟩

theorem substitute_forall₂ (h : List.Forall₂ (CompilesTo wt) layers out) :
    List.Forall₂ (fun l l' => ∃ o, CompilesTo wt l o ∧ l' = withCompiled l o) layers
      (substitute layers out) := by
  induction h with
  | nil => exact .nil
  | cons ho _ ih => exact .cons ⟨_, ho, rfl⟩ ih

theorem substitute_descriptors (h : List.Forall₂ (CompilesTo wt) layers out) :
    (substitute layers out).map (·.config) = layers.map (·.config) := by
  induction h with
  | nil => rfl
  | @cons l o _ _ _ _ ih =>
    change (withCompiled l o).config :: _ = l.config :: _
    rw [withCompiled_config, ← ih]
    rfl

theorem compiledEntries (h : List.Forall₂ (CompilesTo wt) layers out) :
    CompiledEntries wt layers out := by
  apply CompiledEntries.mk
  · exact h.length_eq.symm
  · intro i l hl hs hp
    obtain ⟨o, ho, hc⟩ := forall₂_getElem? h hl
    cases hc with
    | other hw =>
      rw [hw] at hs
      cases hs
    | cached _ hp' _ =>
      rw [hp] at hp'
      cases hp'
    | compiled _ _ hc hb => exact ⟨_, _, hc, hb, ho⟩
  · intro i l hl hn
    obtain ⟨o, ho, hc⟩ := forall₂_getElem? h hl
    cases hc with
    | other _ => exact ho
    | cached _ _ _ => exact ho
    | compiled hs hp _ _ => exact (hn ⟨hs, hp⟩).elim

theorem cachedImage (h : List.Forall₂ (CompilesTo wt) layers out) :
    CachedImage wt layers (substitute layers out) := by
  have hsub := substitute_forall₂ h
  have hagain : ∀ l ∈ substitute layers out, CompilesTo wt l none := by
    intro l' hl'
    obtain ⟨l, _, o, hc, he⟩ := forall₂_mem_right hsub hl'
    rw [he]
    exact hc.again
  have htrusted : ∀ l ∈ substitute layers out, (isWasmContent l).isSome →
      l.precompiled = true ∧ (wt.detectPrecompiled l.layer).isSome :=
    fun l hl => (hagain l hl).trusted
  apply CachedImage.mk
  · exact substitute_descriptors h
  · exact htrusted
  · intro i l hl hw
    obtain ⟨l', hl', o, hc, he⟩ := forall₂_getElem? hsub hl
    have ho : o = none := by
      cases hc with
      | other _ => rfl
      | cached hs _ _ => rfl
      | compiled hs _ _ _ =>
        rw [hw] at hs
        cases hs
    rw [hl', he, ho]
    rfl
  · rw [compile_ok, List.forall₂_map_right_iff, List.forall₂_same]
    exact hagain
  · intro ctx hctx
    rw [layersFromPrecompileCache_oci hctx]
    apply Iff.intro
    · intro ⟨⟨l', hl', hs⟩, _⟩
      obtain ⟨l, hl, o, _, rfl⟩ := forall₂_mem_right hsub hl'
      exact ⟨l, hl, (withCompiled_isWasm l o).1 hs⟩
    · intro ⟨l, hl, hs⟩
      obtain ⟨l', hl', o, _, rfl⟩ := forall₂_mem_left hsub hl
      apply And.intro ⟨_, hl', (withCompiled_isWasm l o).2 hs⟩
      exact fun l' hl' hs' => (htrusted l' hl' hs').1

/-- The pass accepts exactly the images that it can compile, its entries line up with the
layers, and what it leaves is what the gate trusts. -/
theorem compile_agrees_with_gate (wt : Wasmtime) (layers : List WasmLayer) :
    ((∃ out, compile wt layers = .ok out) ↔
      ∀ l ∈ layers, (isWasmContent l).isSome → Compilable wt l) ∧
    ∀ out, compile wt layers = .ok out →
      CompiledEntries wt layers out ∧ CachedImage wt layers (substitute layers out) := by
  apply And.intro compile_succeeds_iff
  intro out h
  have hall := compile_ok.1 h
  exact ⟨compiledEntries hall, cachedImage hall⟩

end ShimSpin
