import Mathlib.Data.List.Basic

namespace ShimSpin
set_option autoImplicit true

abbrev Bytes := List UInt8

abbrev Digest := String

abbrev PathBuf := String

def spinAddrDefault : String := "0.0.0.0:80"

def spinHttpListenAddrEnv : String := "SPIN_HTTP_LISTEN_ADDR"

def ociLayerMediaTypeWasm : String := "application/vnd.wasm.content.layer.v1+wasm"

def ociLayerMediaTypeWasmWkg : String := "application/wasm"

def spinManifestFilePath : PathBuf := "/spin.toml"

/-- The prefix under which Spin's environment provider looks for application variables. -/
def spinApplicationVariablePrefix : String := "SPIN_VARIABLE"

def spinComponentsToRetainEnv : String := "SPIN_COMPONENTS_TO_RETAIN"

/-- `oci_spec`'s media types: those it has a variant for, which the shim never tells
apart, and all others. -/
inductive MediaType where
  | known (name : String)
  | other (name : String)
  deriving DecidableEq

structure Descriptor where
  mediaType : MediaType
  digest : Digest
  deriving DecidableEq

/-- A layer as containerd hands it over. `precompiled` marks bytes from its local
precompile cache. -/
structure WasmLayer where
  layer : Bytes
  precompiled : Bool
  config : Descriptor
  deriving DecidableEq

def isWasmContent (layer : WasmLayer) : Option WasmLayer :=
  match layer.config.mediaType with
  | .other name =>
    if name = ociLayerMediaTypeWasm ∨ name = ociLayerMediaTypeWasmWkg then some layer else none
  | .known _ => none

theorem isWasmContent_eq_some {l l' : WasmLayer} :
    isWasmContent l = some l' ↔ l' = l ∧ (l.config.mediaType = .other ociLayerMediaTypeWasm ∨
      l.config.mediaType = .other ociLayerMediaTypeWasmWkg) := by
  unfold isWasmContent
  cases hm : l.config.mediaType with
  | known name => simp
  | other name =>
    by_cases h : name = ociLayerMediaTypeWasm ∨ name = ociLayerMediaTypeWasmWkg
    · simp only [h, ↓reduceIte, Option.some.injEq, MediaType.other.injEq, and_true]
      exact eq_comm
    · simp only [h, ↓reduceIte, reduceCtorEq, MediaType.other.injEq, and_false]

theorem isWasmContent_isSome (l : WasmLayer) :
    (isWasmContent l).isSome ↔ l.config.mediaType = .other ociLayerMediaTypeWasm ∨
      l.config.mediaType = .other ociLayerMediaTypeWasmWkg := by
  rw [Option.isSome_iff_exists]
  apply Iff.intro
  · rintro ⟨l', h⟩
    exact (isWasmContent_eq_some.1 h).2
  · intro h
    exact ⟨l, isWasmContent_eq_some.2 ⟨rfl, h⟩⟩

/-- Where a container's program comes from, as the runtime framework reports it. -/
inductive ContextSource where
  | file (path : PathBuf)
  | oci (layers : List WasmLayer)

structure RuntimeContext where
  args : List String
  envs : List String
  source : ContextSource

/-- True when the image has Wasm layers and all of them come from the precompile cache. -/
def layersFromPrecompileCache (ctx : RuntimeContext) : Bool :=
  match ctx.source with
  | .oci layers =>
    let wasmLayers := layers.filter (fun l => (isWasmContent l).isSome)
    !wasmLayers.isEmpty && wasmLayers.all (·.precompiled)
  | .file _ => false

theorem layersFromPrecompileCache_oci {ctx : RuntimeContext} (hs : ctx.source = .oci layers) :
    layersFromPrecompileCache ctx = true ↔
      (∃ l ∈ layers, (isWasmContent l).isSome) ∧
        ∀ l ∈ layers, (isWasmContent l).isSome → l.precompiled = true := by
  simp only [layersFromPrecompileCache, hs, Bool.and_eq_true, Bool.not_eq_true',
    List.isEmpty_eq_false_iff_exists_mem, List.mem_filter, List.all_eq_true, and_imp]

end ShimSpin
