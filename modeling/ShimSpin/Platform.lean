import Mathlib.Logic.Function.Basic
import ShimSpin.Lib.Store
import ShimSpin.Env
import ShimSpin.Locked

namespace ShimSpin
set_option autoImplicit true

abbrev Files := KeyedStore.Store PathBuf Bytes

def spinJson : PathBuf := "/spin.json"

/-- The file system calls of the shim. A call that does not fail did what it says. -/
structure Fs where
  create : Files → PathBuf → Except Error Files
  writeAll : Files → PathBuf → Bytes → Except Error Files
  read : Files → PathBuf → Except Error Bytes
  create_ok : create f p = .ok f' → f' = Function.update f p (some [])
  writeAll_ok : writeAll f p b = .ok f' → f p = some old →
    f' = Function.update f p (some (old ++ b))
  read_ok : read f p = .ok b → f p = some b

structure Cache where
  wasmPath : Digest → PathBuf
  dataPath : Digest → PathBuf
  writeWasm : Files → Bytes → Digest → Except Error Files
  writeData : Files → Bytes → Digest → Except Error Files
  wasmPath_injective : Function.Injective wasmPath
  dataPath_injective : Function.Injective dataPath
  wasmPath_ne_dataPath : ∀ d d', wasmPath d ≠ dataPath d'
  wasmPath_ne_spinJson : ∀ d, wasmPath d ≠ spinJson
  dataPath_ne_spinJson : ∀ d, dataPath d ≠ spinJson
  writeWasm_ok : writeWasm f b d = .ok f' → f' = Function.update f (wasmPath d) (some b)
  writeData_ok : writeData f b d = .ok f' → f' = Function.update f (dataPath d) (some b)

/-- The cache looks for Wasm in its Wasm area and falls back on the data area. -/
def Cache.wasmFile (cache : Cache) (f : Files) (d : Digest) : Option PathBuf :=
  if (f (cache.wasmPath d)).isSome then some (cache.wasmPath d)
  else if (f (cache.dataPath d)).isSome then some (cache.dataPath d)
  else none

def Cache.dataFile (cache : Cache) (f : Files) (d : Digest) : Option PathBuf :=
  if (f (cache.dataPath d)).isSome then some (cache.dataPath d) else none

def Cache.Empty (cache : Cache) (f : Files) : Prop :=
  ∀ d, f (cache.wasmPath d) = none ∧ f (cache.dataPath d) = none

/-- Spin's OCI client: the media types of its layers and how it unpacks an archive. The
files of an archive go to the data area under the digest of their bytes, except for those
whose digest is already there. -/
structure SpinOci where
  spinApplicationMediaType : String
  dataMediatype : String
  archiveMediatype : String
  mediaTypes_nodup : [spinApplicationMediaType, ociLayerMediaTypeWasm, ociLayerMediaTypeWasmWkg,
    dataMediatype, archiveMediatype].Nodup
  fileDigest : Bytes → Digest
  archiveFiles : Bytes → List Bytes
  unpackArchiveLayer : Cache → Files → Bytes → Digest → Except Error Files
  unpackArchiveLayer_ok : unpackArchiveLayer cache f b d = .ok f' →
    f' = KeyedStore.run (.put (cache.dataPath d) b ::
      (archiveFiles b).map (fun m => .fill (cache.dataPath (fileDigest m)) m)) f

structure ResolvedRef (url : PathBuf → String) (cache : Cache) (f : Files)
    (r r' : ContentRef) : Prop where
  found : ∃ d p, r.digest = some d ∧ cache.wasmFile f d = some p ∧
    r' = ⟨some (url p), none, none⟩

structure Resolvable (cache : Cache) (f : Files) (c : LockedComponent) : Prop where
  wasm : ∀ r ∈ c.wasmRefs, ∃ d, r.digest = some d ∧ (cache.wasmFile f d).isSome
  files : ∀ file ∈ c.files, file.content.inline = none →
    ∃ d, file.content.digest = some d ∧ (cache.dataFile f d).isSome

structure ResolvedComponent (url : PathBuf → String) (cache : Cache) (f : Files)
    (c c' : LockedComponent) : Prop where
  lookups : Resolvable cache f c
  id : c'.id = c.id
  source : ResolvedRef url cache f c.source c'.source
  dependencies : List.Forall₂ (fun e e' => e'.1 = e.1 ∧ ResolvedRef url cache f e.2 e'.2)
    c.dependencies.entries c'.dependencies.entries

/-- Spin's loader of image content. Mounting the files of a component touches neither the
cache nor the locked app. -/
structure OciLoader where
  fileUrl : PathBuf → String
  resolveComponentContentRefs : Cache → Files → LockedComponent →
    Except Error (LockedComponent × Files)
  fileUrl_injective : Function.Injective fileUrl
  resolve_ok : resolveComponentContentRefs cache f c = .ok (c', f') →
    ResolvedComponent fileUrl cache f c c'
  resolve_wasmPath : resolveComponentContentRefs cache f c = .ok (c', f') →
    ∀ d, f' (cache.wasmPath d) = f (cache.wasmPath d)
  resolve_dataPath : resolveComponentContentRefs cache f c = .ok (c', f') →
    ∀ d, f' (cache.dataPath d) = f (cache.dataPath d)

structure Platform where
  fs : Fs
  oci : SpinOci
  loader : OciLoader
  newCache : PathBuf → Except Error Cache
  fromJson : Bytes → Except Error LockedApp
  fromFile : Files → PathBuf → Except Error LockedApp
  fromWasmFile : Files → PathBuf → Except Error LockedApp
  fromWasmFile_ok : fromWasmFile f p = .ok app →
    ∀ r ∈ app.wasmRefs, r.source = some (loader.fileUrl p)

/-- A path the system reports holds no NUL byte. -/
abbrev OsPath := {p : OsString // p.NulFree}

structure World where
  files : Files
  env : Env
  cwd : Option OsPath

theorem World.ext {w w' : World} (hf : w.files = w'.files) (he : w.env = w'.env)
    (hc : w.cwd = w'.cwd) : w = w' := by
  cases w
  cases w'
  simp only [World.mk.injEq]
  exact ⟨hf, he, hc⟩

end ShimSpin
