import ShimSpin.Utils

namespace ShimSpin
set_option autoImplicit true

inductive Source where
  | file (path : PathBuf)
  | ociSpin
  | ociWkg (path : PathBuf)
  deriving DecidableEq

def Source.debug : Source → String
  | .file path => "File(" ++ path ++ ")"
  | .ociSpin => "OciSpin"
  | .ociWkg path => "OciWkg(" ++ path ++ ")"

/-- The arms of the match on a layer's media type. -/
inductive LayerKind where
  | application
  | wasm
  | wkg
  | data
  | archive
  | unknown
  deriving DecidableEq

/-- The first arm whose guard a media type passes. -/
def layerKind (oci : SpinOci) (m : MediaType) : LayerKind :=
  match m with
  | .other name =>
    if name = oci.spinApplicationMediaType then .application
    else if name = ociLayerMediaTypeWasm then .wasm
    else if name = ociLayerMediaTypeWasmWkg then .wkg
    else if name = oci.dataMediatype then .data
    else if name = oci.archiveMediatype then .archive
    else .unknown
  | .known _ => .unknown

abbrev kindOf (oci : SpinOci) (l : WasmLayer) : LayerKind := layerKind oci l.config.mediaType

/-- How the loop over the layers goes on after one of them. -/
inductive Flow where
  | next (w : World)
  | done (src : Source) (w : World)

def loadLayer (P : Platform) (cache : Cache) (count : Nat) (artifact : WasmLayer) (w : World) :
    Outcome Flow :=
  match kindOf P.oci artifact with
  | .application => do
    let files ← (ofResult (P.fs.create w.files spinJson)).context "failed to create spin.json"
    let files ← (ofResult (P.fs.writeAll files spinJson artifact.layer)).context
      "failed to write spin.json"
    return .next { w with files }
  | .wasm => do
    let files ← ofResult (cache.writeWasm w.files artifact.layer artifact.config.digest)
    return .next { w with files }
  | .wkg => do
    let files ← ofResult (cache.writeWasm w.files artifact.layer artifact.config.digest)
    if count ≠ 1 then
      bail [.text ("expected single layer in OCI package, found " ++ toString count ++ " layers")]
    else return .done (.ociWkg (cache.wasmPath artifact.config.digest)) { w with files }
  | .data => do
    let files ← ofResult (cache.writeData w.files artifact.layer artifact.config.digest)
    return .next { w with files }
  | .archive => do
    let w ← (handleArchiveLayer P cache artifact.layer artifact.config.digest w).context
      "unable to unpack archive layer"
    return .next w
  | .unknown => return .next w

def loadLayers (P : Platform) (cache : Cache) (count : Nat) :
    List WasmLayer → World → Outcome (Source × World)
  | [], w => return (.ociSpin, w)
  | artifact :: rest, w => do
    match ← loadLayer P cache count artifact w with
    | .next w => loadLayers P cache count rest w
    | .done src w => return (src, w)

def fromCtx (P : Platform) (ctx : RuntimeContext) (cache : Cache) (w : World) :
    Outcome (Source × World) :=
  match ctx.source with
  | .file _ => return (.file spinManifestFilePath, w)
  | .oci layers => loadLayers P cache layers.length layers w

def resolveComponents (P : Platform) (cache : Cache) :
    List LockedComponent → Files → Outcome (List LockedComponent × Files)
  | [], f => return ([], f)
  | component :: rest, f => do
    let (component, f) ←
      (ofResult (P.loader.resolveComponentContentRefs cache f component)).context
        [.text "failed to resolve content for component ", .debug component.id]
    let (rest, f) ← resolveComponents P cache rest f
    return (component :: rest, f)

def toLockedApp (P : Platform) (src : Source) (cache : Cache) (w : World) :
    Outcome (LockedApp × World) :=
  match src with
  | .file path => do
    let app ← ofResult (P.fromFile w.files path)
    return (app, w)
  | .ociSpin => do
    let content ← (ofResult (P.fs.read w.files spinJson)).context
      "failed to read from \"/spin.json\""
    let app ← (ofResult (P.fromJson content)).context
      "failed to decode locked app from \"/spin.json\""
    let (components, files) ← resolveComponents P cache app.components w.files
    return ({ app with components }, { w with files })
  | .ociWkg path => do
    let app ← (ofResult (P.fromWasmFile w.files path)).context
      [.text "Failed to load component from ", .debug path]
    return (app, w)

end ShimSpin
