import Mathlib.Data.Finset.Sort
import Mathlib.Data.String.Basic
import ShimSpin.LayerStore

namespace ShimSpin
set_option autoImplicit true

def Fs.inMemory : Fs where
  create f p := .ok (Function.update f p (some []))
  writeAll f p b := .ok (Function.update f p (some ((f p).getD [] ++ b)))
  read f p :=
    match f p with
    | some b => .ok b
    | none => .error ["No such file or directory (os error 2)"]
  create_ok h := by cases h; rfl
  writeAll_ok h ho := by cases h; rw [ho]; rfl
  read_ok {f p b} h := by
    cases hf : f p with
    | none => simp only [hf, reduceCtorEq] at h
    | some c => simpa only [hf, Except.ok.injEq, Option.some.injEq] using h

/-- The layout that Spin gives a cache at `/.cache`. -/
def Cache.inMemory : Cache where
  wasmPath d := "/.cache/registry/wasm/" ++ d
  dataPath d := "/.cache/registry/data/" ++ d
  writeWasm f b d := .ok (Function.update f ("/.cache/registry/wasm/" ++ d) (some b))
  writeData f b d := .ok (Function.update f ("/.cache/registry/data/" ++ d) (some b))
  wasmPath_injective _ _ h := (String.append_right_inj _).1 h
  dataPath_injective _ _ h := (String.append_right_inj _).1 h
  wasmPath_ne_dataPath d d' h := by
    have := congrArg String.toList h
    simp at this
  wasmPath_ne_spinJson d h := by
    have := congrArg String.toList h
    simp [spinJson] at this
  dataPath_ne_spinJson d h := by
    have := congrArg String.toList h
    simp [spinJson] at this
  writeWasm_ok h := by cases h; rfl
  writeData_ok h := by cases h; rfl

def byteDigest (b : Bytes) : Digest :=
  "sha256:" ++ String.ofList (b.map (fun x => Char.ofNat x.toNat))

/-- Archives whose files stand between zero bytes. -/
def SpinOci.inMemory : SpinOci where
  spinApplicationMediaType := "application/vnd.fermyon.spin.application.v1+config"
  dataMediatype := "application/vnd.wasm.content.layer.v1+data"
  archiveMediatype := "application/vnd.wasm.content.bundle.v1.tar+gzip"
  mediaTypes_nodup := by decide
  fileDigest := byteDigest
  archiveFiles b := (b.splitOn 0).filter (· ≠ [])
  unpackArchiveLayer cache f b d := .ok (KeyedStore.run (.put (cache.dataPath d) b ::
    ((b.splitOn 0).filter (· ≠ [])).map (fun m => .fill (cache.dataPath (byteDigest m)) m)) f)
  unpackArchiveLayer_ok h := by cases h; rfl

def LockedMap.map (m : LockedMap α) (g : α → β) : LockedMap β where
  entries := m.entries.map (fun e => (e.1, g e.2))
  sorted := List.pairwise_map.2 m.sorted

def LockedMap.empty : LockedMap α := ⟨[], .nil⟩

def fileUrl (p : PathBuf) : String := "file://" ++ p

def foundRef (cache : Cache) (f : Files) (r : ContentRef) : Option PathBuf :=
  r.digest.bind (cache.wasmFile f)

def resolvedRef (cache : Cache) (f : Files) (r : ContentRef) : ContentRef :=
  match foundRef cache f r with
  | some p => ⟨some (fileUrl p), none, none⟩
  | none => r

def resolvable (cache : Cache) (f : Files) (c : LockedComponent) : Bool :=
  c.wasmRefs.all (fun r => (foundRef cache f r).isSome) && c.files.all (fun file =>
    file.content.inline.isSome || (file.content.digest.bind (cache.dataFile f)).isSome)

theorem resolvedRef_found {cache : Cache} {f : Files} {r : ContentRef}
    (h : (foundRef cache f r).isSome) : ResolvedRef fileUrl cache f r (resolvedRef cache f r) := by
  obtain ⟨p, hp⟩ := Option.isSome_iff_exists.1 h
  obtain ⟨d, hd, hw⟩ := Option.bind_eq_some_iff.1 hp
  exact ⟨d, p, hd, hw, by rw [resolvedRef, hp]⟩

theorem resolvable_iff {cache : Cache} {f : Files} {c : LockedComponent} :
    resolvable cache f c = true ↔ Resolvable cache f c := by
  simp only [resolvable, Bool.and_eq_true, List.all_eq_true, Bool.or_eq_true, foundRef]
  refine ⟨fun h => ⟨fun r hr => ?_, fun file hf hi => ?_⟩,
    fun h => ⟨fun r hr => ?_, fun file hf => ?_⟩⟩
  · obtain ⟨p, hp⟩ := Option.isSome_iff_exists.1 (h.1 r hr)
    obtain ⟨d, hd, hw⟩ := Option.bind_eq_some_iff.1 hp
    exact ⟨d, hd, by rw [hw]; rfl⟩
  · rcases h.2 file hf with hs | hs
    · rw [hi] at hs
      cases hs
    · obtain ⟨p, hp⟩ := Option.isSome_iff_exists.1 hs
      obtain ⟨d, hd, hw⟩ := Option.bind_eq_some_iff.1 hp
      exact ⟨d, hd, by rw [hw]; rfl⟩
  · obtain ⟨d, hd, hw⟩ := h.wasm r hr
    rw [hd]
    exact hw
  · cases hi : file.content.inline with
    | some b => exact .inl rfl
    | none =>
      obtain ⟨d, hd, hw⟩ := h.files file hf hi
      rw [hd]
      exact .inr hw

def OciLoader.inMemory : OciLoader where
  fileUrl := ShimSpin.fileUrl
  fileUrl_injective _ _ h := (String.append_right_inj _).1 h
  resolveComponentContentRefs cache f c :=
    if resolvable cache f c then
      .ok ({ c with
        source := resolvedRef cache f c.source
        dependencies := c.dependencies.map (resolvedRef cache f) }, f)
    else .error ["cannot find file for digest"]
  resolve_ok {cache f c c' f'} h := by
    by_cases hr : resolvable cache f c
    · rw [if_pos hr] at h
      cases h
      have hw := hr
      simp only [resolvable, Bool.and_eq_true, List.all_eq_true] at hw
      refine ⟨resolvable_iff.1 hr, rfl, resolvedRef_found (hw.1 _ List.mem_cons_self), ?_⟩
      simp only [LockedMap.map, List.forall₂_map_right_iff, List.forall₂_same]
      intro e he
      exact ⟨trivial, resolvedRef_found (hw.1 _ (List.mem_cons_of_mem _ (List.mem_map_of_mem he)))⟩
    · rw [if_neg hr] at h
      cases h
  resolve_wasmPath {cache f c c' f'} h d := by
    by_cases hr : resolvable cache f c
    · rw [if_pos hr] at h
      cases h
      rfl
    · rw [if_neg hr] at h
      cases h
  resolve_dataPath {cache f c c' f'} h d := by
    by_cases hr : resolvable cache f c
    · rw [if_pos hr] at h
      cases h
      rfl
    · rw [if_neg hr] at h
      cases h

/-- A platform on which every write succeeds and whose decoder knows one app. -/
def Platform.inMemory (app : LockedApp) : Platform where
  fs := .inMemory
  oci := .inMemory
  loader := .inMemory
  newCache _ := .ok .inMemory
  fromJson _ := .ok app
  fromFile _ _ := .ok app
  fromWasmFile _ _ := .error ["not a Wasm file"]
  fromWasmFile_ok h := by cases h

/-- Precompiled artifacts are ELF files, recognised by their magic number. -/
def Wasmtime.inMemory : Wasmtime where
  detectPrecompiled b := if [127, 69, 76, 70] <+: b then some .component else none
  componentizeIfNecessary b := .ok b
  precompileComponent b := .ok ([127, 69, 76, 70] ++ b)
  detect_precompileComponent h := by
    cases h
    rw [if_pos (List.prefix_append _ _)]
    rfl

def LockedApp.bare : LockedApp := ⟨.empty, .empty, [], []⟩

def componentApp (digest : Digest) : LockedApp :=
  ⟨.empty, .empty, [], [⟨"hello", ⟨none, none, some digest⟩, .empty, []⟩]⟩

def componentJson (digest : Digest) : Bytes :=
  ("\x7b\"spin_lock_version\": 1, \"triggers\": [], \"components\": [\x7b\"id\": \"hello\", " ++
    "\"source\": \x7b\"content_type\": \"application/wasm\", \"digest\": \"" ++ digest ++
    "\"\x7d\x7d]\x7d").toUTF8.data.toList

def layerOf (type : String) (layer : Bytes) (digest : Digest) : WasmLayer :=
  ⟨layer, false, ⟨.other type, digest⟩⟩

def imageCtx (layers : List WasmLayer) : RuntimeContext := ⟨[], [], .oci layers⟩

def World.bare (env : Env) : World := ⟨fun _ => none, env, none⟩

def SpinApp.inMemory : SpinApp where
  retainComponents app ids vs :=
    if (∀ id ∈ ids, app.HasComponent id) ∧ ∀ v ∈ vs, (v app ids).isOk then .ok (app.retained ids)
    else .error ["invalid selection"]
  validateServiceChainingForComponents _ _ := .ok ()
  retain_ok {app ids vs app'} h := by
    split at h
    · rename_i hv
      cases h
      refine ⟨rfl, hv.1, fun v hm => ?_⟩
      cases hr : v app ids with
      | ok u => rfl
      | error e => cases hr ▸ hv.2 v hm
    · cases h
  retain_total {ids app vs} hk hv := by
    rw [if_pos ⟨hk, fun v hm => by rw [hv v hm]; rfl⟩]
    exact ⟨_, rfl⟩
  validate_congr _ h := h

def TriggerHost.inMemory : TriggerHost String where
  new _ _ _ := .ok ()
  run _ _ _ _ _ _ := .ok (.ok ())
  parseLimit := String.toNat?
  toSocketAddrs addr := .ok [addr]

def HashIter.inMemory : HashIter where
  order s := s.sort (· ≤ ·)
  nodup s := s.sort_nodup (· ≤ ·)
  mem_order := Finset.mem_sort (· ≤ ·)

def Scheduler.inMemory : Scheduler where
  first _ := 0
  first_lt := List.length_pos_of_ne_nil

def Host.inMemory (app : LockedApp) : Host String where
  platform := .inMemory app
  spinApp := .inMemory
  triggers := .inMemory
  hash := .inMemory
  scheduler := .inMemory
  telemetryInit := .ok ()
  setHandler := .ok ()

theorem inMemory_reliable (app : LockedApp) : Reliable (.inMemory app) .inMemory :=
  ⟨fun _ _ => ⟨_, rfl⟩, fun _ _ _ => ⟨_, rfl⟩, fun _ _ _ => ⟨_, rfl⟩, fun _ _ _ => ⟨_, rfl⟩⟩

theorem inMemory_unpacks (app : LockedApp) (l : WasmLayer) :
    Unpacks (.inMemory app) .inMemory l := fun _ => ⟨_, rfl⟩

end ShimSpin
