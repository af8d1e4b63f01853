import ShimSpin.CompleteImage

namespace ShimSpin
set_option autoImplicit true

inductive Defect where
  | package (count : Nat)
  | archive
  | missing
  | undecodable
  | component (id : String)
  | wasm (path : PathBuf)
  deriving DecidableEq

def Defect.message : Defect → Message
  | .package count =>
    [.text ("expected single layer in OCI package, found " ++ toString count ++ " layers")]
  | .archive => "unable to unpack archive layer"
  | .missing => "failed to read from \"/spin.json\""
  | .undecodable => "failed to decode locked app from \"/spin.json\""
  | .component id => [.text "failed to resolve content for component ", .debug id]
  | .wasm path => [.text "Failed to load component from ", .debug path]

def Passes (P : Platform) (cache : Cache) (l : WasmLayer) : Prop :=
  kindOf P.oci l ≠ .wkg ∧ (kindOf P.oci l = .archive → Unpacks P cache l)

/-- The data area gets something under a digest, or has it already. -/
def HasData (oci : SpinOci) (cache : Cache) (layers : List WasmLayer) (before : Files)
    (d : Digest) : Prop :=
  (∃ l ∈ layers, (kindOf oci l = .data ∨ kindOf oci l = .archive) ∧ l.config.digest = d) ∨
    (∃ b ∈ archiveMembers oci layers, oci.fileDigest b = d) ∨ (before (cache.dataPath d)).isSome

/-- So does the area in which Wasm is looked up first, or else the data area. -/
def HasWasm (oci : SpinOci) (cache : Cache) (layers : List WasmLayer) (before : Files)
    (d : Digest) : Prop :=
  (∃ l ∈ layers, (kindOf oci l = .wasm ∨ kindOf oci l = .wkg) ∧ l.config.digest = d) ∨
    (before (cache.wasmPath d)).isSome ∨ HasData oci cache layers before d

/-- Nothing that a component refers to is missing. -/
structure Supplied (oci : SpinOci) (cache : Cache) (layers : List WasmLayer) (before : Files)
    (c : LockedComponent) : Prop where
  wasm : ∀ r ∈ c.wasmRefs, ∃ d, r.digest = some d ∧ HasWasm oci cache layers before d
  files : ∀ file ∈ c.files, file.content.inline = none →
    ∃ d, file.content.digest = some d ∧ HasData oci cache layers before d

/-- The first thing that is wrong with an image, in the order in which the shim gets to it. -/
inductive FirstDefect (P : Platform) (cache : Cache) (layers : List WasmLayer) (before : Files) :
    Defect → Prop where
  | package (hsplit : layers = earlier ++ l :: later) (hpass : ∀ l' ∈ earlier, Passes P cache l')
      (hk : kindOf P.oci l = .wkg) (hn : layers.length ≠ 1) :
      FirstDefect P cache layers before (.package layers.length)
  | archive (hsplit : layers = earlier ++ l :: later) (hpass : ∀ l' ∈ earlier, Passes P cache l')
      (hk : kindOf P.oci l = .archive) (hu : ¬ Unpacks P cache l) :
      FirstDefect P cache layers before .archive
  | missing (hpass : ∀ l ∈ layers, Passes P cache l)
      (hnone : (lastLayer (isApplication P.oci) layers).or (before spinJson) = none) :
      FirstDefect P cache layers before .missing
  | undecodable (hpass : ∀ l ∈ layers, Passes P cache l)
      (hcontent : (lastLayer (isApplication P.oci) layers).or (before spinJson) = some content)
      (hdecode : P.fromJson content = .error e) : FirstDefect P cache layers before .undecodable
  | component (hpass : ∀ l ∈ layers, Passes P cache l)
      (hcontent : (lastLayer (isApplication P.oci) layers).or (before spinJson) = some content)
      (hdecode : P.fromJson content = .ok app) (hsplit : app.components = earlier ++ c :: later)
      (hsupplied : ∀ c' ∈ earlier, Supplied P.oci cache layers before c')
      (hc : ¬ Supplied P.oci cache layers before c) :
      FirstDefect P cache layers before (.component c.id)
  | wasm (hl : layers = [l]) (hk : kindOf P.oci l = .wkg)
      (hwasm : P.fromWasmFile (Function.update before (cache.wasmPath l.config.digest)
        (some l.layer)) (cache.wasmPath l.config.digest) = .error e) :
      FirstDefect P cache layers before (.wasm (cache.wasmPath l.config.digest))

variable {P : Platform} {oci : SpinOci} {cache : Cache} {l : WasmLayer}
  {layers earlier : List WasmLayer} {w w' : World} {f before : Files} {d : Digest}
  {c : LockedComponent} {ctx : RuntimeContext} {app : LockedApp} {defect : Defect}

theorem forall_or_first (p : α → Prop) (xs : List α) :
    (∀ x ∈ xs, p x) ∨ ∃ earlier x later, xs = earlier ++ x :: later ∧ (∀ y ∈ earlier, p y) ∧
      ¬ p x := by
  induction xs with
  | nil => exact .inl fun x hx => (List.not_mem_nil hx).elim
  | cons x xs ih =>
    by_cases hx : p x
    · rcases ih with hall | ⟨earlier, y, later, rfl, hall, hy⟩
      · exact .inl (List.forall_mem_cons.2 ⟨hx, hall⟩)
      · exact .inr ⟨x :: earlier, y, later, rfl, List.forall_mem_cons.2 ⟨hx, hall⟩, hy⟩
    · exact .inr ⟨[], x, xs, rfl, fun y hy => (List.not_mem_nil hy).elim, hx⟩

theorem lastLayer_isSome {p : WasmLayer → Bool} :
    (lastLayer p layers).isSome ↔ ∃ l ∈ layers, p l = true := by
  simp only [lastLayer, Option.isSome_map, List.find?_isSome, List.mem_reverse]

theorem StoredImage.dataFile (hst : StoredImage oci cache layers before f) :
    (cache.dataFile f d).isSome ↔ HasData oci cache layers before d := by
  have hfile : (cache.dataFile f d).isSome ↔ (f (cache.dataPath d)).isSome := by
    rw [Cache.dataFile]
    by_cases h : (f (cache.dataPath d)).isSome
    · rw [if_pos h]
      exact iff_of_true rfl h
    · rw [if_neg h]
      exact iff_of_false Bool.false_ne_true h
  have hmember : (memberOf oci d layers).isSome ↔
      ∃ b ∈ archiveMembers oci layers, oci.fileDigest b = d := by
    simp only [memberOf, List.find?_isSome, decide_eq_true_eq]
  rw [hfile, hst.data, Option.isSome_or, Option.isSome_or, Bool.or_eq_true, Bool.or_eq_true,
    lastLayer_isSome, hmember, HasData, or_comm (b := (∃ b ∈ archiveMembers oci layers, _))]
  simp only [isDataOf, decide_eq_true_eq]

theorem StoredImage.wasmFile (hst : StoredImage oci cache layers before f) :
    (cache.wasmFile f d).isSome ↔ HasWasm oci cache layers before d := by
  have hfile : (cache.wasmFile f d).isSome ↔
      (f (cache.wasmPath d)).isSome ∨ (cache.dataFile f d).isSome := by
    rw [Cache.wasmFile, Cache.dataFile]
    by_cases h : (f (cache.wasmPath d)).isSome
    · rw [if_pos h]
      exact iff_of_true rfl (.inl h)
    · rw [if_neg h]
      exact (or_iff_right h).symm
  rw [hfile, hst.dataFile, hst.wasm, Option.isSome_or, Bool.or_eq_true, lastLayer_isSome, HasWasm,
    or_assoc]
  simp only [isWasmOf, decide_eq_true_eq]

theorem StoredImage.resolvable (hst : StoredImage oci cache layers before f) :
    Resolvable cache f c ↔ Supplied oci cache layers before c := by
  apply Iff.intro
  · intro h
    apply Supplied.mk
    · intro r hr
      obtain ⟨d, hd, hs⟩ := h.wasm r hr
      exact ⟨d, hd, hst.wasmFile.1 hs⟩
    · intro file hm hi
      obtain ⟨d, hd, hs⟩ := h.files file hm hi
      exact ⟨d, hd, hst.dataFile.1 hs⟩
  · intro h
    apply Resolvable.mk
    · intro r hr
      obtain ⟨d, hd, hs⟩ := h.wasm r hr
      exact ⟨d, hd, hst.wasmFile.2 hs⟩
    · intro file hm hi
      obtain ⟨d, hd, hs⟩ := h.files file hm hi
      exact ⟨d, hd, hst.dataFile.2 hs⟩

theorem loadLayers_passes (hr : Reliable P cache) (hp : ∀ l ∈ earlier, Passes P cache l)
    (rest : List WasmLayer) : loadLayers P cache n (earlier ++ rest) w =
      loadLayers P cache n rest (afterLayers P cache earlier w) := by
  induction earlier generalizing w with
  | nil => rfl
  | cons l earlier ih =>
    rw [List.forall_mem_cons] at hp
    rw [List.cons_append, loadLayers, loadLayer_next_of_reliable hr hp.1.1 hp.1.2]
    exact ih hp.2

theorem unpack_error (hu : UnpackByBytes P cache) (hn : ¬ Unpacks P cache l) (f : Files) :
    ∃ e, P.oci.unpackArchiveLayer cache f l.layer l.config.digest = .error e := by
  cases h : P.oci.unpackArchiveLayer cache f l.layer l.config.digest with
  | error e => exact ⟨e, rfl⟩
  | ok f' => exact (hn fun g => hu f _ g _ _ ⟨f', h⟩).elim

theorem resolveComponents_first (hl : Loads P cache) (h : ∀ c' ∈ cs, Resolvable cache f c')
    (hc : ¬ Resolvable cache f c) (rest : List LockedComponent) :
    ∃ e, resolveComponents P cache (cs ++ c :: rest) f =
      .error (.error ((Defect.component c.id).message :: e)) := by
  induction cs generalizing f with
  | nil =>
    rw [List.nil_append, resolveComponents]
    cases hres : P.loader.resolveComponentContentRefs cache f c with
    | error e => exact ⟨e, rfl⟩
    | ok r => exact (hc (P.loader.resolve_ok hres).lookups).elim
  | cons c' cs ih =>
    rw [List.forall_mem_cons] at h
    obtain ⟨⟨c₁, f₁⟩, hres⟩ := hl.resolve h.1
    have hs := resolve_sameCache hres
    obtain ⟨e, he⟩ := ih (fun c' hm => (h.2 c' hm).sameCache hs) fun hr => hc (hr.sameCache hs.symm)
    simp only [List.cons_append, resolveComponents, hres, ofResult, Outcome.context, ok_bind, he]
    exact ⟨e, rfl⟩

theorem fromCtx_passes (hr : Reliable P cache) (hs : ctx.source = .oci layers)
    (hp : ∀ l ∈ layers, Passes P cache l) :
    fromCtx P ctx cache w = .ok (.ociSpin, afterLayers P cache layers w) := by
  simp only [fromCtx, hs]
  exact loadLayers_of_reliable hr (fun l hl => (hp l hl).1) fun l hl => (hp l hl).2

theorem afterLayer_wkg (hk : kindOf P.oci l = .wkg) : (afterLayer P cache w l).files =
    Function.update w.files (cache.wasmPath l.config.digest) (some l.layer) := by
  simp only [afterLayer, layerWrites, hk, KeyedStore.run_cons, KeyedStore.run_nil,
    KeyedStore.Op.apply]

theorem fromCtx_single_wkg (hr : Reliable P cache) (hs : ctx.source = .oci [l])
    (hk : kindOf P.oci l = .wkg) : fromCtx P ctx cache w =
      .ok (.ociWkg (cache.wasmPath l.config.digest), afterLayer P cache w l) := by
  simp only [fromCtx, hs, List.length_singleton, loadLayers, loadLayer_wkg_of_reliable hr hk]
  rfl

/-- The first defect ends the load, with its message on top. -/
theorem FirstDefect.reported (hr : Reliable P cache) (hl : Loads P cache)
    (hu : UnpackByBytes P cache) (hs : ctx.source = .oci layers)
    (h : FirstDefect P cache layers w.files defect) :
    ∃ e, loadFrom P ctx cache w = .error (.error (defect.message :: e)) := by
  rw [loadFrom]
  have hstored := afterLayers_stored P cache layers w
  cases h with
  | @package earlier l later hsplit hpass hk hn =>
    obtain ⟨f, hf⟩ := hr.writeWasm (afterLayers P cache earlier w).files l.layer l.config.digest
    have hctx : fromCtx P ctx cache w =
        bail (Defect.package layers.length).message := by
      simp only [fromCtx, hs]
      nth_rewrite 2 [hsplit]
      rw [loadLayers_passes hr hpass, loadLayers]
      simp only [loadLayer, hk, hf, ofResult, ok_bind, hn, ne_eq, not_false_eq_true, ↓reduceIte]
      rfl
    rw [hctx]
    exact ⟨[], rfl⟩
  | @archive earlier l later hsplit hpass hk hn =>
    obtain ⟨e, he⟩ := unpack_error hu hn (afterLayers P cache earlier w).files
    have hctx : fromCtx P ctx cache w =
        .error (.error ("unable to unpack archive layer" :: e)) := by
      simp only [fromCtx, hs]
      nth_rewrite 2 [hsplit]
      rw [loadLayers_passes hr hpass, loadLayers]
      simp only [loadLayer, hk, handleArchiveLayer_eq, he, ofResult]
      rfl
    rw [hctx]
    exact ⟨e, rfl⟩
  | missing hpass hnone =>
    rw [← hstored.spinJson] at hnone
    cases hread : P.fs.read (afterLayers P cache layers w).files spinJson with
    | error e =>
      rw [fromCtx_passes hr hs hpass]
      simp only [ok_bind, toLockedApp, hread, ofResult, Outcome.context]
      exact ⟨e, rfl⟩
    | ok b =>
      rw [P.fs.read_ok hread] at hnone
      cases hnone
  | undecodable hpass hcontent hdecode =>
    rw [← hstored.spinJson] at hcontent
    rw [fromCtx_passes hr hs hpass]
    simp only [ok_bind, toLockedApp, hl.read hcontent, hdecode, ofResult, Outcome.context]
    exact ⟨_, rfl⟩
  | @component content app earlier c later hpass hcontent hdecode hsplit hsupplied hc =>
    rw [← hstored.spinJson] at hcontent
    obtain ⟨e, he⟩ := resolveComponents_first hl
      (fun c' hm => hstored.resolvable.2 (hsupplied c' hm)) (fun h => hc (hstored.resolvable.1 h))
      later
    rw [fromCtx_passes hr hs hpass]
    simp only [ok_bind, toLockedApp, hl.read hcontent, hdecode, ofResult, Outcome.context, hsplit,
      he]
    exact ⟨e, rfl⟩
  | @wasm l e hl' hk hwasm =>
    rw [fromCtx_single_wkg hr (hl' ▸ hs) hk]
    simp only [ok_bind, toLockedApp, afterLayer_wkg hk, hwasm, ofResult, Outcome.context]
    exact ⟨e, rfl⟩

theorem loads_of_no_defect (hr : Reliable P cache) (hl : Loads P cache)
    (hs : ctx.source = .oci layers) (hn : ¬ ∃ d, FirstDefect P cache layers w.files d) :
    ∃ src w₁ app w₂, fromCtx P ctx cache w = .ok (src, w₁) ∧
      toLockedApp P src cache w₁ = .ok (app, w₂) := by
  have hstored := afterLayers_stored P cache layers w
  rcases forall_or_first (Passes P cache) layers
    with hpass | ⟨earlier, l, later, hsplit, hpass, hl'⟩
  · cases hcontent : (lastLayer (isApplication P.oci) layers).or (w.files spinJson) with
    | none => exact (hn ⟨_, .missing hpass hcontent⟩).elim
    | some content =>
      cases hdecode : P.fromJson content with
      | error e => exact (hn ⟨_, .undecodable hpass hcontent hdecode⟩).elim
      | ok app =>
        rcases forall_or_first (Supplied P.oci cache layers w.files) app.components with
          hall | ⟨cs, c, rest, hsplit, hcs, hc⟩
        · rw [← hstored.spinJson] at hcontent
          obtain ⟨app', w', happ⟩ := toLockedApp_of_resolvable hl hcontent hdecode
            fun c hc => hstored.resolvable.2 (hall c hc)
          exact ⟨_, _, app', w', fromCtx_passes hr hs hpass, happ⟩
        · exact (hn ⟨_, .component hpass hcontent hdecode hsplit hcs hc⟩).elim
  · by_cases hk : kindOf P.oci l = .wkg
    · by_cases hlen : layers.length = 1
      · have hsingle : layers = [l] := by
          rw [hsplit, List.length_append, List.length_cons] at hlen
          rw [hsplit, List.eq_nil_of_length_eq_zero (l := earlier) (by omega),
            List.eq_nil_of_length_eq_zero (l := later) (by omega)]
          rfl
        have hctx : fromCtx P ctx cache w = .ok (.ociWkg (cache.wasmPath l.config.digest),
            afterLayer P cache w l) := fromCtx_single_wkg hr (hsingle ▸ hs) hk
        cases hwasm : P.fromWasmFile (afterLayer P cache w l).files
            (cache.wasmPath l.config.digest) with
        | error e =>
          rw [afterLayer_wkg hk] at hwasm
          exact (hn ⟨_, .wasm hsingle hk hwasm⟩).elim
        | ok app =>
          refine ⟨_, _, app, afterLayer P cache w l, hctx, ?_⟩
          simp only [toLockedApp, hwasm, ofResult, Outcome.context, ok_bind]
          rfl
      · exact (hn ⟨_, .package hsplit hpass hk hlen⟩).elim
    · have harchive : kindOf P.oci l = .archive ∧ ¬ Unpacks P cache l := by
        rw [Passes, not_and, Classical.not_imp] at hl'
        exact hl' hk
      exact (hn ⟨_, .archive hsplit hpass harchive.1 harchive.2⟩).elim

/-- An image is loaded exactly when nothing is wrong with it; else the load reports the first
thing that is. -/
theorem image_verdict (hr : Reliable P cache) (hl : Loads P cache) (hu : UnpackByBytes P cache)
    (hnew : P.newCache cacheDir = .ok cache) (hs : ctx.source = .oci layers) (w : World) :
    ((loadApp P ctx w).Succeeds ↔ ¬ ∃ d, FirstDefect P cache layers w.files d) ∧
    ∀ d, FirstDefect P cache layers w.files d →
      ∃ e, loadApp P ctx w = .error (.error (d.message :: e)) := by
  have hreported (d : Defect) (h : FirstDefect P cache layers w.files d) :
      ∃ e, loadApp P ctx w = .error (.error (d.message :: e)) := by
    rw [loadApp_eq hnew]
    exact FirstDefect.reported (w := withCache w) hr hl hu hs h
  refine ⟨⟨?_, ?_⟩, hreported⟩
  · intro ⟨r, hok⟩ ⟨d, h⟩
    obtain ⟨e, he⟩ := hreported d h
    rw [hok] at he
    cases he
  · intro hn
    obtain ⟨src, w₁, app, w₂, hctx, happ⟩ := loads_of_no_defect (w := withCache w) hr hl hs hn
    exact ⟨_, (loadApp_ok_iff hnew).2 ⟨w₁, hctx, happ⟩⟩

def plainLayer : WasmLayer := layerOf ociLayerMediaTypeWasm [0, 97, 115, 109] "sha256:w"

def packageLayer : WasmLayer := layerOf ociLayerMediaTypeWasmWkg [0, 97, 115, 110] "sha256:x"

theorem image_verdict_package :
    ∃ e, loadApp (.inMemory .bare) (imageCtx [plainLayer, packageLayer]) (.bare .empty) =
      .error (.error ("expected single layer in OCI package, found 2 layers" :: e)) := by
  have hsplit : [plainLayer, packageLayer] = [plainLayer] ++ packageLayer :: [] := rfl
  have hpass : ∀ l ∈ [plainLayer], Passes (.inMemory .bare) .inMemory l := by
    intro l hl
    rw [List.mem_singleton.1 hl]
    exact ⟨by decide, fun _ => inMemory_unpacks .bare plainLayer⟩
  exact (image_verdict (inMemory_reliable .bare) (inMemory_loads .bare)
    (fun _ _ _ _ _ _ => ⟨_, rfl⟩) rfl rfl (.bare .empty)).2 (.package 2)
    (.package hsplit hpass rfl (by decide))

end ShimSpin
