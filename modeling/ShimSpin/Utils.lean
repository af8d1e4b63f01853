import ShimSpin.Platform

namespace ShimSpin
set_option autoImplicit true

def xdgCacheHome : String := "XDG_CACHE_HOME"

def tmpdir : String := "TMPDIR"

def cacheDir : PathBuf := "/.cache"

def initializeCache (P : Platform) (w : World) : Outcome (Cache × World) := do
  let cache ← (ofResult (P.newCache cacheDir)).context "failed to create cache"
  let env ← setVar w.env xdgCacheHome cacheDir
  return (cache, { w with env })

/-- `env::current_dir().unwrap_or(".".into())`. -/
def currentDir (w : World) : OsString :=
  match w.cwd with
  | some dir => dir.val
  | none => "."

/-- Unpacking needs a directory for temporary files, so one is set if there is none. -/
def handleArchiveLayer (P : Platform) (cache : Cache) (bytes : Bytes) (digest : Digest)
    (w : World) : Outcome World := do
  let env ← match w.env.var tmpdir with
    | none => setVar w.env tmpdir (currentDir w)
    | some _ => pure w.env
  let files ← ofResult (P.oci.unpackArchiveLayer cache w.files bytes digest)
  return { w with files, env }

def prefixed (name : String) : String := spinApplicationVariablePrefix ++ "_" ++ name

/-- One round of the loop over the application variables. -/
def configureVariable (E : Env) (name : String) : Outcome Env :=
  match E.var name with
  | some val => setVar E (prefixed name) val
  | none => pure E

def configureVariables (keys : List String) (E : Env) : Outcome Env :=
  (keys.map toAsciiUppercase).foldlM configureVariable E

def configureApplicationVariablesFromEnvironmentVariables (resolved : LockedApp) (E : Env) :
    Outcome Env :=
  configureVariables resolved.appVariables.keys E

/-- The first address that the system resolves an address string to. -/
def parseAddr (toSocketAddrs : String → Except Error (List Addr)) (addr : String) :
    Outcome Addr := do
  match ← ofResult (toSocketAddrs addr) with
  | a :: _ => return a
  | [] => bail [.text ("could not parse address: " ++ addr)]

theorem parseAddr_error {toSocketAddrs : String → Except Error (List Addr)}
    (h : toSocketAddrs addr = .error e) : parseAddr toSocketAddrs addr = .error (.error e) := by
  simp only [parseAddr, h]
  rfl

theorem parseAddr_nil {toSocketAddrs : String → Except Error (List Addr)}
    (h : toSocketAddrs addr = .ok []) :
    parseAddr toSocketAddrs addr = bail [.text ("could not parse address: " ++ addr)] := by
  simp only [parseAddr, h]
  rfl

theorem parseAddr_cons {toSocketAddrs : String → Except Error (List Addr)}
    (h : toSocketAddrs addr = .ok (a :: rest)) : parseAddr toSocketAddrs addr = .ok a := by
  simp only [parseAddr, h]
  rfl

theorem xdgCacheHome_valid : ValidName xdgCacheHome := by decide

theorem tmpdir_valid : ValidName tmpdir := by decide

theorem cacheDir_nulFree : (OsString.utf8 cacheDir).NulFree := by decide

theorem currentDir_nulFree (w : World) : (currentDir w).NulFree := by
  unfold currentDir
  cases w.cwd with
  | none => decide
  | some dir => exact dir.property

/-- Creating the cache changes nothing but one variable. -/
theorem initializeCache_ok (h : initializeCache P w = .ok (cache, w')) :
    w'.files = w.files ∧ w'.cwd = w.cwd ∧
      ∀ n, w'.env.get n = if n = xdgCacheHome then some (.utf8 cacheDir) else w.env.get n := by
  obtain ⟨c, hc, h⟩ := bind_eq_ok.1 h
  obtain ⟨E, hE, h⟩ := bind_eq_ok.1 h
  cases h
  exact ⟨rfl, rfl, setVar_get hE⟩

theorem initializeCache_not_panics (P : Platform) (w : World) :
    ¬ (initializeCache P w).Panics := by
  rw [initializeCache, bind_panics, context_panics]
  intro h
  rcases h with h | ⟨cache, _, h⟩
  · exact ofResult_not_panics _ h
  · rw [setVar_ok xdgCacheHome_valid cacheDir_nulFree] at h
    exact pure_not_panics _ h

def archiveEnv (w : World) : Env :=
  match w.env.var tmpdir with
  | none => w.env.set tmpdir (currentDir w) tmpdir_valid (currentDir_nulFree w)
  | some _ => w.env

theorem handleArchiveLayer_eq (P : Platform) (cache : Cache) (bytes : Bytes) (digest : Digest)
    (w : World) : handleArchiveLayer P cache bytes digest w =
      (ofResult (P.oci.unpackArchiveLayer cache w.files bytes digest)).map
        (fun files => { w with files, env := archiveEnv w }) := by
  unfold handleArchiveLayer archiveEnv
  cases w.env.var tmpdir with
  | none =>
    simp only [setVar_ok tmpdir_valid (currentDir_nulFree w), ok_bind]
    cases ofResult (P.oci.unpackArchiveLayer cache w.files bytes digest) <;> rfl
  | some v =>
    cases ofResult (P.oci.unpackArchiveLayer cache w.files bytes digest) <;> rfl

theorem archiveEnv_get (w : World) (n : OsString) : (archiveEnv w).get n =
    if n = tmpdir ∧ w.env.var tmpdir = none then some (currentDir w) else w.env.get n := by
  unfold archiveEnv
  cases h : w.env.var tmpdir with
  | none => simp [Env.set_get]
  | some v => simp

end ShimSpin
