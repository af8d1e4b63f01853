import ShimSpin.InstallerSed

namespace ShimSpin.Installer
open ErrExit
set_option autoImplicit true

/-- Of these targets the installer edits a copy of the file that the distribution keeps. -/
def Target.copied : Target → Bool
  | .inPlace _ => false
  | .rke2Agent => true
  | .k3s => true

inductive TargetCommand where
  | shared (c : Command)
  | copyConfig
  | rewriteType
  deriving DecidableEq

structure TargetRun where
  shared : Run
  copyFails : Bool
  rewriteFails : Bool

def TargetRun.fails (r : TargetRun) : TargetCommand → Bool
  | .shared c => r.shared.fails c
  | .copyConfig => r.copyFails
  | .rewriteType => r.rewriteFails

/-- A node with the file that the distribution keeps, of which its configuration may be a copy, and
with the configuration that its service was last started with. -/
structure Machine where
  source : Text
  node : Node
  loaded : Text

def hasAction (text : Text) : Bool := grep "\x7b\x7b" text

/-- What a distribution makes of its template. Text without an action stands for itself. -/
structure Renderer where
  render : Text → Text
  render_plain : hasAction text = false → render text = text

def Node.replace (n : Node) (text : Text) : Node :=
  { n with config := text, current := n.current && n.config = text }

def copyConfig (t : Target) : Script TargetCommand Machine :=
  if t.copied then .cmd .copyConfig fun m => { m with node := m.node.replace m.source } else .done

def editTarget (t : Target) (cgroup : String) : Script TargetCommand Machine :=
  .within .shared Machine.node (fun _ n m => { m with node := n })
    (.seq (addRuntime t.distro) (addOptions cgroup))

def rewriteTarget (t : Target) : Script TargetCommand Machine :=
  if t = .k3s then
    .cmd .rewriteType fun m => { m with node := m.node.replace (resetType t.distro m.node.config) }
  else .done

def targetService (t : Target) (r : Run) : String :=
  match t with
  | .inPlace d => service d r
  | .rke2Agent => "rke2-agent"
  | .k3s => "k3s"

/-- A service reads its configuration when it is restarted. Where the installer edits a copy, the
copy is a template from which the distribution writes its own file anew. -/
def Machine.restarted (R : Renderer) (t : Target) (m : Machine) : Machine :=
  if t.copied then
    { source := R.render m.node.config, node := { m.node with current := true },
      loaded := R.render m.node.config }
  else { m with node := { m.node with current := true }, loaded := m.node.config }

def activateTarget (R : Renderer) (t : Target) (r : Run) (cgroup : String) :
    Script TargetCommand Machine :=
  .ite (fun m => !m.node.active)
    (.seq (.cmd (.shared .touchActive) fun m => { m with node := { m.node with active := true } })
      (.seq (.ite (fun _ => cgroup = "true") (.cmd (.shared .restartDbus) id) .done)
        (.cmd (.shared (.restart (targetService t r))) (Machine.restarted R t))))
    (.cmd (.shared .sayNoChange) id)

def configureTarget (R : Renderer) (t : Target) (r : Run) (cgroup : String) :
    Script TargetCommand Machine :=
  .seq (editTarget t cgroup) (.seq (rewriteTarget t) (activateTarget R t r cgroup))

def installTarget (R : Renderer) (t : Target) (r : TargetRun) (m : Machine) : Machine × Bool :=
  match run r.fails (copyConfig t) m with
  | (m, true) =>
    match run r.shared.fails (prepare t.distro r.shared) "" with
    | (cgroup, true) => run r.fails (configureTarget R t r.shared cgroup) m
    | (_, false) => (m, false)
  | (m, false) => (m, false)

def installTargets (R : Renderer) (t : Target) (rs : List TargetRun) (m : Machine) : Machine :=
  rs.foldl (fun m r => (installTarget R t r m).1) m

/-- A machine on which no run restarts the service: its file has spin and the marker is set. -/
def Settled (m : Machine) : Prop := hasSpin m.source = true ∧ m.node.active = true

structure Served (R : Renderer) (t : Target) (cgroup : String) (m m' : Machine) : Prop where
  config : m'.node.config = configured t cgroup m.source
  active : m'.node.active = true
  settled : Settled m → m'.source = m.source ∧ m'.loaded = m.loaded
  restarted : ¬ Settled m → m'.source = R.render m'.node.config ∧ m'.loaded = m'.source

/-- What a run leaves of a machine without a restart. -/
structure Spared (m m' : Machine) : Prop where
  source : m'.source = m.source
  loaded : m'.loaded = m.loaded
  active : Settled m → m'.node.active = true

/-- What becomes of the file of the distribution over runs on copies of it: nothing, or what one of
them makes of it, with which the service runs from then on. -/
inductive Copied (t : Target) (rs : List TargetRun) (m m' : Machine) : Prop where
  | spared (h : Spared m m') : Copied t rs m m'
  | restarted (hn : ¬ Settled m) (hr : r ∈ rs) (hp : prepared t.distro r.shared = some cgroup)
      (hsource : m'.source = configured t cgroup m.source) (hloaded : m'.loaded = m'.source)
      (hactive : m'.node.active = true) : Copied t rs m m'

variable {R : Renderer} {t : Target} {r : TargetRun} {rs : List TargetRun} {m m' m₁ : Machine}
  {cgroup : String} {d : Distro} {text : Text}

theorem brace_clean {c : Char} (h : c ≠ '\x7b') : ∀ p ∈ dots "\x7b\x7b", p c = false := by
  intro p hp
  obtain ⟨brace, hbrace, rfl⟩ := List.mem_map.1 hp
  have hbraces : "\x7b\x7b".toList = ['\x7b', '\x7b'] := by decide
  rw [hbraces] at hbrace
  have he : brace = '\x7b' := by simpa using hbrace
  subst he
  exact decide_eq_false h

theorem hasAction_append {block : Text} (hb : '\x7b' ∉ block) (hne : block ≠ []) (text : Text) :
    hasAction (text ++ block) = hasAction text := by
  have hclean : ∀ c ∈ block, ∀ p ∈ dots "\x7b\x7b", p c = false :=
    fun c hc => brace_clean fun he => hb (he ▸ hc)
  have hend : Search.occurs (dots "\x7b\x7b") [] = false := by decide
  rw [hasAction, grep_eq, ← List.append_nil block,
    Search.occurs_append_clean (by decide) hne hclean, hend, Bool.or_false]
  rfl

theorem newType_brace (d : Distro) : '\x7b' ∉ (newType d).toList := by
  have hkey : '\x7b' ∉ typeKey.toList := by decide
  have hbin : '\x7b' ∉ "/bin/containerd-shim-spin-v2".toList := by decide
  have hdir : '\x7b' ∉ (kwasmDir d).toList := by
    cases d with
    | generic => decide
    | microk8s => decide
    | k0s => decide
  rw [newType_eq, shimPath, List.mem_append, List.mem_append, List.mem_append, not_or, not_or,
    not_or]
  exact ⟨hkey, ⟨hdir, hbin⟩, by decide⟩

theorem hasAction_edit (d : Distro) (cgroup : String) (text : Text) :
    hasAction (edit d cgroup text) = hasAction text := by
  have hruntime : hasAction (editRuntime d text) = hasAction text := by
    rw [editRuntime]
    split_ifs with hs
    · rfl
    · apply hasAction_append
      · rw [runtimeBlock_eq]
        exact List.not_mem_cons_of_ne_of_not_mem (by decide) (runtimeLines_facts d _).2.2.2.2
      · rw [runtimeBlock_eq]
        exact List.cons_ne_nil _ _
  rw [edit, editOptions]
  split_ifs with hw
  · obtain ⟨_, rfl⟩ := wantsOptions_iff.1 hw
    rw [hasAction_append, hruntime]
    · rw [optionsBlock_eq]
      exact List.not_mem_cons_of_ne_of_not_mem (by decide) (optionsLines_facts _).2.2
    · rw [optionsBlock_eq]
      exact List.cons_ne_nil _ _
  · exact hruntime

theorem hasAction_configured (h : hasAction text = false) (t : Target) (cgroup : String) :
    hasAction (configured t cgroup text) = false := by
  rw [← hasAction_edit t.distro cgroup, ← Bool.not_eq_true] at h
  rw [configured, rewritten]
  split_ifs with ht
  · rw [← Bool.not_eq_true]
    intro hs
    have hnewline : ∀ p ∈ dots "\x7b\x7b", p '\n' = false := brace_clean (by decide)
    obtain ⟨line, hline, hs⟩ := (Search.occurs_mapParts hnewline _).1 hs
    have hgrep := (resetLine_resetsTo t.distro line).grep_mono hs (by decide)
      fun c hc => brace_clean fun he => newType_brace t.distro (he ▸ hc)
    exact h ((Search.occurs_splitOn hnewline).2 ⟨line, hline, hgrep⟩)
  · rwa [Bool.not_eq_true] at h

theorem hasSpin_configured (t : Target) (cgroup : String) (text : Text) :
    hasSpin (configured t cgroup text) = true := by
  have hedit := hasSpin_edit t.distro cgroup text
  have hnewline : ∀ p ∈ dots "spin", p '\n' = false := dots_newline (by decide)
  rw [configured, rewritten]
  split_ifs with ht
  · obtain ⟨line, hline, hs⟩ := (Search.occurs_splitOn hnewline).1 hedit
    exact (Search.occurs_mapParts hnewline _).2
      ⟨line, hline, (resetLine_resetsTo t.distro line).hasSpin hs⟩
  · exact hedit

theorem edits_spec (d : Distro) (r : Run) (cgroup : String) (n : Node) :
    Triple r.fails (· = n) (.seq (addRuntime d) (addOptions cgroup))
      (· = withOptions cgroup (withRuntime d n))
      fun n' => hasSpin n.config = true → n'.active = n.active := by
  apply Triple.seq (Triple.conseq (addRuntime_spec d r n) (fun _ h => h) _)
  · apply Triple.pure
    intro _
    apply Triple.conseq (addOptions_spec cgroup r _)
    · exact fun _ h => h.2
    · intro n' h hs
      rw [h.2, withRuntime, if_pos hs]
  · intro n' h hs
    rw [hs] at h
    cases h.1

theorem editTarget_spec (t : Target) (r : TargetRun) (cgroup : String) (m : Machine) :
    Triple r.fails (· = m) (editTarget t cgroup)
      (fun m' => m'.node = withOptions cgroup (withRuntime t.distro m.node) ∧
        m'.source = m.source ∧ m'.loaded = m.loaded)
      fun m' => (hasSpin m.node.config = true → m'.node.active = m.node.active) ∧
        m'.source = m.source ∧ m'.loaded = m.loaded := by
  have hedits : Triple (fun c => r.fails (.shared c)) (· = m.node) _ _ _ :=
    edits_spec t.distro r.shared cgroup m.node
  rw [editTarget]
  apply Triple.within (F := fun m' => m'.source = m.source ∧ m'.loaded = m.loaded) _ hedits
  · exact fun _ _ _ h => h
  · exact ⟨rfl, rfl⟩
  · exact fun _ _ _ => rfl

theorem rewriteTarget_spec (t : Target) (r : TargetRun) (m : Machine) :
    Triple r.fails (· = m) (rewriteTarget t)
      (fun m' => m'.node.config = rewritten t m.node.config ∧ m'.node.active = m.node.active ∧
        m'.source = m.source ∧ m'.loaded = m.loaded)
      (· = m) := by
  rw [rewriteTarget]
  split_ifs with ht
  · apply Triple.cmd_from
    · exact fun _ => rfl
    · intro _
      rw [rewritten, if_pos ht]
      exact ⟨rfl, rfl, rfl, rfl⟩
  · apply Triple.done
    rintro _ rfl
    rw [rewritten, if_neg ht]
    exact ⟨rfl, rfl, rfl, rfl⟩

theorem activateTarget_marked (h : m.node.active = true) (R : Renderer) (t : Target)
    (r : TargetRun) (cgroup : String) :
    Triple r.fails (· = m) (activateTarget R t r.shared cgroup) (· = m) (· = m) := by
  apply Triple.ite_from
  · intro ha
    rw [h] at ha
    cases ha
  · intro _
    exact Triple.cmd_from (fun _ => rfl) (fun _ => rfl)

theorem activateTarget_unmarked (h : m.node.active = false) (ht : t.copied = true) (R : Renderer)
    (r : TargetRun) (cgroup : String) :
    Triple r.fails (· = m) (activateTarget R t r.shared cgroup)
      (fun m' => m'.source = R.render m.node.config ∧ m'.loaded = m'.source ∧
        m'.node.config = m.node.config ∧ m'.node.active = true)
      fun m' => m'.source = m.source ∧ m'.loaded = m.loaded := by
  apply Triple.ite_from
  · intro _
    apply Triple.cmd_seq_from
    · exact fun _ => ⟨rfl, rfl⟩
    intro _
    apply Triple.seq (M := (· = { m with node := { m.node with active := true } }))
    · apply Triple.ite_from
      · exact fun _ => Triple.cmd_from (fun _ => ⟨rfl, rfl⟩) (fun _ => rfl)
      · exact fun _ => Triple.done fun _ hm => hm
    · apply Triple.cmd_from
      · exact fun _ => ⟨rfl, rfl⟩
      · intro _
        rw [Machine.restarted, if_pos ht]
        exact ⟨rfl, rfl, rfl, rfl⟩
  · intro ha
    rw [h] at ha
    cases ha

theorem configureTarget_spec (ht : t.copied = true) (hm : m.node.config = m.source) (R : Renderer)
    (r : TargetRun) (cgroup : String) :
    Triple r.fails (· = m) (configureTarget R t r.shared cgroup) (Served R t cgroup m)
      (Spared m) := by
  have hactive : (withOptions cgroup (withRuntime t.distro m.node)).active = true ↔ _ :=
    edits_active
  have hconfig := config_withOptions t.distro cgroup m.node
  rw [hm] at hactive hconfig
  apply Triple.seq (Triple.conseq (editTarget_spec t r cgroup m) (fun _ h => h) _)
  · intro m₁ ⟨hnode, hsource, hloaded⟩
    rw [← hnode] at hactive hconfig
    apply Triple.seq (Triple.conseq (rewriteTarget_spec t r m₁) (fun _ h => h) _) _ m₁ rfl
    · rintro _ rfl
      exact ⟨hsource, hloaded, hactive.2⟩
    · intro m₂ ⟨hconfig₂, hactive₂, hsource₂, hloaded₂⟩
      rw [hsource] at hsource₂
      rw [hloaded] at hloaded₂
      rw [hconfig] at hconfig₂
      rw [← hactive₂] at hactive
      cases ha : m₂.node.active with
      | true =>
        have hsettled : Settled m := hactive.1 ha
        apply Triple.conseq (activateTarget_marked ha R t r cgroup) _ _ m₂ rfl
        · rintro _ rfl
          exact ⟨hconfig₂, ha, fun _ => ⟨hsource₂, hloaded₂⟩, fun hn => (hn hsettled).elim⟩
        · rintro _ rfl
          exact ⟨hsource₂, hloaded₂, fun _ => ha⟩
      | false =>
        have hnot : ¬ Settled m := by
          intro hs
          rw [hactive.2 hs] at ha
          cases ha
        apply Triple.conseq (activateTarget_unmarked ha ht R r cgroup) _ _ m₂ rfl
        · intro m₃ ⟨hsource₃, hloaded₃, hconfig₃, hactive₃⟩
          refine ⟨hconfig₃.trans hconfig₂, hactive₃, fun hs => (hnot hs).elim, fun _ => ?_⟩
          exact ⟨by rw [hsource₃, hconfig₃], hloaded₃⟩
        · intro m₃ ⟨hsource₃, hloaded₃⟩
          exact ⟨hsource₃.trans hsource₂, hloaded₃.trans hloaded₂, fun hs => (hnot hs).elim⟩
  · intro m₁ ⟨hactive₁, hsource₁, hloaded₁⟩
    rw [hm] at hactive₁
    exact ⟨hsource₁, hloaded₁, fun hs => (hactive₁ hs.1).trans hs.2⟩

theorem copyConfig_spec (ht : t.copied = true) (r : TargetRun) (m : Machine) :
    Triple r.fails (· = m) (copyConfig t)
      (fun m' => m'.source = m.source ∧ m'.node.config = m.source ∧
        m'.node.active = m.node.active ∧ m'.loaded = m.loaded)
      (· = m) := by
  rw [copyConfig, if_pos ht]
  exact Triple.cmd_from (fun _ => rfl) (fun _ => ⟨rfl, rfl, rfl, rfl⟩)

theorem installTarget_spec (ht : t.copied = true) (R : Renderer) (r : TargetRun) (m : Machine) :
    ((installTarget R t r m).2 = true → ∃ cgroup, prepared t.distro r.shared = some cgroup ∧
      Served R t cgroup m (installTarget R t r m).1) ∧
    ((installTarget R t r m).2 = false → Spared m (installTarget R t r m).1) := by
  obtain ⟨hok, hstop⟩ := copyConfig_spec ht r m m rfl
  rw [installTarget, prepared]
  rcases hcopy : run r.fails (copyConfig t) m with ⟨m₁, _ | _⟩
  · rw [hcopy] at hstop
    rw [hstop rfl]
    exact ⟨fun h => (Bool.false_ne_true h).elim, fun _ => ⟨rfl, rfl, fun hs => hs.2⟩⟩
  rw [hcopy] at hok
  obtain ⟨hsource, hconfig, hactive, hloaded⟩ := hok rfl
  have hsettled : Settled m₁ ↔ Settled m := by rw [Settled, Settled, hsource, hactive]
  rcases hprepare : run r.shared.fails (prepare t.distro r.shared) "" with ⟨cgroup, _ | _⟩
  · exact ⟨fun h => (Bool.false_ne_true h).elim,
      fun _ => ⟨hsource, hloaded, fun hs => (hsettled.2 hs).2⟩⟩
  obtain ⟨hserved, hspared⟩ :=
    configureTarget_spec ht (hconfig.trans hsource.symm) R r cgroup m₁ rfl
  apply And.intro
  · intro h
    obtain ⟨hconfig', hactive', hkept, hrestarted⟩ := hserved h
    rw [hsource] at hconfig' hkept
    rw [hloaded] at hkept
    rw [hsettled] at hkept hrestarted
    exact ⟨cgroup, rfl, hconfig', hactive', hkept, hrestarted⟩
  · intro h
    obtain ⟨hsource', hloaded', hactive'⟩ := hspared h
    exact ⟨hsource'.trans hsource, hloaded'.trans hloaded, fun hs => hactive' (hsettled.2 hs)⟩

theorem Served.rendered (h : Served R t cgroup m m') (hp : hasAction m.source = false) :
    R.render m'.node.config = configured t cgroup m.source := by
  rw [h.config]
  exact R.render_plain (hasAction_configured hp t cgroup)

theorem installTarget_copied (ht : t.copied = true) (hp : hasAction m.source = false)
    (R : Renderer) (r : TargetRun) : Copied t [r] m (installTarget R t r m).1 := by
  obtain ⟨hok, hstop⟩ := installTarget_spec ht R r m
  rcases Bool.eq_false_or_eq_true (installTarget R t r m).2 with hs | hs
  · obtain ⟨cgroup, hprepared, hserved⟩ := hok hs
    by_cases hsettled : Settled m
    · obtain ⟨hsource, hloaded⟩ := hserved.settled hsettled
      exact .spared ⟨hsource, hloaded, fun _ => hserved.active⟩
    · obtain ⟨hsource, hloaded⟩ := hserved.restarted hsettled
      rw [hserved.rendered hp] at hsource
      exact .restarted hsettled (List.mem_singleton_self r) hprepared hsource hloaded hserved.active
  · exact .spared (hstop hs)

theorem Copied.hasAction (h : Copied t rs m m') (hp : hasAction m.source = false) :
    hasAction m'.source = false := by
  cases h with
  | spared h => rw [h.source, hp]
  | restarted _ _ _ hsource =>
    rw [hsource]
    exact hasAction_configured hp _ _

/-- Once the service has been restarted, its file has spin and the marker is set. -/
theorem Copied.cons (h : Copied t [r] m m₁) (h' : Copied t rs m₁ m') : Copied t (r :: rs) m m' := by
  cases h with
  | spared h =>
    have hsettled (hs : Settled m) : Settled m₁ := ⟨h.source ▸ hs.1, h.active hs⟩
    cases h' with
    | spared h' =>
      exact .spared ⟨h'.source.trans h.source, h'.loaded.trans h.loaded,
        fun hs => h'.active (hsettled hs)⟩
    | restarted hn hr hp hsource hloaded hactive =>
      rw [h.source] at hsource
      exact .restarted (fun hs => hn (hsettled hs)) (List.mem_cons_of_mem _ hr) hp hsource hloaded
        hactive
  | restarted hn hr hp hsource hloaded hactive =>
    have hsettled : Settled m₁ := ⟨hsource ▸ hasSpin_configured _ _ _, hactive⟩
    cases h' with
    | spared h' =>
      rw [← h'.source] at hsource hloaded
      rw [← h'.loaded] at hloaded
      exact .restarted hn (List.mem_singleton.1 hr ▸ List.mem_cons_self) hp hsource hloaded
        (h'.active hsettled)
    | restarted hn' => exact (hn' hsettled).elim

theorem installTargets_copied (ht : t.copied = true) (hp : hasAction m.source = false)
    (R : Renderer) (rs : List TargetRun) : Copied t rs m (installTargets R t rs m) := by
  induction rs generalizing m with
  | nil => exact .spared ⟨rfl, rfl, fun hs => hs.2⟩
  | cons r rs ih =>
    have hone := installTarget_copied ht hp R r
    exact hone.cons (ih (hone.hasAction hp))

theorem Served.loaded_iff (h : Served R t cgroup m m') (hp : hasAction m.source = false) :
    m'.loaded = m'.node.config ↔ hasSpin m.source = false ∨ m.node.active = false ∨
      m.loaded = configured t cgroup m.source := by
  by_cases hs : Settled m
  · rw [(h.settled hs).2, h.config, hs.1, hs.2]
    simp only [Bool.true_eq_false, false_or]
  · obtain ⟨hsource, hloaded⟩ := h.restarted hs
    apply iff_of_true
    · rw [hloaded, hsource, h.rendered hp, h.config]
    · rw [Settled, not_and_or, Bool.not_eq_true, Bool.not_eq_true] at hs
      exact hs.elim .inl fun ha => .inr (.inl ha)

/-- Runs on copies of a file without template actions leave the file and its service as they are,
or restart the service once with what one of them makes of the file. A run that comes to its end
leaves a copy of what the file has become, and the service runs with it unless the file had spin
and the marker was there. -/
theorem copied_runs (R : Renderer) (ht : t.copied = true) (hp : hasAction m.source = false)
    (rs : List TargetRun) :
    Copied t rs m (installTargets R t rs m) ∧
    ∀ r, (installTarget R t r (installTargets R t rs m)).2 = true →
      ∃ cgroup, prepared t.distro r.shared = some cgroup ∧
        (installTarget R t r (installTargets R t rs m)).1.node.config =
          configured t cgroup (installTargets R t rs m).source ∧
        ((installTarget R t r (installTargets R t rs m)).1.loaded =
            (installTarget R t r (installTargets R t rs m)).1.node.config ↔
          hasSpin (installTargets R t rs m).source = false ∨
            (installTargets R t rs m).node.active = false ∨
            (installTargets R t rs m).loaded =
              configured t cgroup (installTargets R t rs m).source) := by
  have hcopied := installTargets_copied ht hp R rs
  apply And.intro hcopied
  intro r hok
  obtain ⟨cgroup, hprepared, hserved⟩ := (installTarget_spec ht R r _).1 hok
  exact ⟨cgroup, hprepared, hserved.config, hserved.loaded_iff (hcopied.hasAction hp)⟩

/-- A node of k3s, whose service has started with what it found. -/
def k3sMachine : Machine := ⟨"version = 2\n".toList, ⟨"version = 2\n".toList, false, true⟩, []⟩

def Renderer.plain : Renderer where
  render text := text
  render_plain _ := rfl

/-- Two runs on it, of which the first cannot restart the service. -/
def k3sRuns : List TargetRun :=
  [⟨quietRun none fun c => c = .restart "k3s", false, false⟩, ⟨withCgroup, false, false⟩]

theorem copied_runs_k3s :
    (installTarget .plain .k3s ⟨withoutCgroup, false, false⟩
      (installTargets .plain .k3s k3sRuns k3sMachine)).1.node.config =
        configured .k3s "false" (installTargets .plain .k3s k3sRuns k3sMachine).source ∧
    hasOptions (installTargets .plain .k3s k3sRuns k3sMachine).source = true := by
  have hok : (installTarget .plain .k3s ⟨withoutCgroup, false, false⟩
      (installTargets .plain .k3s k3sRuns k3sMachine)).2 = true := by
    decide +kernel
  have hprepared : prepared .generic withoutCgroup = some "false" := by decide +kernel
  have hplain : hasAction k3sMachine.source = false := by decide +kernel
  obtain ⟨_, hlast⟩ := copied_runs (t := .k3s) .plain rfl hplain k3sRuns
  obtain ⟨cgroup, hprepared', hconfig, _⟩ := hlast _ hok
  cases hprepared.symm.trans hprepared'
  apply And.intro hconfig
  decide +kernel

/-- The flag of the node is right about the text. -/
def InSync (m : Machine) : Prop := m.node.current = true → m.loaded = m.node.config

def Machine.observe : Option Command → Node → Machine → Machine
  | some (.restart _), n, m => { m with node := n, loaded := n.config }
  | _, n, m => { m with node := n }

theorem Machine.observe_node (i : Option Command) (n : Node) (m : Machine) :
    (m.observe i n).node = n := by
  cases i with
  | none => rfl
  | some c => cases c <;> rfl

theorem activateTarget_inPlace (R : Renderer) (d : Distro) (r : Run) (cgroup : String) :
    activateTarget R (.inPlace d) r cgroup =
      (activate d r cgroup).within .shared Machine.node fun i n m => m.observe i n := rfl

theorem configureTarget_inPlace (R : Renderer) (d : Distro) (r : TargetRun) (cgroup : String) :
    Refines r.fails r.shared.fails Machine.node (configureTarget R (.inPlace d) r.shared cgroup)
      (configure d r.shared cgroup) := by
  have hedit : Refines r.fails r.shared.fails Machine.node (editTarget (.inPlace d) cgroup)
      (.seq (addRuntime d) (addOptions cgroup)) := within_refines (fun _ _ _ => rfl) _
  have hactivate : Refines r.fails r.shared.fails Machine.node
      (activateTarget R (.inPlace d) r.shared cgroup) (activate d r.shared cgroup) := by
    rw [activateTarget_inPlace]
    exact within_refines Machine.observe_node _
  intro m
  rw [configure, ← run_seq_assoc]
  exact hedit.seq hactivate m

theorem installTarget_inPlace (R : Renderer) (d : Distro) (r : TargetRun) (m : Machine) :
    (installTarget R (.inPlace d) r m).1.node = (install d r.shared m.node).1 ∧
      (installTarget R (.inPlace d) r m).2 = (install d r.shared m.node).2 := by
  have hcopy : run r.fails (copyConfig (.inPlace d)) m = (m, true) := rfl
  have hdistro : (Target.inPlace d).distro = d := rfl
  rw [installTarget, hcopy, install, hdistro]
  rcases run r.shared.fails (prepare d r.shared) "" with ⟨cgroup, _ | _⟩
  · exact ⟨rfl, rfl⟩
  · exact configureTarget_inPlace R d r cgroup m

/-- Edits that leave the flag set have not touched the text. -/
def Calm (n n' : Node) : Prop := n'.current = true → n'.config = n.config ∧ n.current = true

theorem withRuntime_calm (d : Distro) (n : Node) : Calm n (withRuntime d n) := by
  intro h
  rw [withRuntime] at h ⊢
  split_ifs at h ⊢ with hs
  · exact ⟨rfl, h⟩
  · cases h

theorem withOptions_calm (cgroup : String) (n : Node) : Calm n (withOptions cgroup n) := by
  intro h
  rw [withOptions] at h ⊢
  split_ifs at h ⊢ with hw
  · cases h
  · exact ⟨rfl, h⟩

theorem edits_calm (d : Distro) (r : Run) (cgroup : String) (n : Node) :
    Triple r.fails (· = n) (.seq (addRuntime d) (addOptions cgroup)) (Calm n) (Calm n) := by
  apply Triple.seq (Triple.conseq (addRuntime_spec d r n) (fun _ h => h) _)
  · apply Triple.pure
    intro _
    apply Triple.conseq (addOptions_spec cgroup r _)
    · intro n' h hc
      rw [h.2] at hc ⊢
      obtain ⟨hconfig, hcurrent⟩ := withOptions_calm cgroup _ hc
      rw [hconfig]
      exact withRuntime_calm d n hcurrent
    · intro n' h
      rw [h.2]
      exact withRuntime_calm d n
  · intro n' h
    rcases h.2 with ⟨_, rfl⟩ | ⟨_, _, rfl⟩
    · exact fun hc => ⟨rfl, hc⟩
    · exact nofun

theorem InSync.edit (h : InSync m) (t : Target) (r : TargetRun) (cgroup : String) :
    Triple r.fails (· = m) (editTarget t cgroup) InSync InSync := by
  have hcalm : Triple (fun c => r.fails (.shared c)) (· = m.node) _ _ _ :=
    edits_calm t.distro r.shared cgroup m.node
  have hsync : ∀ m', Calm m.node m'.node ∧ m'.loaded = m.loaded → InSync m' := by
    intro m' ⟨hnode, hloaded⟩ hc
    obtain ⟨hconfig, hcurrent⟩ := hnode hc
    rw [hloaded, hconfig, h hcurrent]
  rw [editTarget]
  apply Triple.conseq _ hsync hsync
  apply Triple.within (F := fun m' => m'.loaded = m.loaded) _ hcalm
  · exact fun _ _ _ h => h
  · exact rfl
  · exact fun _ _ _ => rfl

theorem InSync.activate (h : InSync m) (R : Renderer) (d : Distro) (r : TargetRun)
    (cgroup : String) :
    Triple r.fails (· = m) (activateTarget R (.inPlace d) r.shared cgroup) InSync InSync := by
  apply Triple.ite_from
  · intro _
    apply Triple.cmd_seq_from
    · exact fun _ => h
    intro _
    apply Triple.seq (M := (· = { m with node := { m.node with active := true } }))
    · apply Triple.ite_from
      · exact fun _ => Triple.cmd_from (fun _ => h) (fun _ => rfl)
      · exact fun _ => Triple.done fun _ hm => hm
    · exact Triple.cmd_from (fun _ => h) (fun _ _ => rfl)
  · exact fun _ => Triple.cmd_from (fun _ => h) (fun _ => h)

theorem InSync.install (h : InSync m) (R : Renderer) (d : Distro) (r : TargetRun) :
    InSync (installTarget R (.inPlace d) r m).1 := by
  have hcopy : run r.fails (copyConfig (.inPlace d)) m = (m, true) := rfl
  rw [installTarget, hcopy]
  rcases run r.shared.fails (prepare (Target.inPlace d).distro r.shared) "" with ⟨cgroup, _ | _⟩
  · exact h
  have hconfigure : Triple r.fails (· = m) (configureTarget R (.inPlace d) r.shared cgroup)
      InSync InSync := by
    apply Triple.seq (h.edit (.inPlace d) r cgroup)
    apply Triple.seq (M := InSync) (Triple.done fun _ h₁ => h₁)
    exact fun m₁ h₁ => h₁.activate R d r cgroup m₁ rfl
  have hof := hconfigure m rfl
  rcases Bool.eq_false_or_eq_true (run r.fails (configureTarget R (.inPlace d) r.shared cgroup) m).2
    with hs | hs
  · exact hof.1 hs
  · exact hof.2 hs

/-- In place the whole script does what the smaller model says, and the flag of that model means
that the service runs with the text of its configuration. -/
theorem installTargets_inPlace (h : InSync m) (R : Renderer) (d : Distro) (rs : List TargetRun) :
    (installTargets R (.inPlace d) rs m).node = installs d (rs.map TargetRun.shared) m.node ∧
      InSync (installTargets R (.inPlace d) rs m) := by
  induction rs generalizing m with
  | nil => exact ⟨rfl, h⟩
  | cons r rs ih =>
    obtain ⟨hnode, hsync⟩ := ih (h.install R d r)
    apply And.intro _ hsync
    rw [List.map_cons, installs_cons, ← (installTarget_inPlace R d r m).1]
    exact hnode

theorem installTargets_inPlace_fresh :
    InSync (installTargets .plain (.inPlace .generic)
      [⟨restartFails, false, false⟩, ⟨withCgroup, false, false⟩]
      ⟨[], freshNode, freshNode.config⟩) :=
  (installTargets_inPlace (fun _ => rfl) .plain .generic _).2

end ShimSpin.Installer
