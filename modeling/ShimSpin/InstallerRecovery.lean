import ShimSpin.Registration

namespace ShimSpin.Installer
open ErrExit Toml
set_option autoImplicit true

/-- The texts that runs on a text leave, wherever they stop. -/
inductive Edited (d : Distro) (text : Text) : Text → Prop where
  | untouched : Edited d text text
  | runtime : Edited d text (editRuntime d text)
  | options : Edited d text (edit d "true" text)

def SpinPath (version3 : Bool) (p : Path) : Prop :=
  keysOf p = spinKeys version3 ∨ keysOf p = optionsKeys version3

/-- Both headers find their places free, as far as the script would add them. -/
structure Extensible (c : Config) : Prop where
  runtime : hasSpin c.text = false →
    ∃ p, Fits c.defs (spinKeys (isVersion3 c.text)) "runtime_type".toList p ∧
      Fits c.defs (optionsKeys (isVersion3 c.text)) "SystemdCgroup".toList (optionsPath p)
  options : hasSpin c.text = true → hasOptions c.text = false →
    ∃ q, Fits c.defs (optionsKeys (isVersion3 c.text)) "SystemdCgroup".toList q

/-- A text that goes on where a configuration ends and keeps all its settings, with those of spin
added at most. -/
structure KeepsSettings (c : Config) (text : Text) : Prop where
  kept : c.text <+: text
  adds : ∃ D, read text = some D ∧ Adds c.defs D (SpinPath (isVersion3 c.text))

variable {d : Distro} {r : Run} {rs : List Run} {n : Node} {cgroup : String} {text u : Text}
  {c : Config} {version3 : Bool}

theorem edit_of_ne (h : cgroup ≠ "true") (d : Distro) (text : Text) :
    edit d cgroup text = editRuntime d text := by
  rw [edit, editOptions, if_neg]
  exact fun hw => h (wantsOptions_iff.1 hw).2

theorem editRuntime_edit (d : Distro) (cgroup : String) (text : Text) :
    editRuntime d (edit d cgroup text) = edit d cgroup text := by
  rw [editRuntime, if_pos (hasSpin_edit d cgroup text)]

theorem editRuntime_idempotent (d : Distro) (text : Text) :
    editRuntime d (editRuntime d text) = editRuntime d text := by
  rw [editRuntime, if_pos (hasSpin_editRuntime d text)]

theorem edit_editRuntime (d : Distro) (cgroup : String) (text : Text) :
    edit d cgroup (editRuntime d text) = edit d cgroup text := by
  rw [edit, editRuntime_idempotent, edit]

theorem Edited.editRuntime (h : Edited d text u) : Edited d text (editRuntime d u) := by
  cases h with
  | untouched => exact .runtime
  | runtime =>
    rw [editRuntime_idempotent]
    exact .runtime
  | options =>
    rw [editRuntime_edit]
    exact .options

theorem Edited.edit_eq (h : Edited d text u) (cgroup : String) :
    edit d cgroup u = edit d cgroup text ∨
      cgroup ≠ "true" ∧ edit d cgroup u = edit d "true" text := by
  cases h with
  | untouched => exact .inl rfl
  | runtime => exact .inl (edit_editRuntime d cgroup text)
  | options =>
    by_cases hc : cgroup = "true"
    · rw [hc]
      exact .inl (edit_idempotent d "true" text)
    · refine .inr ⟨hc, ?_⟩
      rw [edit_of_ne hc, editRuntime_edit]

theorem Edited.edit (h : Edited d text u) (cgroup : String) :
    Edited d text (edit d cgroup u) := by
  rcases h.edit_eq cgroup with he | ⟨_, he⟩
  · rw [he]
    by_cases hc : cgroup = "true"
    · rw [hc]
      exact .options
    · rw [edit_of_ne hc]
      exact .runtime
  · rw [he]
    exact .options

theorem activate_keeps (d : Distro) (r : Run) (cgroup : String) (n : Node) :
    Triple r.fails (· = n) (activate d r cgroup) (fun m => m.config = n.config)
      fun m => m.config = n.config := by
  cases ha : n.active with
  | true =>
    apply Triple.conseq (activate_spec_marked ha d r cgroup)
    · exact fun m hm => congrArg Node.config hm
    · exact fun m hm => congrArg Node.config hm
  | false =>
    apply Triple.conseq (activate_spec_unmarked ha d r cgroup)
    · exact fun m hm => hm.2 ▸ rfl
    · intro m hm
      rcases hm with ⟨_, rfl⟩ | ⟨_, _, rfl⟩
      · rfl
      · rfl

/-- Wherever a run stops, it leaves one of three texts. -/
theorem configure_texts (d : Distro) (r : Run) (cgroup : String) (n : Node) :
    Triple r.fails (· = n) (configure d r cgroup)
      (fun m => m.config = edit d cgroup n.config)
      (fun m => m.config = n.config ∨ m.config = editRuntime d n.config ∨
        m.config = edit d cgroup n.config) := by
  have hruntime : (withRuntime d n).config = editRuntime d n.config := by
    rw [withRuntime, editRuntime]
    split_ifs with h
    · rfl
    · rfl
  rw [← config_withOptions, ← hruntime]
  apply Triple.seq (Triple.conseq (addRuntime_spec d r n) (fun m hm => hm) _)
  · apply Triple.pure
    intro _
    apply Triple.seq (Triple.conseq (addOptions_spec cgroup r _) (fun m hm => hm) _)
    · apply Triple.pure
      intro _
      apply Triple.conseq (activate_keeps d r cgroup _) (fun m hm => hm)
      exact fun m hm => .inr (.inr hm)
    · exact fun m hm => .inr (.inl (congrArg Node.config hm.2))
  · intro m h
    obtain ⟨hs, hm⟩ := h
    rcases hm with ⟨_, rfl⟩ | ⟨_, _, rfl⟩
    · exact .inl rfl
    · refine .inr (.inl ?_)
      rw [withRuntime, hs]
      rfl

theorem Edited.install (h : Edited d text n.config) (r : Run) :
    Edited d text (install d r n).1.config := by
  cases hp : prepared d r with
  | none =>
    rw [install_unprepared hp]
    exact h
  | some cgroup =>
    obtain ⟨hok, hstop⟩ := install_triple hp (configure_texts d r cgroup n) rfl
    rcases Bool.eq_false_or_eq_true (Installer.install d r n).2 with hs | hs
    · rw [hok hs]
      exact h.edit cgroup
    · rcases hstop hs with he | he | he
      · rw [he]
        exact h
      · rw [he]
        exact h.editRuntime
      · rw [he]
        exact h.edit cgroup

theorem Edited.installs (h : Edited d text n.config) (rs : List Run) :
    Edited d text (installs d rs n).config := by
  induction rs generalizing n with
  | nil => exact h
  | cons r rs ih => exact ih (h.install r)

/-- Runs leave one of three texts, wherever they stop, and a run that comes to its end leaves what
it would have left as the first, or the options that another one has added. -/
theorem interrupted_runs (d : Distro) (rs : List Run) (n : Node) :
    Edited d n.config (installs d rs n).config ∧
    ∀ r cgroup, prepared d r = some cgroup → (install d r (installs d rs n)).2 = true →
      (install d r (installs d rs n)).1.config = edit d cgroup n.config ∨
        cgroup ≠ "true" ∧ (install d r (installs d rs n)).1.config = edit d "true" n.config := by
  have h : Edited d n.config (installs d rs n).config := Edited.installs .untouched rs
  apply And.intro h
  intro r cgroup hp hok
  rw [install_edits hp hok]
  exact h.edit_eq cgroup

theorem interrupted_runs_fresh :
    (install .generic withCgroup (installs .generic [restartFails] freshNode)).1.config =
      edit .generic "true" freshNode.config := by
  have hp : prepared .generic withCgroup = some "true" := by decide +kernel
  rcases (interrupted_runs .generic [restartFails] freshNode).2 withCgroup "true" hp
    freshNode_runs.2.2.2.1 with h | ⟨h, _⟩
  · exact h
  · exact (h rfl).elim

theorem rewritten_inPlace (d : Distro) (text : Text) : rewritten (.inPlace d) text = text :=
  if_neg fun h => by cases h

theorem configured_inPlace (d : Distro) (cgroup : String) (text : Text) :
    configured (.inPlace d) cgroup text = edit d cgroup text := by
  rw [configured, rewritten_inPlace]
  rfl

theorem adds_fits {D : Defs} {keys : List Key} {k k' : Key} {v : Def} {p : Path}
    (h : Fits D (keys ++ [k]) k' p) (hT : SpinPath version3 p) :
    Adds D (withTable D p k' v) (SpinPath version3) :=
  adds_withTable (tablePath_isFree h.1) h.2 hT

theorem spinPath_runtime {D : Defs} {p : Path}
    (h : Fits D (spinKeys version3) "runtime_type".toList p) : SpinPath version3 p :=
  .inl (tablePath_keys h.1)

theorem spinPath_options {D : Defs} {p : Path}
    (h : Fits D (optionsKeys version3) "SystemdCgroup".toList p) : SpinPath version3 p :=
  .inr (tablePath_keys h.1)

theorem adds_fresh (hspin : hasSpin c.text = false) (he : Extensible c) (d : Distro)
    (cgroup : String) : ∃ D, read (edit d cgroup c.text) = some D ∧
      Adds c.defs D (SpinPath (isVersion3 c.text)) := by
  obtain ⟨p, hfits, hoptions⟩ := he.runtime hspin
  have hadds : Adds c.defs (withRuntimeTable c.defs p) (SpinPath (isVersion3 c.text)) :=
    adds_fits hfits (spinPath_runtime hfits)
  rw [← configured_inPlace]
  by_cases hc : cgroup = "true"
  · have hbelow := (fits_below hfits).2 ⟨rfl, hoptions⟩
    refine ⟨withOptionsTable (withRuntimeTable c.defs p) (optionsPath p),
      (read_fresh hspin _ _).2 ⟨p, hfits, ?_⟩,
      hadds.trans (adds_fits hbelow (spinPath_options hbelow))⟩
    rw [if_pos hc]
    exact ⟨hoptions, rfl⟩
  · refine ⟨_, (read_fresh hspin _ _).2 ⟨p, hfits, ?_⟩, hadds⟩
    rw [if_neg hc]

theorem adds_present (hspin : hasSpin c.text = true) (he : Extensible c) (d : Distro)
    (cgroup : String) : ∃ D, read (edit d cgroup c.text) = some D ∧
      Adds c.defs D (SpinPath (isVersion3 c.text)) := by
  rw [← configured_inPlace]
  have hread : read (rewritten (.inPlace d) c.text) = some c.defs := by
    rw [rewritten_inPlace]
    exact c.read_text
  cases hw : wantsOptions c.text cgroup with
  | true =>
    obtain ⟨q, hfits⟩ := he.options hspin (wantsOptions_iff.1 hw).1
    refine ⟨withOptionsTable c.defs q, (read_present hspin _ _).2 ⟨_, hread, ?_⟩,
      adds_fits hfits (spinPath_options hfits)⟩
    rw [hw]
    exact ⟨q, hfits, rfl⟩
  | false =>
    refine ⟨c.defs, (read_present hspin _ _).2 ⟨_, hread, ?_⟩, .refl _ _⟩
    rw [hw]
    rfl

theorem Edited.keeps (h : Edited d c.text text) (he : Extensible c) : KeepsSettings c text := by
  have hedit (cgroup : String) : KeepsSettings c (Installer.edit d cgroup c.text) := by
    apply KeepsSettings.mk (prefix_edit d cgroup c.text)
    cases hspin : hasSpin c.text with
    | true => exact adds_present hspin he d cgroup
    | false => exact adds_fresh hspin he d cgroup
  cases h with
  | untouched => exact ⟨List.prefix_rfl, c.defs, c.read_text, .refl _ _⟩
  | runtime =>
    rw [← edit_of_ne (by decide : "false" ≠ "true")]
    exact hedit "false"
  | options => exact hedit "true"

/-- A complete run with options shows whether the headers find their places. -/
theorem extensible_of_read (h : (read (edit d "true" c.text)).isSome) : Extensible c := by
  obtain ⟨D, hD⟩ := Option.isSome_iff_exists.1 h
  rw [← configured_inPlace] at hD
  apply Extensible.mk
  · intro hspin
    obtain ⟨p, hfits, hrest⟩ := (read_fresh hspin _ _).1 hD
    rw [if_pos rfl] at hrest
    exact ⟨p, hfits, hrest.1⟩
  · intro hspin hnone
    obtain ⟨D', hread, hrest⟩ := (read_present hspin _ _).1 hD
    rw [if_pos (wantsOptions_iff.2 ⟨hnone, rfl⟩)] at hrest
    rw [rewritten_inPlace, c.read_text] at hread
    cases hread
    obtain ⟨q, hfits, _⟩ := hrest
    exact ⟨q, hfits⟩

theorem quietRun_prepared (d : Distro) :
    prepared d (quietRun (some "true") fun _ => false) = some "true" := by
  cases d with
  | generic => decide +kernel
  | microk8s => decide +kernel
  | k0s => decide +kernel

theorem quietRun_completes (d : Distro) (n : Node) :
    (install d (quietRun (some "true") fun _ => false) n).2 = true := by
  rw [install_prepared (quietRun_prepared d)]
  apply run_of_noExit (fun _ => rfl)
  simp only [configure, addRuntime, addOptions, activate, appendBlock, Script.NoExit, and_self]

/-- Runs that may stop anywhere keep the configuration valid and all settings in it, exactly when
the headers of the script find their places free. -/
theorem installs_keep_settings (d : Distro) (c : Config) :
    (∀ rs n, n.config = c.text → KeepsSettings c (installs d rs n).config) ↔ Extensible c := by
  apply Iff.intro
  · intro h
    obtain ⟨D, hread, _⟩ :=
      (h [quietRun (some "true") fun _ => false] ⟨c.text, false, false⟩ rfl).adds
    rw [installs_cons, installs_nil, install_edits (quietRun_prepared d) (quietRun_completes d _)]
      at hread
    exact extensible_of_read (Option.isSome_of_eq_some hread)
  · intro he rs n hn
    have h : Edited d c.text n.config := hn ▸ .untouched
    exact (h.installs rs).keeps he

end ShimSpin.Installer
