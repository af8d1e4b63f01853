import ShimSpin.InstallerRecovery

namespace ShimSpin.Installer
open ErrExit
set_option autoImplicit true

/-- The script finds the configuration of the distribution, or can make it. -/
def Detected (d : Distro) (r : Run) : Prop :=
  match d with
  | .generic => True
  | .microk8s => r.templateFound = true
  | .k0s => r.fails .touchConf = false

/-- D-Bus is there, or the first package manager that is found installs it. -/
def DbusInstalled (r : Run) : Prop :=
  if r.which "dbus-daemon" then True
  else if r.which "apt-get" then r.Passes [.aptUpdate, .aptInstall]
  else if r.which "yum" then r.Passes [.yumInstall]
  else if r.which "dnf" then r.Passes [.dnfInstall]
  else if r.which "apk" then r.Passes [.apkAdd]
  else False

def shimCommands : List Command := [.makeBinDir, .copyShim, .makeLocalBinDir, .linkShim]

variable {d : Distro} {r : Run} {rs : List Run} {n : Node} {cgroup value : String} {text : Text}

theorem detect_spec (d : Distro) (r : Run) (value : String) :
    Triple r.fails (· = value) (detect d r) (fun s => Detected d r ∧ s = value)
      fun _ => ¬ Detected d r := by
  cases d with
  | generic => exact Triple.done fun s hs => ⟨trivial, hs⟩
  | microk8s =>
    rw [detect]
    split_ifs with h
    · exact Triple.done fun s hs => ⟨h, hs⟩
    · apply Triple.cmd_seq_from
      · exact fun _ => h
      · exact fun _ s _ => ⟨nofun, fun _ => h⟩
  | k0s =>
    apply Triple.cmd_from
    · intro hf h
      rw [Detected, hf] at h
      cases h
    · exact fun hf => ⟨hf, rfl⟩

theorem dbusInstalled_iff {commands : List Command}
    (h : DbusInstalled r = r.Passes commands) (hvalue : value = "true") :
    (r.Passes commands → (value = "true" ∧ DbusInstalled r)) ∧
      (¬ r.Passes commands → ¬ (value = "true" ∧ DbusInstalled r)) := by
  rw [h]
  exact ⟨fun hp => ⟨hvalue, hp⟩, fun hp ht => hp ht.2⟩

/-- The setting comes out of this step as true only with D-Bus. -/
theorem installDbus_spec (r : Run) (value : String) :
    Triple r.fails (· = value) (installDbus r)
      (fun s => s = "true" ↔ value = "true" ∧ DbusInstalled r)
      fun _ => ¬ (value = "true" ∧ DbusInstalled r) := by
  have hone {command : Command} (hd : DbusInstalled r = r.Passes [command])
      (hvalue : value = "true") :
      Triple r.fails (· = value) (.cmd command id)
        (fun s => s = "true" ↔ value = "true" ∧ DbusInstalled r)
        fun _ => ¬ (value = "true" ∧ DbusInstalled r) := by
    apply Triple.cmd_from
    · exact fun hf => (dbusInstalled_iff hd hvalue).2 (not_passes List.mem_cons_self hf)
    · intro hf
      exact iff_of_true hvalue ((dbusInstalled_iff hd hvalue).1 (passes_cons.2 ⟨hf, passes_nil⟩))
  apply Triple.ite_from
  · intro hvalue
    have hvalue := of_decide_eq_true hvalue
    by_cases hdbus : r.which "dbus-daemon" = true
    · rw [if_pos hdbus]
      apply Triple.done
      rintro s rfl
      exact iff_of_true hvalue ⟨hvalue, by rw [DbusInstalled, if_pos hdbus]; trivial⟩
    rw [if_neg hdbus]
    by_cases hapt : r.which "apt-get" = true
    · rw [if_pos hapt]
      have hd : DbusInstalled r = r.Passes [.aptUpdate, .aptInstall] := by
        rw [DbusInstalled, if_neg hdbus, if_pos hapt]
      apply Triple.cmd_seq_from
      · exact fun hf => (dbusInstalled_iff hd hvalue).2 (not_passes List.mem_cons_self hf)
      intro hupdate
      apply Triple.cmd_from
      · exact fun hf => (dbusInstalled_iff hd hvalue).2 (not_passes (.tail _ (.head _)) hf)
      · intro hf
        exact iff_of_true hvalue ((dbusInstalled_iff hd hvalue).1
          (passes_cons.2 ⟨hupdate, passes_cons.2 ⟨hf, passes_nil⟩⟩))
    rw [if_neg hapt]
    by_cases hyum : r.which "yum" = true
    · rw [if_pos hyum]
      exact hone (by rw [DbusInstalled, if_neg hdbus, if_neg hapt, if_pos hyum]) hvalue
    rw [if_neg hyum]
    by_cases hdnf : r.which "dnf" = true
    · rw [if_pos hdnf]
      exact hone (by rw [DbusInstalled, if_neg hdbus, if_neg hapt, if_neg hyum, if_pos hdnf]) hvalue
    rw [if_neg hdnf]
    by_cases hapk : r.which "apk" = true
    · rw [if_pos hapk]
      exact hone (by rw [DbusInstalled, if_neg hdbus, if_neg hapt, if_neg hyum, if_neg hdnf,
        if_pos hapk]) hvalue
    rw [if_neg hapk]
    have hnone : ¬ DbusInstalled r := by
      rw [DbusInstalled, if_neg hdbus, if_neg hapt, if_neg hyum, if_neg hdnf, if_neg hapk]
      exact id
    apply Triple.cmd_seq_from
    · exact fun _ ht => hnone ht.2
    intro _
    apply Triple.set_seq_from
    apply Triple.cmd_from
    · exact fun _ ht => hnone ht.2
    · exact fun _ => iff_of_false (by decide) fun ht => hnone ht.2
  · intro hvalue
    have hvalue := of_decide_eq_false hvalue
    apply Triple.done
    rintro s rfl
    exact iff_of_false hvalue fun ht => hvalue ht.1

theorem installShim_spec (r : Run) (value : String) :
    Triple r.fails (· = value) installShim (fun s => r.Passes shimCommands ∧ s = value)
      fun _ => ¬ r.Passes shimCommands := by
  apply Triple.cmd_seq_from
  · exact not_passes List.mem_cons_self
  intro hbin
  apply Triple.cmd_seq_from
  · exact not_passes (.tail _ (.head _))
  intro hcopy
  apply Triple.cmd_seq_from
  · exact not_passes (.tail _ (.tail _ (.head _)))
  intro hlocal
  apply Triple.cmd_from
  · exact not_passes (.tail _ (.tail _ (.tail _ (.head _))))
  · intro hlink
    exact ⟨passes_cons.2 ⟨hbin, passes_cons.2 ⟨hcopy, passes_cons.2 ⟨hlocal,
      passes_cons.2 ⟨hlink, passes_nil⟩⟩⟩⟩, rfl⟩

/-- A run that comes to the edits with the setting has D-Bus. -/
structure Equipped (d : Distro) (r : Run) : Prop where
  detected : Detected d r
  requested : systemdCgroup d r = "true"
  dbus : DbusInstalled r
  shim : r.Passes shimCommands

theorem prepare_spec (d : Distro) (r : Run) : Triple r.fails (· = "") (prepare d r)
    (fun s => s = "true" ↔ Equipped d r) fun _ => ¬ Equipped d r := by
  apply Triple.seq (Triple.conseq (detect_spec d r "") (fun s hs => hs) fun _ hn he =>
    hn he.detected)
  apply Triple.pure
  intro hdetected
  apply Triple.set_seq_from
  apply Triple.seq (Triple.conseq (installDbus_spec r _) (fun s hs => hs) fun _ hn he =>
    hn ⟨he.requested, he.dbus⟩)
  intro s hs
  obtain ⟨hok, hstop⟩ := installShim_spec r s s rfl
  apply And.intro
  · intro h
    obtain ⟨hshim, he⟩ := hok h
    rw [he, hs]
    exact ⟨fun ht => ⟨hdetected, ht.1, ht.2, hshim⟩, fun he => ⟨he.requested, he.dbus⟩⟩
  · exact fun h he => hstop h he.shim

theorem prepared_true_iff : prepared d r = some "true" ↔ Equipped d r := by
  obtain ⟨hok, hstop⟩ := prepare_spec d r "" rfl
  rw [prepared]
  rcases hrun : run r.fails (prepare d r) "" with ⟨value, _ | _⟩
  · rw [hrun] at hstop
    exact iff_of_false (Option.some_ne_none _).symm (hstop rfl)
  · rw [hrun] at hok
    exact Option.some_inj.trans (hok rfl)

theorem hasOptions_editRuntime (h : hasOptions text = false) (d : Distro) :
    hasOptions (editRuntime d text) = false := by
  rw [editRuntime]
  split_ifs with hs
  · exact h
  · rw [runtimeBlock_eq, hasOptions, grep_append_newline (by decide)]
    exact Bool.or_eq_false_iff.2 ⟨h, (runtimeLines_facts d _).2.2.1⟩

theorem hasOptions_install (h : hasOptions n.config = false) (hp : prepared d r ≠ some "true") :
    hasOptions (install d r n).1.config = false := by
  cases hprep : prepared d r with
  | none =>
    rw [install_unprepared hprep]
    exact h
  | some cgroup =>
    have hc : cgroup ≠ "true" := fun he => hp (he ▸ hprep)
    have hedit := hasOptions_editRuntime h d
    obtain ⟨hok, hstop⟩ := install_triple hprep (configure_texts d r cgroup n) rfl
    rw [edit_of_ne hc] at hok hstop
    rcases Bool.eq_false_or_eq_true (install d r n).2 with hs | hs
    · rw [hok hs]
      exact hedit
    · rcases hstop hs with he | he | he
      · rw [he]
        exact h
      · rw [he]
        exact hedit
      · rw [he]
        exact hedit

theorem equipped_of_hasOptions (h : hasOptions n.config = false)
    (hrs : hasOptions (installs d rs n).config = true) : ∃ r ∈ rs, Equipped d r := by
  induction rs generalizing n with
  | nil =>
    rw [installs_nil, h] at hrs
    cases hrs
  | cons r rs ih =>
    by_cases hp : prepared d r = some "true"
    · exact ⟨r, List.mem_cons_self, prepared_true_iff.1 hp⟩
    · obtain ⟨r', hr', he⟩ := ih (hasOptions_install h hp) hrs
      exact ⟨r', List.mem_cons_of_mem r hr', he⟩

theorem hasOptions_edit (d : Distro) (text : Text) : hasOptions (edit d "true" text) = true := by
  have hw := wantsOptions_edit d "true" text
  rw [← Bool.not_eq_true, wantsOptions_iff] at hw
  by_contra hnone
  exact hw ⟨Bool.eq_false_iff.2 hnone, rfl⟩

/-- Options for systemd come into a configuration only through a run that has D-Bus, and every such
run that comes to its end leaves them there. -/
theorem options_need_dbus (h : hasOptions n.config = false) (d : Distro) (rs : List Run) :
    (hasOptions (installs d rs n).config = true → ∃ r ∈ rs, Equipped d r) ∧
    ∀ r, Equipped d r → (install d r (installs d rs n)).2 = true →
      hasOptions (install d r (installs d rs n)).1.config = true := by
  apply And.intro (equipped_of_hasOptions h)
  intro r he hok
  rw [install_edits (prepared_true_iff.2 he) hok]
  exact hasOptions_edit d _

theorem options_need_dbus_fresh : ∃ r ∈ [withoutCgroup, withCgroup], Equipped .generic r :=
  (options_need_dbus (n := freshNode) (by decide +kernel) .generic [withoutCgroup, withCgroup]).1
    (by decide +kernel)

end ShimSpin.Installer
