import ShimSpin.Installer

namespace ShimSpin.Installer
open ErrExit
set_option autoImplicit true

/-- The marker is there only if the service runs with the configuration as it is. -/
def MarkerCurrent (n : Node) : Prop := n.active = true → n.current = true

/-- The marker keeps every further run from restarting the service. -/
structure Stale (n : Node) : Prop where
  active : n.active = true
  current : n.current = false
  spin : hasSpin n.config = true

def Run.Passes (r : Run) (commands : List Command) : Prop := ∀ c ∈ commands, r.fails c = false

/-- The value of `SYSTEMD_CGROUP` with which a run comes to the edits, if it does. -/
def prepared (d : Distro) (r : Run) : Option String :=
  match run r.fails (prepare d r) "" with
  | (cgroup, true) => some cgroup
  | (_, false) => none

def runtimeCommands (n : Node) : List Command :=
  if hasSpin n.config then [] else [.sayAdding, .appendRuntime, .removeActive]

def withRuntime (d : Distro) (n : Node) : Node :=
  if hasSpin n.config then n
  else { n.edit (runtimeBlock d (isVersion3 n.config)) with active := false }

def optionCommands (cgroup : String) (n : Node) : List Command :=
  if wantsOptions n.config cgroup then [.saySetting, .appendOptions] else []

def withOptions (cgroup : String) (n : Node) : Node :=
  if wantsOptions n.config cgroup then n.edit (optionsBlock cgroup (isVersion3 n.config)) else n

def dbusCommands (cgroup : String) : List Command :=
  if cgroup = "true" then [.restartDbus] else []

def restartCommands (d : Distro) (r : Run) (cgroup : String) : List Command :=
  dbusCommands cgroup ++ [.restart (service d r)]

/-- The ways in which a run changes the configuration without a restart and leaves the marker:
it stops before it has removed the marker, it adds options next to a marker, or it stops
between the new marker and the restart that is due. -/
inductive LosesRestart (d : Distro) (r : Run) (n : Node) : Prop where
  | markerKept : prepared d r = some cgroup → hasSpin n.config = false → n.active = true →
      r.Passes [.sayAdding, .appendRuntime] → r.fails .removeActive = true → LosesRestart d r n
  | optionsAdded : prepared d r = some cgroup → hasSpin n.config = true → n.active = true →
      wantsOptions n.config cgroup = true → r.Passes [.saySetting, .appendOptions] →
      LosesRestart d r n
  | restartFailed : prepared d r = some cgroup → hasSpin n.config = false ∨ n.active = false →
      hasSpin n.config = false ∨ wantsOptions n.config cgroup = true ∨ n.current = false →
      r.Passes (runtimeCommands n ++ optionCommands cgroup (withRuntime d n)) →
      r.fails .touchActive = false → ¬ r.Passes (restartCommands d r cgroup) →
      LosesRestart d r n

variable {d : Distro} {r : Run} {n m : Node} {cgroup : String} {rs : List Run}

theorem hasSpin_append {text : Text} (h : hasSpin text = true) (block : Text) :
    hasSpin (text ++ block) = true :=
  Search.occurs_append_right h block

theorem hasSpin_runtimeBlock (d : Distro) (version3 : Bool) (text : Text) :
    hasSpin (text ++ (runtimeBlock d version3).toList) = true := by
  have hend : hasSpin "/bin/containerd-shim-spin-v2\"\n\n".toList = true := by decide
  rw [runtimeBlock, String.toList_append]
  exact Search.occurs_append_left (Search.occurs_append_left hend _) _

theorem hasSpin_withRuntime (d : Distro) (n : Node) :
    hasSpin (withRuntime d n).config = true := by
  rw [withRuntime]
  by_cases h : hasSpin n.config
  · rw [if_pos h, h]
  · rw [if_neg h]
    exact hasSpin_runtimeBlock d _ n.config

theorem hasSpin_withOptions (cgroup : String) (h : hasSpin n.config = true) :
    hasSpin (withOptions cgroup n).config = true := by
  rw [withOptions]
  by_cases hw : wantsOptions n.config cgroup
  · rw [if_pos hw]
    exact hasSpin_append h _
  · rw [if_neg hw, h]

theorem passes_append {cs cs' : List Command} :
    r.Passes (cs ++ cs') ↔ r.Passes cs ∧ r.Passes cs' := by
  simp only [Run.Passes, List.mem_append, or_imp, forall_and]

theorem passes_cons {c : Command} {cs : List Command} :
    r.Passes (c :: cs) ↔ r.fails c = false ∧ r.Passes cs := List.forall_mem_cons

theorem passes_nil : r.Passes [] := nofun

theorem not_passes {c : Command} {cs : List Command} (hc : c ∈ cs) (hf : r.fails c = true) :
    ¬ r.Passes cs := by
  intro hp
  rw [hp c hc] at hf
  cases hf

theorem appendBlock_spec {name : Command} {block : Bool → String} {R : Node → Prop}
    (hR : r.fails name = true → R n) :
    Triple r.fails (· = n) (appendBlock name block)
      (fun m => r.fails name = false ∧ m = n.edit (block (isVersion3 n.config))) R := by
  apply Triple.ite_from
  · intro hv
    exact Triple.cmd_from hR fun hf => ⟨hf, by rw [hv]⟩
  · intro hv
    exact Triple.cmd_from hR fun hf => ⟨hf, by rw [hv]⟩

/-- The first edit passes, or stops before its change or between the change and the removal
of the marker. -/
theorem addRuntime_spec (d : Distro) (r : Run) (n : Node) :
    Triple r.fails (· = n) (addRuntime d)
      (fun m => r.Passes (runtimeCommands n) ∧ m = withRuntime d n)
      (fun m => hasSpin n.config = false ∧
        (¬ r.Passes [.sayAdding, .appendRuntime] ∧ m = n ∨
          r.Passes [.sayAdding, .appendRuntime] ∧ r.fails .removeActive = true ∧
            m = n.edit (runtimeBlock d (isVersion3 n.config)))) := by
  apply Triple.ite_from
  · intro hs
    have hs : hasSpin n.config = false := Bool.not_eq_true' _ ▸ hs
    have hcommands : runtimeCommands n = [.sayAdding, .appendRuntime] ++ [.removeActive] := by
      rw [runtimeCommands, hs]
      rfl
    have hruntime : withRuntime d n =
        { n.edit (runtimeBlock d (isVersion3 n.config)) with active := false } := by
      rw [withRuntime, hs]
      rfl
    rw [hcommands, hruntime]
    apply Triple.cmd_seq_from
    · exact fun hf => ⟨hs, .inl ⟨not_passes List.mem_cons_self hf, rfl⟩⟩
    intro hsay
    apply Triple.seq (appendBlock_spec fun hf =>
      ⟨hs, .inl ⟨not_passes (.tail _ (.head _)) hf, rfl⟩⟩)
    apply Triple.pure
    intro happend
    have hpass : r.Passes [.sayAdding, .appendRuntime] :=
      passes_cons.2 ⟨hsay, passes_cons.2 ⟨happend, passes_nil⟩⟩
    apply Triple.cmd_from
    · exact fun hf => ⟨hs, .inr ⟨hpass, hf, rfl⟩⟩
    · exact fun hf => ⟨passes_append.2 ⟨hpass, passes_cons.2 ⟨hf, passes_nil⟩⟩, rfl⟩
  · intro hs
    have hs : hasSpin n.config = true := Bool.not_eq_false' _ ▸ hs
    apply Triple.done
    intro m hm
    rw [runtimeCommands, withRuntime, if_pos hs, if_pos hs]
    exact ⟨passes_nil, hm⟩

theorem addOptions_spec (cgroup : String) (r : Run) (n : Node) :
    Triple r.fails (· = n) (addOptions cgroup)
      (fun m => r.Passes (optionCommands cgroup n) ∧ m = withOptions cgroup n)
      (fun m => ¬ r.Passes (optionCommands cgroup n) ∧ m = n) := by
  apply Triple.ite_from
  · intro hw
    rw [optionCommands, withOptions, if_pos hw, if_pos hw]
    apply Triple.cmd_seq_from
    · exact fun hf => ⟨not_passes List.mem_cons_self hf, rfl⟩
    intro hsay
    apply Triple.conseq (R := fun m => ¬ r.Passes [.saySetting, .appendOptions] ∧ m = n)
      (appendBlock_spec fun hf => ⟨not_passes (.tail _ (.head _)) hf, rfl⟩)
    · intro m hm
      exact ⟨passes_cons.2 ⟨hsay, passes_cons.2 ⟨hm.1, passes_nil⟩⟩, hm.2⟩
    · exact fun m hm => hm
  · intro hw
    have hw : ¬ wantsOptions n.config cgroup = true := Bool.eq_false_iff.1 hw
    apply Triple.done
    intro m hm
    rw [optionCommands, withOptions, if_neg hw, if_neg hw]
    exact ⟨passes_nil, hm⟩

theorem restartDbus_spec (cgroup : String) (r : Run) (n : Node) :
    Triple r.fails (· = n) (.ite (fun _ => cgroup = "true") (.cmd .restartDbus id) .done)
      (fun m => r.Passes (dbusCommands cgroup) ∧ m = n)
      (fun m => ¬ r.Passes (dbusCommands cgroup) ∧ m = n) := by
  apply Triple.ite_from
  · intro hc
    rw [dbusCommands, if_pos (of_decide_eq_true hc)]
    apply Triple.cmd_from
    · exact fun hf => ⟨not_passes List.mem_cons_self hf, rfl⟩
    · exact fun hf => ⟨passes_cons.2 ⟨hf, passes_nil⟩, rfl⟩
  · intro hc
    rw [dbusCommands, if_neg (of_decide_eq_false hc)]
    exact Triple.done fun m hm => ⟨passes_nil, hm⟩

/-- Without a marker, the restart follows the new marker. -/
theorem activate_spec_unmarked (h : n.active = false) (d : Distro) (r : Run) (cgroup : String) :
    Triple r.fails (· = n) (activate d r cgroup)
      (fun m => r.Passes (restartCommands d r cgroup) ∧
        m = { n with active := true, current := true })
      (fun m => r.fails .touchActive = true ∧ m = n ∨
        r.fails .touchActive = false ∧ ¬ r.Passes (restartCommands d r cgroup) ∧
          m = { n with active := true }) := by
  apply Triple.ite_from
  · intro _
    apply Triple.cmd_seq_from
    · exact fun hf => .inl ⟨hf, rfl⟩
    intro htouch
    rw [restartCommands]
    apply Triple.seq (M := fun m => r.Passes (dbusCommands cgroup) ∧ m = { n with active := true })
    · apply Triple.conseq (restartDbus_spec cgroup r { n with active := true })
      · exact fun m hm => hm
      · intro m hm
        exact .inr ⟨htouch, fun hp => hm.1 (passes_append.1 hp).1, hm.2⟩
    · apply Triple.pure
      intro hdbus
      apply Triple.cmd_from
      · intro hf
        exact .inr ⟨htouch, fun hp => not_passes List.mem_cons_self hf (passes_append.1 hp).2, rfl⟩
      · intro hf
        exact ⟨passes_append.2 ⟨hdbus, passes_cons.2 ⟨hf, passes_nil⟩⟩, rfl⟩
  · intro ha
    rw [h] at ha
    cases ha

theorem activate_spec_marked (h : n.active = true) (d : Distro) (r : Run) (cgroup : String) :
    Triple r.fails (· = n) (activate d r cgroup) (· = n) (· = n) := by
  apply Triple.ite_from
  · intro ha
    rw [h] at ha
    cases ha
  · intro _
    exact Triple.cmd_from (fun _ => rfl) (fun _ => rfl)

theorem withOptions_active (cgroup : String) (n : Node) :
    (withOptions cgroup n).active = n.active := by
  rw [withOptions]
  split_ifs with hw
  · rfl
  · rfl

theorem edits_active : (withOptions cgroup (withRuntime d n)).active = true ↔
    hasSpin n.config = true ∧ n.active = true := by
  rw [withOptions_active, withRuntime]
  split_ifs with hs
  · simp only [hs, true_and]
  · simp only [hs, Bool.false_eq_true, false_and]

theorem edits_current : (withOptions cgroup (withRuntime d n)).current = false ↔
    hasSpin n.config = false ∨ wantsOptions n.config cgroup = true ∨ n.current = false := by
  cases hs : hasSpin n.config with
  | false =>
    have hruntime : (withRuntime d n).current = false := by rw [withRuntime, hs]; rfl
    rw [withOptions]
    split_ifs with hw
    · exact iff_of_true rfl (.inl rfl)
    · exact iff_of_true hruntime (.inl rfl)
  | true =>
    have hruntime : withRuntime d n = n := by rw [withRuntime, if_pos hs]
    rw [hruntime, withOptions]
    split_ifs with hw
    · exact iff_of_true rfl (.inr (.inl hw))
    · simp only [reduceCtorEq, hw, false_or]

/-- A run that gets past the first edit loses a restart only later. -/
theorem losesRestart_passed (hp : prepared d r = some cgroup)
    (hpass : r.Passes (runtimeCommands n)) (h : LosesRestart d r n) :
    (hasSpin n.config = true ∧ n.active = true ∧ wantsOptions n.config cgroup = true ∧
      r.Passes [.saySetting, .appendOptions]) ∨
    ((hasSpin n.config = false ∨ n.active = false) ∧
      (hasSpin n.config = false ∨ wantsOptions n.config cgroup = true ∨ n.current = false) ∧
      r.Passes (optionCommands cgroup (withRuntime d n)) ∧ r.fails .touchActive = false ∧
      ¬ r.Passes (restartCommands d r cgroup)) := by
  cases h with
  | markerKept hp' hs _ _ hf =>
    have hremove : Command.removeActive ∈ runtimeCommands n := by
      rw [runtimeCommands, hs]
      exact .tail _ (.tail _ (.head _))
    exact (not_passes hremove hf hpass).elim
  | optionsAdded hp' hs ha hw hpass' =>
    rw [hp] at hp'
    cases hp'
    exact .inl ⟨hs, ha, hw, hpass'⟩
  | restartFailed hp' hu hstale hpass' ht hr =>
    rw [hp] at hp'
    cases hp'
    exact .inr ⟨hu, hstale, (passes_append.1 hpass').2, ht, hr⟩

theorem losesRestart_unmarked (hp : prepared d r = some cgroup)
    (hpass : r.Passes (runtimeCommands n)) (hu : hasSpin n.config = false ∨ n.active = false)
    (h : LosesRestart d r n) :
    (hasSpin n.config = false ∨ wantsOptions n.config cgroup = true ∨ n.current = false) ∧
      r.fails .touchActive = false ∧ ¬ r.Passes (restartCommands d r cgroup) := by
  rcases losesRestart_passed hp hpass h with ⟨hs, ha, _⟩ | ⟨_, hstale, _, ht, hr⟩
  · rcases hu with hs' | ha'
    · rw [hs] at hs'
      cases hs'
    · rw [ha] at ha'
      cases ha'
  · exact ⟨hstale, ht, hr⟩

theorem addRuntime_stopped (h : MarkerCurrent n) (hp : prepared d r = some cgroup)
    (hs : hasSpin n.config = false)
    (hm : ¬ r.Passes [.sayAdding, .appendRuntime] ∧ m = n ∨
      r.Passes [.sayAdding, .appendRuntime] ∧ r.fails .removeActive = true ∧
        m = n.edit (runtimeBlock d (isVersion3 n.config))) :
    ¬ LosesRestart d r n ∧ MarkerCurrent m ∨ LosesRestart d r n ∧ Stale m := by
  have hruntime : runtimeCommands n = [.sayAdding, .appendRuntime] ++ [.removeActive] := by
    rw [runtimeCommands, hs]
    rfl
  have hcases (hl : LosesRestart d r n) : n.active = true ∧
      r.Passes [.sayAdding, .appendRuntime] ∧ r.fails .removeActive = true ∨
      r.Passes ([.sayAdding, .appendRuntime] ++ [.removeActive]) := by
    cases hl with
    | markerKept _ _ ha hpass hf => exact .inl ⟨ha, hpass, hf⟩
    | optionsAdded _ hs' =>
      rw [hs] at hs'
      cases hs'
    | restartFailed _ _ _ hpass =>
      rw [hruntime] at hpass
      exact .inr (passes_append.1 hpass).1
  rcases hm with ⟨hstop, rfl⟩ | ⟨hpass, hf, rfl⟩
  · apply Or.inl
    apply And.intro _ h
    intro hl
    rcases hcases hl with ⟨_, hpass, _⟩ | hpass
    · exact hstop hpass
    · exact hstop (passes_append.1 hpass).1
  · cases ha : n.active with
    | true =>
      exact .inr ⟨.markerKept hp hs ha hpass hf, ha, rfl, hasSpin_runtimeBlock d _ n.config⟩
    | false =>
      apply Or.inl
      apply And.intro
      · intro hl
        rcases hcases hl with ⟨ha', _⟩ | hpass'
        · rw [ha] at ha'
          cases ha'
        · exact not_passes List.mem_cons_self hf (passes_append.1 hpass').2
      · intro ha'
        have ha' : n.active = true := ha'
        rw [ha] at ha'
        cases ha'

theorem addOptions_stopped (h : MarkerCurrent n) (hp : prepared d r = some cgroup)
    (hpass : r.Passes (runtimeCommands n))
    (hstop : ¬ r.Passes (optionCommands cgroup (withRuntime d n))) :
    ¬ LosesRestart d r n ∧ MarkerCurrent (withRuntime d n) := by
  apply And.intro
  · intro hl
    rcases losesRestart_passed hp hpass hl with ⟨hs, _, hw, hpass'⟩ | ⟨_, _, hpass', _⟩
    · rw [withRuntime, if_pos hs, optionCommands, if_pos hw] at hstop
      exact hstop hpass'
    · exact hstop hpass'
  · rw [withRuntime]
    split_ifs with hs
    · exact h
    · exact nofun

theorem marked_kept (h : MarkerCurrent n) (hp : prepared d r = some cgroup)
    (hpass : r.Passes (runtimeCommands n))
    (hpass' : r.Passes (optionCommands cgroup (withRuntime d n)))
    (ha : (withOptions cgroup (withRuntime d n)).active = true) :
    ¬ LosesRestart d r n ∧ (withOptions cgroup (withRuntime d n)).current = true ∨
      LosesRestart d r n ∧ Stale (withOptions cgroup (withRuntime d n)) := by
  obtain ⟨hs, hactive⟩ := edits_active.1 ha
  have hruntime : withRuntime d n = n := by rw [withRuntime, if_pos hs]
  cases hw : wantsOptions n.config cgroup with
  | true =>
    have hcurrent := (edits_current (d := d)).2 (.inr (.inl hw))
    rw [hruntime, optionCommands, if_pos hw] at hpass'
    exact .inr ⟨.optionsAdded hp hs hactive hw hpass', ha, hcurrent,
      hasSpin_withOptions cgroup (hasSpin_withRuntime d n)⟩
  | false =>
    apply Or.inl
    apply And.intro
    · intro hl
      rcases losesRestart_passed hp hpass hl with ⟨_, _, hw', _⟩ | ⟨hs' | ha', _⟩
      · rw [hw] at hw'
        cases hw'
      · rw [hs] at hs'
        cases hs'
      · rw [hactive] at ha'
        cases ha'
    · rw [hruntime, withOptions, hw]
      exact h hactive

theorem unmarked_edits (ha : (withOptions cgroup (withRuntime d n)).active = false) :
    hasSpin n.config = false ∨ n.active = false := by
  rw [← Bool.not_eq_true, edits_active, not_and_or, Bool.not_eq_true, Bool.not_eq_true] at ha
  exact ha

/-- What a run makes of a node whose marker is right: one whose service runs with its
configuration if the run comes to its end, or one whose marker is still right, unless it loses
a restart. -/
theorem configure_spec (h : MarkerCurrent n) (hp : prepared d r = some cgroup) :
    Triple r.fails (· = n) (configure d r cgroup)
      (fun m => ¬ LosesRestart d r n ∧ m.current = true ∨ LosesRestart d r n ∧ Stale m)
      (fun m => ¬ LosesRestart d r n ∧ MarkerCurrent m ∨ LosesRestart d r n ∧ Stale m) := by
  apply Triple.seq (Triple.conseq (addRuntime_spec d r n) (fun m hm => hm)
    fun m hm => addRuntime_stopped h hp hm.1 hm.2)
  apply Triple.pure
  intro hpass
  apply Triple.seq (Triple.conseq (addOptions_spec cgroup r (withRuntime d n)) (fun m hm => hm) _)
  · apply Triple.pure
    intro hpass'
    cases ha : (withOptions cgroup (withRuntime d n)).active with
    | true =>
      have hkept := marked_kept h hp hpass hpass' ha
      apply Triple.conseq (activate_spec_marked ha d r cgroup)
      · intro m hm
        exact hm ▸ hkept
      · intro m hm
        rcases hkept with ⟨hl, hc⟩ | hstale
        · exact .inl ⟨hl, hm ▸ fun _ => hc⟩
        · exact .inr (hm ▸ hstale)
    | false =>
      have hunmarked := unmarked_edits ha
      have hloses := losesRestart_unmarked hp hpass hunmarked
      apply Triple.conseq (activate_spec_unmarked ha d r cgroup)
      · intro m hm
        obtain ⟨hrestart, rfl⟩ := hm
        exact .inl ⟨fun hl => (hloses hl).2.2 hrestart, rfl⟩
      · intro m hm
        rcases hm with ⟨htouch, rfl⟩ | ⟨htouch, hstop, rfl⟩
        · apply Or.inl
          apply And.intro
          · intro hl
            rw [(hloses hl).2.1] at htouch
            cases htouch
          · intro ha'
            rw [ha] at ha'
            cases ha'
        · rcases Bool.eq_false_or_eq_true (withOptions cgroup (withRuntime d n)).current
            with hc | hc
          · apply Or.inl
            apply And.intro
            · intro hl
              rw [edits_current.2 (hloses hl).1] at hc
              cases hc
            · exact fun _ => hc
          · exact .inr ⟨.restartFailed hp hunmarked (edits_current.1 hc)
              (passes_append.2 ⟨hpass, hpass'⟩) htouch hstop, rfl, hc,
              hasSpin_withOptions cgroup (hasSpin_withRuntime d n)⟩
  · intro m hm
    exact .inl (hm.2 ▸ addOptions_stopped h hp hpass hm.1)

theorem install_unprepared (hp : prepared d r = none) : install d r n = (n, false) := by
  rw [prepared] at hp
  rw [install]
  rcases hrun : run r.fails (prepare d r) "" with ⟨cgroup, _ | _⟩
  · rfl
  · rw [hrun] at hp
    cases hp

theorem install_prepared (hp : prepared d r = some cgroup) :
    install d r n = run r.fails (configure d r cgroup) n := by
  rw [prepared] at hp
  rw [install]
  rcases hrun : run r.fails (prepare d r) "" with ⟨cgroup', _ | _⟩
  · rw [hrun] at hp
    cases hp
  · rw [hrun] at hp
    cases hp
    rfl

theorem install_triple {P Q R : Node → Prop} (hp : prepared d r = some cgroup)
    (h : Triple r.fails P (configure d r cgroup) Q R) (hn : P n) :
    ((install d r n).2 = true → Q (install d r n).1) ∧
      ((install d r n).2 = false → R (install d r n).1) := by
  rw [install_prepared hp]
  exact h n hn

/-- A run that loses no restart keeps the marker right and exits successfully only when the
service runs with its configuration. -/
theorem install_step (h : MarkerCurrent n) (hl : ¬ LosesRestart d r n) :
    MarkerCurrent (install d r n).1 ∧
      ((install d r n).2 = true → (install d r n).1.current = true) := by
  cases hp : prepared d r with
  | none =>
    rw [install_unprepared hp]
    exact ⟨h, nofun⟩
  | some cgroup =>
    obtain ⟨hok, hstop⟩ := install_triple hp (configure_spec h hp) rfl
    have hcurrent (hs : (install d r n).2 = true) : (install d r n).1.current = true := by
      rcases hok hs with ⟨_, hc⟩ | ⟨hl', _⟩
      · exact hc
      · exact (hl hl').elim
    apply And.intro _ hcurrent
    rcases Bool.eq_false_or_eq_true (install d r n).2 with hs | hs
    · exact fun _ => hcurrent hs
    · rcases hstop hs with ⟨_, hm⟩ | ⟨hl', _⟩
      · exact hm
      · exact (hl hl').elim

theorem install_loses (h : MarkerCurrent n) (hl : LosesRestart d r n) :
    Stale (install d r n).1 := by
  have hp : ∃ cgroup, prepared d r = some cgroup := by
    cases hl with
    | markerKept hp => exact ⟨_, hp⟩
    | optionsAdded hp => exact ⟨_, hp⟩
    | restartFailed hp => exact ⟨_, hp⟩
  obtain ⟨cgroup, hp⟩ := hp
  obtain ⟨hok, hstop⟩ := install_triple hp (configure_spec h hp) rfl
  rcases Bool.eq_false_or_eq_true (install d r n).2 with hs | hs
  · rcases hok hs with ⟨hl', _⟩ | ⟨_, hstale⟩
    · exact (hl' hl).elim
    · exact hstale
  · rcases hstop hs with ⟨hl', _⟩ | ⟨_, hstale⟩
    · exact (hl' hl).elim
    · exact hstale

theorem Stale.withOptions (h : Stale n) (cgroup : String) : Stale (withOptions cgroup n) := by
  apply Stale.mk
  · rw [withOptions_active, h.active]
  · rw [Installer.withOptions]
    split_ifs with hw
    · rfl
    · exact h.current
  · exact hasSpin_withOptions cgroup h.spin

theorem Stale.configure (h : Stale n) (d : Distro) (r : Run) (cgroup : String) :
    Triple r.fails (· = n) (configure d r cgroup) Stale Stale := by
  have hruntime : withRuntime d n = n := by rw [withRuntime, if_pos h.spin]
  apply Triple.seq (Triple.conseq (addRuntime_spec d r n) (fun m hm => hm) _)
  · apply Triple.pure
    intro _
    rw [hruntime]
    apply Triple.seq (Triple.conseq (addOptions_spec cgroup r n) (fun m hm => hm) _)
    · apply Triple.pure
      intro _
      have hstale := h.withOptions cgroup
      apply Triple.conseq (activate_spec_marked hstale.active d r cgroup)
      · exact fun m hm => hm ▸ hstale
      · exact fun m hm => hm ▸ hstale
    · exact fun m hm => hm.2 ▸ h
  · intro m hm
    have hs := hm.1
    rw [h.spin] at hs
    cases hs

/-- No run restarts the service of a node that has gone stale. -/
theorem Stale.install (h : Stale n) (d : Distro) (r : Run) : Stale (install d r n).1 := by
  cases hp : prepared d r with
  | none =>
    rw [install_unprepared hp]
    exact h
  | some cgroup =>
    obtain ⟨hok, hstop⟩ := install_triple hp (h.configure d r cgroup) rfl
    rcases Bool.eq_false_or_eq_true (Installer.install d r n).2 with hs | hs
    · exact hok hs
    · exact hstop hs

theorem Stale.installs (h : Stale n) (d : Distro) (rs : List Run) : Stale (installs d rs n) := by
  induction rs generalizing n with
  | nil => exact h
  | cons r rs ih => exact ih (h.install d r)

theorem installs_nil (d : Distro) (n : Node) : installs d [] n = n := rfl

theorem installs_cons (d : Distro) (r : Run) (rs : List Run) (n : Node) :
    installs d (r :: rs) n = installs d rs (install d r n).1 := rfl

/-- Whenever one of the runs exits successfully, the service runs with its configuration. -/
def ExitsCurrent (d : Distro) : List Run → Node → Prop
  | [], _ => True
  | r :: rs, n => ((install d r n).2 = true → (install d r n).1.current = true) ∧
      ExitsCurrent d rs (install d r n).1

def KeepsRestarts (d : Distro) : List Run → Node → Prop
  | [], _ => True
  | r :: rs, n => ¬ LosesRestart d r n ∧ KeepsRestarts d rs (install d r n).1

theorem KeepsRestarts.exitsCurrent (h : MarkerCurrent n) (hk : KeepsRestarts d rs n) :
    ExitsCurrent d rs n := by
  induction rs generalizing n with
  | nil => trivial
  | cons r rs ih =>
    obtain ⟨hm, hok⟩ := install_step h hk.1
    exact ⟨hok, ih hm hk.2⟩

theorem stale_of_lost (h : MarkerCurrent n) (hk : ¬ KeepsRestarts d rs n) :
    Stale (installs d rs n) := by
  induction rs generalizing n with
  | nil => exact (hk trivial).elim
  | cons r rs ih =>
    by_cases hl : LosesRestart d r n
    · exact (install_loses h hl).installs d rs
    · apply ih (install_step h hl).1
      intro hk'
      exact hk ⟨hl, hk'⟩

/-- As long as no run loses a restart, every successful exit finds the service restarted after
the last change of its configuration, and once one has lost it, none does. -/
theorem installs_restart (h : MarkerCurrent n) (d : Distro) (rs : List Run) :
    (KeepsRestarts d rs n → ExitsCurrent d rs n) ∧
      (¬ KeepsRestarts d rs n → ∀ r, (install d r (installs d rs n)).2 = true →
        (install d r (installs d rs n)).1.current = false) := by
  apply And.intro (KeepsRestarts.exitsCurrent h)
  intro hk r _
  exact ((stale_of_lost h hk).install d r).current

def freshNode : Node := ⟨"version = 2\n".toList, false, true⟩

/-- A run on a node that has everything the installer needs. -/
def quietRun (systemdCgroup : Option String) (fails : Command → Bool) : Run :=
  ⟨systemdCgroup, true, fun _ => true, fun _ => true, false, fails⟩

def withoutCgroup : Run := quietRun (some "false") fun _ => false

def withCgroup : Run := quietRun none fun _ => false

def restartFails : Run := quietRun none fun c => c = .restart "containerd"

theorem freshNode_runs :
    let first := (install .generic withoutCgroup freshNode).1
    let failed := (install .generic restartFails freshNode).1
    let second := install .generic withCgroup first
    (hasSpin first.config = true ∧ first.active = true ∧ wantsOptions first.config "true" = true) ∧
    (second.2 = true ∧ second.1.current = false) ∧
    (install .generic withCgroup second.1).2 = true ∧
    (install .generic withCgroup failed).2 = true ∧
    (install .generic withCgroup failed).1.current = false := by
  decide +kernel

theorem withCgroup_loses :
    LosesRestart .generic withCgroup (installs .generic [withoutCgroup] freshNode) := by
  have hp : prepared .generic withCgroup = some "true" := by decide +kernel
  obtain ⟨hspin, hactive, hwants⟩ := freshNode_runs.1
  rw [installs_cons, installs_nil]
  exact LosesRestart.optionsAdded hp hspin hactive hwants fun _ _ => rfl

theorem installs_restart_fresh :
    (install .generic withCgroup
      (installs .generic [withoutCgroup, withCgroup] freshNode)).1.current = false := by
  have hlost : ¬ KeepsRestarts .generic [withoutCgroup, withCgroup] freshNode :=
    fun hk => hk.2.1 withCgroup_loses
  have hok := freshNode_runs.2.2.1
  rw [← installs_nil .generic (install .generic withCgroup _).1, ← installs_cons,
    ← installs_cons] at hok
  exact (installs_restart (fun _ => rfl) .generic [withoutCgroup, withCgroup]).2 hlost withCgroup
    hok

/-- Options are added to a configured node without a restart, and a restart that fails is not
made up for. -/
theorem restarts_lost : MarkerCurrent freshNode ∧
    ¬ ExitsCurrent .generic [withoutCgroup, withCgroup] freshNode ∧
    ¬ ExitsCurrent .generic [restartFails, withCgroup] freshNode := by
  obtain ⟨_, ⟨hok, hstale⟩, _, hok', hstale'⟩ := freshNode_runs
  refine ⟨fun _ => rfl, ?_, ?_⟩
  · intro h
    exact Bool.false_ne_true (hstale.symm.trans (h.2.1 hok))
  · intro h
    exact Bool.false_ne_true (hstale'.symm.trans (h.2.1 hok'))

end ShimSpin.Installer
