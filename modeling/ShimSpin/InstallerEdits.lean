import ShimSpin.InstallerRuns

namespace ShimSpin.Installer
open ErrExit
set_option autoImplicit true

/-- The first guarded append of the installer, on the text of a configuration. -/
def editRuntime (d : Distro) (text : Text) : Text :=
  if hasSpin text then text else text ++ (runtimeBlock d (isVersion3 text)).toList

def editOptions (cgroup : String) (text : Text) : Text :=
  if wantsOptions text cgroup then text ++ (optionsBlock cgroup (isVersion3 text)).toList else text

def edit (d : Distro) (cgroup : String) (text : Text) : Text :=
  editOptions cgroup (editRuntime d text)

def runtimeHeader : Bool → String
  | true => "[plugins.\"io.containerd.cri.v1.runtime\".containerd.runtimes.\"spin\"]"
  | false => "[plugins.\"io.containerd.grpc.v1.cri\".containerd.runtimes.spin]"

def optionsHeader : Bool → String
  | true => "[plugins.\"io.containerd.cri.v1.runtime\".containerd.runtimes.spin.options]"
  | false => "[plugins.\"io.containerd.grpc.v1.cri\".containerd.runtimes.spin.options]"

/-- How often the header of one kind of table occurs, in the two forms the installer writes. -/
def headers (header : Bool → String) (text : Text) : Nat :=
  Search.occurrences (Search.word (header true).toList) text +
    Search.occurrences (Search.word (header false).toList) text

/-- Every one of the runs comes to its end, with the same setting. -/
def CompleteRuns (d : Distro) (cgroup : String) : List Run → Node → Prop
  | [], _ => True
  | r :: rs, n => prepared d r = some cgroup ∧ (install d r n).2 = true ∧
      CompleteRuns d cgroup rs (install d r n).1

variable {d : Distro} {r : Run} {rs : List Run} {n : Node} {cgroup : String} {text : Text}

/-- A literal, character by character. -/
theorem toList_literal {s : String} {l : Text} (h : s = String.ofList l) : s.toList = l := by
  rw [h, String.toList_ofList]

theorem toList_literals {f : Bool → String} {l l' : Text} (h : f true = String.ofList l)
    (h' : f false = String.ofList l') (version3 : Bool) :
    (f version3).toList = bif version3 then l else l' := by
  cases version3 with
  | true => exact toList_literal h
  | false => exact toList_literal h'

def runtimeRest (d : Distro) : String :=
  "    runtime_type = \"" ++ kwasmDir d ++ "/bin/containerd-shim-spin-v2\"\n\n"

def optionsRest : String := "    SystemdCgroup = " ++ "true" ++ "\n\n"

theorem toList_newline {s t : String} {l : Text} (hs : s = String.ofList ('\n' :: l))
    (ht : t = String.ofList l) : s.toList = '\n' :: t.toList := by
  rw [toList_literal hs, toList_literal ht]

theorem toList_lines {a b c e h m : String} (ha : a.toList = '\n' :: h.toList)
    (hb : b.toList = '\n' :: m.toList) : (a ++ b ++ c ++ e).toList =
      '\n' :: (h.toList ++ '\n' :: (m ++ c ++ e).toList) := by
  simp only [String.toList_append, ha, hb, List.cons_append, List.append_assoc]

set_option maxRecDepth 2000 in
theorem runtimeBlock_eq (d : Distro) (version3 : Bool) : (runtimeBlock d version3).toList =
    '\n' :: ((runtimeHeader version3).toList ++ '\n' :: (runtimeRest d).toList) := by
  have hheader : ((if version3 then
      "\n[plugins.\"io.containerd.cri.v1.runtime\".containerd.runtimes.\"spin\"]"
      else "\n[plugins.\"io.containerd.grpc.v1.cri\".containerd.runtimes.spin]") : String).toList =
        '\n' :: (runtimeHeader version3).toList := by
    cases version3 with
    | true => exact toList_newline rfl rfl
    | false => exact toList_newline rfl rfl
  have hrest : "\n    runtime_type = \"".toList = '\n' :: "    runtime_type = \"".toList :=
    toList_newline rfl rfl
  exact toList_lines hheader hrest

set_option maxRecDepth 2000 in
theorem optionsBlock_eq (version3 : Bool) : (optionsBlock "true" version3).toList =
    '\n' :: ((optionsHeader version3).toList ++ '\n' :: optionsRest.toList) := by
  have hheader : ((if version3 then
      "\n[plugins.\"io.containerd.cri.v1.runtime\".containerd.runtimes.spin.options]"
      else "\n[plugins.\"io.containerd.grpc.v1.cri\".containerd.runtimes.spin.options]") :
        String).toList = '\n' :: (optionsHeader version3).toList := by
    cases version3 with
    | true => exact toList_newline rfl rfl
    | false => exact toList_newline rfl rfl
  have hrest : "\n    SystemdCgroup = ".toList = '\n' :: "    SystemdCgroup = ".toList :=
    toList_newline rfl rfl
  exact toList_lines hheader hrest

set_option maxRecDepth 2000 in
/-- What the installer writes holds the header it is about, and no other. -/
theorem headers_header (version3 : Bool) :
    headers runtimeHeader (runtimeHeader version3).toList = 1 ∧
    headers optionsHeader (runtimeHeader version3).toList = 0 ∧
    headers runtimeHeader (optionsHeader version3).toList = 0 ∧
    headers optionsHeader (optionsHeader version3).toList = 1 := by
  have hr := toList_literals (f := runtimeHeader) rfl rfl
  have ho := toList_literals (f := optionsHeader) rfl rfl
  simp only [headers, hr, ho]
  revert version3
  decide +kernel

set_option maxRecDepth 2000 in
theorem header_cons {header : Bool → String}
    (h : header = runtimeHeader ∨ header = optionsHeader) (version3 : Bool) :
    ∃ rest, (header version3).toList = '[' :: rest ∧ '\n' ∉ (header version3).toList := by
  rcases h with rfl | rfl
  · rw [toList_literals (f := runtimeHeader) rfl rfl]
    cases version3 with
    | true => exact ⟨_, rfl, by decide +kernel⟩
    | false => exact ⟨_, rfl, by decide +kernel⟩
  · rw [toList_literals (f := optionsHeader) rfl rfl]
    cases version3 with
    | true => exact ⟨_, rfl, by decide +kernel⟩
    | false => exact ⟨_, rfl, by decide +kernel⟩

theorem headers_append_newline {header : Bool → String}
    (h : header = runtimeHeader ∨ header = optionsHeader) (text rest : Text) :
    headers header (text ++ '\n' :: rest) = headers header text + headers header rest := by
  have hcount (version3 : Bool) :
      Search.occurrences (Search.word (header version3).toList) (text ++ '\n' :: rest) =
        Search.occurrences (Search.word (header version3).toList) text +
          Search.occurrences (Search.word (header version3).toList) rest := by
    obtain ⟨w, hw, hnewline⟩ := header_cons h version3
    apply Search.occurrences_append_sep
    · rw [hw]
      exact List.cons_ne_nil _ _
    · intro p hp
      obtain ⟨c, hc, rfl⟩ := List.mem_map.1 hp
      exact decide_eq_false fun he => hnewline (he ▸ hc)
  rw [headers, hcount, hcount, headers, headers]
  omega

theorem headers_eq_zero {header : Bool → String}
    (h : header = runtimeHeader ∨ header = optionsHeader) {rest : Text} (hrest : '[' ∉ rest) :
    headers header rest = 0 := by
  have hcount (version3 : Bool) :
      Search.occurrences (Search.word (header version3).toList) rest = 0 := by
    obtain ⟨w, hw, _⟩ := header_cons h version3
    rw [hw]
    exact Search.occurrences_eq_zero fun c hc => decide_eq_false fun he => hrest (he ▸ hc)
  rw [headers, hcount, hcount]

theorem not_mem_append {a b c : String} {x : Char} (ha : x ∉ a.toList) (hb : x ∉ b.toList)
    (hc : x ∉ c.toList) : x ∉ (a ++ b ++ c).toList := by
  rw [String.toList_append, String.toList_append, List.mem_append, List.mem_append]
  exact not_or.2 ⟨not_or.2 ⟨ha, hb⟩, hc⟩

theorem runtimeRest_bracket (d : Distro) : '[' ∉ (runtimeRest d).toList := by
  apply not_mem_append
  · rw [toList_literal (s := "    runtime_type = \"") rfl]
    decide
  · cases d with
    | generic => decide
    | microk8s => decide
    | k0s => decide
  · rw [toList_literal (s := "/bin/containerd-shim-spin-v2\"\n\n") rfl]
    decide

theorem optionsRest_bracket : '[' ∉ optionsRest.toList := by
  apply not_mem_append
  · rw [toList_literal (s := "    SystemdCgroup = ") rfl]
    decide
  · decide
  · decide

theorem headers_runtimeBlock {header : Bool → String}
    (h : header = runtimeHeader ∨ header = optionsHeader) (d : Distro) (version3 : Bool)
    (text : Text) :
    headers header (text ++ (runtimeBlock d version3).toList) =
      headers header text + headers header (runtimeHeader version3).toList := by
  rw [runtimeBlock_eq, headers_append_newline h, headers_append_newline h,
    headers_eq_zero h (runtimeRest_bracket d), Nat.add_zero]

theorem headers_optionsBlock {header : Bool → String}
    (h : header = runtimeHeader ∨ header = optionsHeader) (version3 : Bool) (text : Text) :
    headers header (text ++ (optionsBlock "true" version3).toList) =
      headers header text + headers header (optionsHeader version3).toList := by
  rw [optionsBlock_eq, headers_append_newline h, headers_append_newline h,
    headers_eq_zero h optionsRest_bracket, Nat.add_zero]

theorem wantsOptions_iff : wantsOptions text cgroup = true ↔
    hasOptions text = false ∧ cgroup = "true" := by
  rw [wantsOptions, Bool.and_eq_true, Bool.not_eq_true', decide_eq_true_eq]

theorem hasSpin_editRuntime (d : Distro) (text : Text) : hasSpin (editRuntime d text) = true := by
  rw [editRuntime]
  split_ifs with h
  · exact h
  · exact hasSpin_runtimeBlock d _ text

theorem hasSpin_edit (d : Distro) (cgroup : String) (text : Text) :
    hasSpin (edit d cgroup text) = true := by
  rw [edit, editOptions]
  split_ifs with h
  · exact hasSpin_append (hasSpin_editRuntime d text) _
  · exact hasSpin_editRuntime d text

/-- The options that are appended are found by the next run. -/
theorem hasOptions_optionsBlock (version3 : Bool) (text : Text) :
    hasOptions (text ++ (optionsBlock "true" version3).toList) = true := by
  have hheader : ∀ version3, hasOptions (optionsHeader version3).toList = true := by
    rw [forall_congr fun version3 => by
      rw [toList_literals (f := optionsHeader) rfl rfl version3]]
    decide +kernel
  rw [optionsBlock_eq]
  exact Search.occurs_append_left
    (Search.occurs_append_left (Search.occurs_append_right (hheader version3) _) ['\n']) text

theorem wantsOptions_edit (d : Distro) (cgroup : String) (text : Text) :
    wantsOptions (edit d cgroup text) cgroup = false := by
  rw [← Bool.not_eq_true]
  intro h
  obtain ⟨hnone, rfl⟩ := wantsOptions_iff.1 h
  rw [edit, editOptions] at hnone
  split_ifs at hnone with hw
  · rw [hasOptions_optionsBlock] at hnone
    cases hnone
  · exact hw (wantsOptions_iff.2 ⟨hnone, rfl⟩)

theorem edit_idempotent (d : Distro) (cgroup : String) (text : Text) :
    edit d cgroup (edit d cgroup text) = edit d cgroup text := by
  rw [edit, editRuntime, if_pos (hasSpin_edit d cgroup text), editOptions,
    if_neg (Bool.eq_false_iff.1 (wantsOptions_edit d cgroup text))]

theorem prefix_editRuntime (d : Distro) (text : Text) : text <+: editRuntime d text := by
  rw [editRuntime]
  split_ifs with h
  · exact List.prefix_rfl
  · exact List.prefix_append text _

theorem prefix_edit (d : Distro) (cgroup : String) (text : Text) : text <+: edit d cgroup text := by
  apply (prefix_editRuntime d text).trans
  rw [edit, editOptions]
  split_ifs with h
  · exact List.prefix_append _ _
  · exact List.prefix_rfl

theorem runtimeHeaders_edit (d : Distro) (cgroup : String) (text : Text) :
    headers runtimeHeader (edit d cgroup text) ≤ headers runtimeHeader text + 1 := by
  have hruntime : headers runtimeHeader (editRuntime d text) ≤ headers runtimeHeader text + 1 := by
    rw [editRuntime]
    split_ifs with h
    · exact Nat.le_succ _
    · apply Nat.le_of_eq
      rw [headers_runtimeBlock (.inl rfl), (headers_header _).1]
  rw [edit, editOptions]
  split_ifs with h
  · obtain ⟨_, rfl⟩ := wantsOptions_iff.1 h
    rw [headers_optionsBlock (.inl rfl), (headers_header _).2.2.1]
    exact hruntime
  · exact hruntime

theorem optionsHeaders_edit (d : Distro) (cgroup : String) (text : Text) :
    headers optionsHeader (edit d cgroup text) ≤ headers optionsHeader text + 1 := by
  have hruntime : headers optionsHeader (editRuntime d text) = headers optionsHeader text := by
    rw [editRuntime]
    split_ifs with h
    · rfl
    · rw [headers_runtimeBlock (.inr rfl), (headers_header _).2.1, Nat.add_zero]
  rw [edit, editOptions]
  split_ifs with h
  · obtain ⟨_, rfl⟩ := wantsOptions_iff.1 h
    apply Nat.le_of_eq
    rw [headers_optionsBlock (.inr rfl), (headers_header _).2.2.2, hruntime]
  · rw [hruntime]
    exact Nat.le_succ _

theorem config_withOptions (d : Distro) (cgroup : String) (n : Node) :
    (withOptions cgroup (withRuntime d n)).config = edit d cgroup n.config := by
  have hruntime : (withRuntime d n).config = editRuntime d n.config := by
    rw [withRuntime, editRuntime]
    split_ifs with h
    · rfl
    · rfl
  rw [withOptions, edit, editOptions, hruntime]
  split_ifs with h
  · rw [Node.edit, hruntime]
  · exact hruntime

theorem activate_config (d : Distro) (r : Run) (cgroup : String) (n : Node) :
    Triple r.fails (· = n) (activate d r cgroup) (fun m => m.config = n.config) fun _ => True := by
  cases ha : n.active with
  | true =>
    apply Triple.conseq (activate_spec_marked ha d r cgroup)
    · exact fun m hm => congrArg Node.config hm
    · exact fun _ _ => trivial
  | false =>
    apply Triple.conseq (activate_spec_unmarked ha d r cgroup)
    · exact fun m hm => hm.2 ▸ rfl
    · exact fun _ _ => trivial

/-- A run that comes to its end has edited the text. -/
theorem configure_edits (d : Distro) (r : Run) (cgroup : String) (n : Node) :
    Triple r.fails (· = n) (configure d r cgroup)
      (fun m => m.config = edit d cgroup n.config) fun _ => True := by
  rw [← config_withOptions]
  apply Triple.seq (Triple.conseq (addRuntime_spec d r n) (fun m hm => hm) fun _ _ => trivial)
  apply Triple.pure
  intro _
  apply Triple.seq (Triple.conseq (addOptions_spec cgroup r _) (fun m hm => hm) fun _ _ => trivial)
  apply Triple.pure
  intro _
  exact activate_config d r cgroup _

theorem install_edits (hp : prepared d r = some cgroup) (h : (install d r n).2 = true) :
    (install d r n).1.config = edit d cgroup n.config :=
  (install_triple hp (configure_edits d r cgroup n) rfl).1 h

theorem installs_edited (h : CompleteRuns d cgroup rs n)
    (hn : n.config = edit d cgroup text) : (installs d rs n).config = edit d cgroup text := by
  induction rs generalizing n with
  | nil => exact hn
  | cons r rs ih =>
    obtain ⟨hp, hok, hrest⟩ := h
    apply ih hrest
    rw [install_edits hp hok, hn, edit_idempotent]

/-- The two appends leave nothing to do for another run: they keep the text they find, add each
header once at most, and any number of complete runs leaves what one run leaves. -/
theorem edit_settles (d : Distro) (cgroup : String) (text : Text) :
    edit d cgroup (edit d cgroup text) = edit d cgroup text ∧ text <+: edit d cgroup text ∧
    headers runtimeHeader (edit d cgroup text) ≤ headers runtimeHeader text + 1 ∧
    headers optionsHeader (edit d cgroup text) ≤ headers optionsHeader text + 1 ∧
    ∀ r rs n, n.config = text → CompleteRuns d cgroup (r :: rs) n →
      (install d r n).1.config = edit d cgroup text ∧
        (installs d (r :: rs) n).config = (install d r n).1.config := by
  refine ⟨edit_idempotent d cgroup text, prefix_edit d cgroup text,
    runtimeHeaders_edit d cgroup text, optionsHeaders_edit d cgroup text, ?_⟩
  intro r rs n hn hruns
  obtain ⟨hp, hok, hrest⟩ := hruns
  have hone : (install d r n).1.config = edit d cgroup text := hn ▸ install_edits hp hok
  exact ⟨hone, (installs_edited hrest hone).trans hone.symm⟩

theorem edit_settles_fresh :
    (installs .generic [withCgroup, withCgroup] freshNode).config =
      (install .generic withCgroup freshNode).1.config :=
  ((edit_settles .generic "true" freshNode.config).2.2.2.2 withCgroup [withCgroup] freshNode
    rfl ⟨by decide +kernel, by decide +kernel, by decide +kernel, by decide +kernel, trivial⟩).2

end ShimSpin.Installer
