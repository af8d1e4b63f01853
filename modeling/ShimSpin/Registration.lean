import ShimSpin.InstallerText
import ShimSpin.Lib.Toml.Tables

namespace ShimSpin.Installer
open Toml
set_option autoImplicit true

def plugin : Bool → String
  | true => "io.containerd.cri.v1.runtime"
  | false => "io.containerd.grpc.v1.cri"

def spinKeys (version3 : Bool) : List Key :=
  ["plugins".toList, (plugin version3).toList, "containerd".toList, "runtimes".toList] ++
    ["spin".toList]

def optionsKeys (version3 : Bool) : List Key := spinKeys version3 ++ ["options".toList]

def Declares (D : Defs) (version3 : Bool) : Prop :=
  ∃ token, D [.key "version".toList] = some (.scalar token) ∧
    intValue token = some (if version3 then 3 else 2)

/-- A valid configuration that declares its version. -/
structure Config where
  text : Text
  defs : Defs
  version3 : Bool
  read_text : read text = some defs
  declares : Declares defs version3

/-- A runtime table for spin in the layout of a version, and not an element of an array. -/
structure SpinTable (D : Defs) (version3 : Bool) (p : Path) : Prop where
  keys : keysOf p = spinKeys version3
  last : p.getLast? = some (.key "spin".toList)
  defined : DefinesTable D p

def optionsPath (p : Path) : Path := p ++ [.key "options".toList]

/-- There is one runtime table for spin, and it is at the path. -/
def OneSpinTable (D : Defs) (version3 : Bool) (p : Path) : Prop :=
  ∀ w q, SpinTable D w q ↔ w = version3 ∧ q = p

/-- The one runtime table is in the layout of the declared version, or the configuration had it
already, and it has options if they are asked for or were there. -/
def Registers (c : Config) (cgroup : String) (D : Defs) : Prop :=
  ∃ w p, OneSpinTable D w p ∧ (w = c.version3 ∨ SpinTable c.defs w p) ∧
    (cgroup = "true" ∨ DefinesTable c.defs (optionsPath p) → DefinesTable D (optionsPath p))

def Registered (c : Config) (cgroup : String) (text : Text) : Prop :=
  ∃ D, read text = some D ∧ Registers c cgroup D

/-- When the searches of the script agree with the tables of the configuration. -/
inductive Ready (t : Target) (c : Config) (cgroup : String) : Prop where
  -- Spin occurs in no spelling, and the headers of the declared version find their places free.
  | added (hspin : hasSpin c.text = false) (hversion : isVersion3 c.text = c.version3)
      (hnone : ∀ w q, ¬ SpinTable c.defs w q)
      (hfits : Fits c.defs (spinKeys c.version3) "runtime_type".toList p)
      (hoptions : cgroup = "true" →
        Fits c.defs (optionsKeys c.version3) "SystemdCgroup".toList (optionsPath p)) :
      Ready t c cgroup
  -- Nothing is appended, and the one runtime table that is there has the options it needs.
  | kept (hspin : hasSpin c.text = true) (hwants : wantsOptions c.text cgroup = false)
      (hread : read (rewritten t c.text) = some D) (hone : OneSpinTable D w p)
      (hplace : w = c.version3 ∨ SpinTable c.defs w p)
      (hoptions : cgroup = "true" ∨ DefinesTable c.defs (optionsPath p) →
        DefinesTable D (optionsPath p)) :
      Ready t c cgroup
  -- The options find their place below the one runtime table, or elsewhere if it has them.
  | extended (hspin : hasSpin c.text = true) (hwants : wantsOptions c.text cgroup = true)
      (hread : read (rewritten t c.text) = some D) (hone : OneSpinTable D w p)
      (hplace : w = c.version3 ∨ SpinTable c.defs w p)
      (hfits : Fits D (optionsKeys (isVersion3 c.text)) "SystemdCgroup".toList q)
      (hoptions : q = optionsPath p ∨ DefinesTable D (optionsPath p)) :
      Ready t c cgroup

def withRuntimeTable (D : Defs) (p : Path) : Defs := withTable D p "runtime_type".toList .string

def withOptionsTable (D : Defs) (p : Path) : Defs :=
  withTable D p "SystemdCgroup".toList (.scalar "true".toList)

variable {d : Distro} {t : Target} {cgroup : String} {text : Text} {version3 w : Bool}
  {D D' : Defs} {p q : Path} {c : Config}

theorem toList_append {a b c : String} {k l m : Text} (ha : a.toList = k) (hb : b.toList = l)
    (hc : c.toList = m) : (a ++ b ++ c).toList = k ++ l ++ m := by
  rw [String.toList_append, String.toList_append, ha, hb, hc]

theorem kwasmDir_eq (d : Distro) : kwasmDir d =
    bif decide (d = .microk8s) then "/var/snap/microk8s/common/kwasm" else "/opt/kwasm" := by
  cases d with
  | generic => rfl
  | microk8s => rfl
  | k0s => rfl

set_option maxRecDepth 2000 in
/-- The first append is a table with one string, and no later search finds anything in it. -/
theorem runtimeLines_facts (d : Distro) (version3 : Bool) :
    events (runtimeLines d version3) =
      some [.table (spinKeys version3), .key ["runtime_type".toList], .string] ∧
    isVersion3 (runtimeLines d version3) = false ∧ hasOptions (runtimeLines d version3) = false ∧
    Search.occurs (dots oldType) (runtimeLines d version3) = false ∧
    '\x7b' ∉ runtimeLines d version3 := by
  have hdirs := toList_literals (f := fun micro =>
    bif micro then "/var/snap/microk8s/common/kwasm" else "/opt/kwasm") rfl rfl
  have hdir : (kwasmDir d).toList = bif decide (d = .microk8s) then _ else _ :=
    (congrArg String.toList (kwasmDir_eq d)).trans (hdirs _)
  have hrest : (runtimeRest d).toList = _ :=
    toList_append (toList_literal rfl) hdir (toList_literal rfl)
  rw [runtimeLines, hrest, toList_literals (f := runtimeHeader) rfl rfl]
  generalize decide (d = .microk8s) = micro
  revert micro version3
  decide +kernel

set_option maxRecDepth 2000 in
theorem optionsLines_facts (version3 : Bool) :
    events (optionsLines version3) = some [.table (optionsKeys version3),
      .key ["SystemdCgroup".toList], .scalar "true".toList] ∧
    Search.occurs (dots oldType) (optionsLines version3) = false ∧
    '\x7b' ∉ optionsLines version3 := by
  have hrest : optionsRest.toList = _ :=
    toList_append (toList_literal rfl) (toList_literal rfl) (toList_literal rfl)
  rw [optionsLines, hrest, toList_literals (f := optionsHeader) rfl rfl]
  revert version3
  decide +kernel

set_option maxRecDepth 4000 in
/-- The header of the options goes on with no value that is still open. -/
theorem optionsLines_inside (version3 : Bool) {mode : Mode} (h : Inside mode) :
    lexer.output ⟨mode, false⟩ (optionsLines version3) = none := by
  have hrest : optionsRest.toList = _ :=
    toList_append (toList_literal rfl) (toList_literal rfl) (toList_literal rfl)
  rw [optionsLines, hrest, toList_literals (f := optionsHeader) rfl rfl]
  cases h with
  | item stack => cases version3 <;> rfl
  | after c stack => cases c <;> cases version3 <;> rfl
  | multi literal stack => cases literal <;> cases version3 <;> cases stack <;> rfl

theorem read_runtimeLines (h : read text = some D) (d : Distro) (version3 : Bool) :
    read (text ++ '\n' :: runtimeLines d version3) =
      addTable D (spinKeys version3) "runtime_type".toList .string :=
  read_append_table h (runtimeLines_facts d version3).1 fun _ => rfl

theorem read_optionsLines (h : read text = some D) (version3 : Bool) :
    read (text ++ '\n' :: optionsLines version3) =
      addTable D (optionsKeys version3) "SystemdCgroup".toList (.scalar "true".toList) :=
  read_append_table h (optionsLines_facts version3).1 fun _ => rfl

theorem edit_fresh (h : hasSpin text = false) (d : Distro) (cgroup : String) :
    edit d cgroup text = text ++ '\n' :: runtimeLines d (isVersion3 text) ++
      if cgroup = "true" then '\n' :: optionsLines (isVersion3 text) else [] := by
  obtain ⟨_, hversion, hoptions, _⟩ := runtimeLines_facts d (isVersion3 text)
  have hruntime : editRuntime d text = text ++ '\n' :: runtimeLines d (isVersion3 text) := by
    rw [editRuntime, h, if_neg Bool.false_ne_true, runtimeBlock_eq, runtimeLines]
  have hversion' : isVersion3 (editRuntime d text) = isVersion3 text := by
    rw [hruntime, isVersion3, grep_append_newline (by decide)]
    exact (congrArg _ hversion).trans (Bool.or_false _)
  have hnone : hasOptions (editRuntime d text) = false := by
    rw [hruntime, hasOptions, grep_append_newline (by decide)]
    apply Bool.or_eq_false_iff.2 ⟨_, hoptions⟩
    rw [← Bool.not_eq_true] at h ⊢
    exact fun hfound => h (hasSpin_of_hasOptions hfound)
  rw [edit, editOptions, hversion']
  by_cases hc : cgroup = "true"
  · rw [if_pos (wantsOptions_iff.2 ⟨hnone, hc⟩), if_pos hc, hruntime, hc, optionsBlock_eq,
      optionsLines]
  · rw [if_neg (fun hw => hc (wantsOptions_iff.1 hw).2), if_neg hc, hruntime, List.append_nil]

theorem edit_present (h : hasSpin text = true) (d : Distro) (cgroup : String) :
    edit d cgroup text =
      if wantsOptions text cgroup then text ++ '\n' :: optionsLines (isVersion3 text)
      else text := by
  rw [edit, editRuntime, if_pos h, editOptions]
  split_ifs with hw
  · rw [(wantsOptions_iff.1 hw).2, optionsBlock_eq, optionsLines]
  · rfl

theorem spinKeys_inj (h : spinKeys w = spinKeys version3) : w = version3 := by
  revert w version3
  decide +kernel

theorem spinTable_withRuntime (h : Fits D (spinKeys version3) "runtime_type".toList p) :
    SpinTable (withRuntimeTable D p) w q ↔ SpinTable D w q ∨ w = version3 ∧ q = p := by
  have hdefines := definesTable_withTable (r := q) (d := .string) h.2 rfl
  apply Iff.intro
  · intro hs
    rcases hdefines.1 hs.defined with hq | rfl
    · exact .inl ⟨hs.keys, hs.last, hq⟩
    · exact .inr ⟨spinKeys_inj (hs.keys.symm.trans (tablePath_keys h.1)), rfl⟩
  · rintro (hs | ⟨rfl, rfl⟩)
    · exact ⟨hs.keys, hs.last, hdefines.2 (.inl hs.defined)⟩
    · exact ⟨tablePath_keys h.1, tablePath_last h.1, hdefines.2 (.inr rfl)⟩

theorem spinTable_withOptions (h : Fits D (optionsKeys version3) "SystemdCgroup".toList p) :
    SpinTable (withOptionsTable D p) w q ↔ SpinTable D w q := by
  have hdefines := definesTable_withTable (r := q) (d := .scalar "true".toList) h.2 rfl
  apply Iff.intro
  · intro hs
    rcases hdefines.1 hs.defined with hq | rfl
    · exact ⟨hs.keys, hs.last, hq⟩
    · have hlast := tablePath_last h.1
      rw [hs.last] at hlast
      have hne : (Step.key "spin".toList) ≠ .key "options".toList := by decide
      exact (hne (Option.some.inj hlast)).elim
  · exact fun hs => ⟨hs.keys, hs.last, hdefines.2 (.inl hs.defined)⟩

theorem oneSpinTable_withRuntime (h : Fits D (spinKeys version3) "runtime_type".toList p) :
    OneSpinTable (withRuntimeTable D p) w q ↔
      (∀ u r, ¬ SpinTable D u r) ∧ w = version3 ∧ q = p := by
  have hnew : ¬ SpinTable D version3 p := fun hs => not_definesTable h.1 hs.defined
  apply Iff.intro
  · intro hone
    have hhere := (hone version3 p).1 ((spinTable_withRuntime h).2 (.inr ⟨rfl, rfl⟩))
    refine ⟨?_, hhere.1.symm, hhere.2.symm⟩
    intro u r hs
    obtain ⟨rfl, rfl⟩ := (hone u r).1 ((spinTable_withRuntime h).2 (.inl hs))
    obtain ⟨rfl, rfl⟩ := hhere
    exact hnew hs
  · rintro ⟨hnone, rfl, rfl⟩ u r
    rw [spinTable_withRuntime h]
    exact or_iff_right (hnone u r)

theorem oneSpinTable_withOptions (h : Fits D (optionsKeys version3) "SystemdCgroup".toList p) :
    OneSpinTable (withOptionsTable D p) w q ↔ OneSpinTable D w q := by
  simp only [OneSpinTable, spinTable_withOptions h]

theorem configured_fresh (h : hasSpin text = false) (t : Target) (cgroup : String) :
    configured t cgroup text = text ++ '\n' :: runtimeLines t.distro (isVersion3 text) ++
      if cgroup = "true" then '\n' :: optionsLines (isVersion3 text) else [] := by
  have hruntime := rewritten_append (t := t)
    (runtimeLines_facts t.distro (isVersion3 text)).2.2.2.1 text
  rw [configured, edit_fresh h]
  split_ifs with hc
  · rw [rewritten_append (optionsLines_facts _).2.1, hruntime, rewritten_fresh h]
  · rw [List.append_nil, hruntime, rewritten_fresh h]

theorem configured_present (h : hasSpin text = true) (t : Target) (cgroup : String) :
    configured t cgroup text =
      if wantsOptions text cgroup then rewritten t text ++ '\n' :: optionsLines (isVersion3 text)
      else rewritten t text := by
  rw [configured, edit_present h]
  split_ifs with hw
  · rw [rewritten_append (optionsLines_facts _).2.1]
  · rfl

theorem fits_below (h : Fits D (spinKeys version3) "runtime_type".toList p) :
    Fits (withRuntimeTable D p) (optionsKeys version3) "SystemdCgroup".toList q ↔
      q = optionsPath p ∧ Fits D (optionsKeys version3) "SystemdCgroup".toList q :=
  fits_withTable h.1 (by decide)

theorem read_fresh (hspin : hasSpin c.text = false) (t : Target) (cgroup : String) :
    read (configured t cgroup c.text) = some D' ↔
      ∃ p, Fits c.defs (spinKeys (isVersion3 c.text)) "runtime_type".toList p ∧
        if cgroup = "true" then
          Fits c.defs (optionsKeys (isVersion3 c.text)) "SystemdCgroup".toList (optionsPath p) ∧
            D' = withOptionsTable (withRuntimeTable c.defs p) (optionsPath p)
        else D' = withRuntimeTable c.defs p := by
  have hruntime := read_runtimeLines c.read_text t.distro (isVersion3 c.text)
  rw [configured_fresh hspin]
  split_ifs with hc
  · apply Iff.intro
    · intro h
      obtain ⟨es, hes, _⟩ := Option.bind_eq_some_iff.1 c.read_text
      have hblock := (runtimeLines_facts t.distro (isVersion3 c.text)).1
      have hevents := (events_append hes).2 ⟨_, hblock, rfl⟩
      obtain ⟨D₁, hD₁⟩ := read_before hevents h
      rw [read_optionsLines hD₁] at h
      rw [hD₁] at hruntime
      obtain ⟨p, hp, rfl⟩ := addTable_eq_some.1 hruntime.symm
      obtain ⟨o, ho, rfl⟩ := addTable_eq_some.1 h
      obtain ⟨rfl, ho⟩ := (fits_below hp).1 ho
      exact ⟨p, hp, ho, rfl⟩
    · intro ⟨p, hp, ho, hD'⟩
      have hD₁ := hruntime.trans (addTable_eq_some.2 ⟨p, hp, rfl⟩)
      rw [read_optionsLines hD₁, hD']
      exact addTable_eq_some.2 ⟨_, (fits_below hp).2 ⟨rfl, ho⟩, rfl⟩
  · rw [List.append_nil, hruntime]
    exact addTable_eq_some

theorem read_present (hspin : hasSpin c.text = true) (t : Target) (cgroup : String) :
    read (configured t cgroup c.text) = some D' ↔
      ∃ D, read (rewritten t c.text) = some D ∧
        if wantsOptions c.text cgroup then
          ∃ q, Fits D (optionsKeys (isVersion3 c.text)) "SystemdCgroup".toList q ∧
            D' = withOptionsTable D q
        else D' = D := by
  rw [configured_present hspin]
  split_ifs with hw
  · apply Iff.intro
    · intro h
      have hlast : (rewritten t c.text).getLast? ≠ some '\r' :=
        fun he => read_last c.read_text (rewritten_getLast he)
      obtain ⟨D, hD⟩ := read_of_append h hlast fun _ => optionsLines_inside _
      rw [read_optionsLines hD] at h
      exact ⟨D, hD, addTable_eq_some.1 h⟩
    · intro ⟨D, hD, hfits⟩
      rw [read_optionsLines hD]
      exact addTable_eq_some.2 hfits
  · apply Iff.intro
    · exact fun h => ⟨D', h, rfl⟩
    · rintro ⟨D, hD, rfl⟩
      exact hD

theorem registered_fresh (hspin : hasSpin c.text = false) (t : Target) (cgroup : String) :
    Registered c cgroup (configured t cgroup c.text) ↔ Ready t c cgroup := by
  apply Iff.intro
  · intro ⟨D', hread, w, p, hone, hplace, _⟩
    obtain ⟨q, hfits, hrest⟩ := (read_fresh hspin t cgroup).1 hread
    have hadded : OneSpinTable (withRuntimeTable c.defs q) w p ∧
        (cgroup = "true" → Fits c.defs (optionsKeys (isVersion3 c.text)) "SystemdCgroup".toList
          (optionsPath q)) := by
      split_ifs at hrest with hc
      · obtain ⟨hoptions, rfl⟩ := hrest
        have hbelow := (fits_below hfits).2 ⟨rfl, hoptions⟩
        exact ⟨(oneSpinTable_withOptions hbelow).1 hone, fun _ => hoptions⟩
      · exact ⟨hrest ▸ hone, fun h => (hc h).elim⟩
    obtain ⟨hnone, rfl, rfl⟩ := (oneSpinTable_withRuntime hfits).1 hadded.1
    rcases hplace with hv | hold
    · rw [hv] at hfits hadded
      exact .added hspin hv hnone hfits hadded.2
    · exact (hnone _ _ hold).elim
  · intro hready
    cases hready with
    | @added p _ hversion hnone hfits hoptions =>
      rw [← hversion] at hfits hoptions
      have hone := (oneSpinTable_withRuntime hfits).2 ⟨hnone, rfl, rfl⟩
      by_cases hc : cgroup = "true"
      · have hbelow := (fits_below hfits).2 ⟨rfl, hoptions hc⟩
        have hread : read (configured t cgroup c.text) =
            some (withOptionsTable (withRuntimeTable c.defs p) (optionsPath p)) := by
          rw [read_fresh hspin]
          exact ⟨p, hfits, by rw [if_pos hc]; exact ⟨hoptions hc, rfl⟩⟩
        refine ⟨_, hread, _, p, (oneSpinTable_withOptions hbelow).2 hone, .inl hversion, ?_⟩
        exact fun _ => (definesTable_withTable hbelow.2 rfl).2 (.inr rfl)
      · have hread : read (configured t cgroup c.text) = some (withRuntimeTable c.defs p) := by
          rw [read_fresh hspin]
          exact ⟨p, hfits, by rw [if_neg hc]⟩
        refine ⟨_, hread, _, p, hone, .inl hversion, ?_⟩
        rintro (h | h)
        · exact (hc h).elim
        · exact (definesTable_withTable hfits.2 rfl).2 (.inl h)
    | kept h => exact (Bool.false_ne_true (hspin.symm.trans h)).elim
    | extended h => exact (Bool.false_ne_true (hspin.symm.trans h)).elim

theorem registered_present (hspin : hasSpin c.text = true) (t : Target) (cgroup : String) :
    Registered c cgroup (configured t cgroup c.text) ↔ Ready t c cgroup := by
  apply Iff.intro
  · intro ⟨D', hread, w, p, hone, hplace, hoptions⟩
    obtain ⟨D, hD, hrest⟩ := (read_present hspin t cgroup).1 hread
    split_ifs at hrest with hw
    · obtain ⟨q, hfits, rfl⟩ := hrest
      have hdefines := hoptions (.inl (wantsOptions_iff.1 hw).2)
      have hplaces := (definesTable_withTable hfits.2 rfl).1 hdefines
      exact .extended hspin hw hD ((oneSpinTable_withOptions hfits).1 hone) hplace hfits
        (hplaces.symm.imp_left Eq.symm)
    · subst hrest
      exact .kept hspin (Bool.eq_false_iff.2 hw) hD hone hplace hoptions
  · intro hready
    cases hready with
    | added h => exact (Bool.false_ne_true (h.symm.trans hspin)).elim
    | kept _ hw hread hone hplace hoptions =>
      have hD := (read_present hspin t cgroup).2 ⟨_, hread, by rw [hw]; rfl⟩
      exact ⟨_, hD, _, _, hone, hplace, hoptions⟩
    | extended _ hw hread hone hplace hfits hoptions =>
      have hD := (read_present hspin t cgroup).2 ⟨_, hread, by rw [hw]; exact ⟨_, hfits, rfl⟩⟩
      refine ⟨_, hD, _, _, (oneSpinTable_withOptions hfits).2 hone, hplace, fun _ => ?_⟩
      exact (definesTable_withTable hfits.2 rfl).2 (hoptions.symm.imp_right Eq.symm)

theorem registered_ready :
    Registered c cgroup (configured t cgroup c.text) ↔ Ready t c cgroup := by
  cases hspin : hasSpin c.text with
  | true => exact registered_present hspin t cgroup
  | false => exact registered_fresh hspin t cgroup

/-- The script registers the runtime exactly when its searches agree with the tables. -/
theorem registered_iff (t : Target) (c : Config) (cgroup : String) :
    Registered c cgroup (configured t cgroup c.text) ↔ Ready t c cgroup := registered_ready

@[irreducible] def quotedText : String :=
  "version = 2\n[plugins.\"io.containerd.grpc.v1.cri\".containerd.runtimes.\"spin\"]\n" ++
  "runtime_type = \"io.containerd.spin.v2\"\n[plugins.\"io.containerd.grpc.v1.cri\"" ++
  ".containerd.runtimes.\"spin\".options]\nSystemdCgroup = true\n"

theorem quotedText_facts : (read quotedText.toList).isSome = true ∧
    ((read quotedText.toList).bind fun D => D [.key "version".toList]) = some (.scalar ['2']) ∧
    ((read quotedText.toList).bind fun D => tablePath D (optionsKeys false)) = none ∧
    hasSpin quotedText.toList = true ∧ hasOptions quotedText.toList = false ∧
    isVersion3 quotedText.toList = false := by
  rw [quotedText, toList_append (toList_literal rfl) (toList_literal rfl) (toList_literal rfl)]
  decide +kernel

theorem declares_get {token : Text} (h : (read text).isSome = true)
    (hversion : ((read text).bind fun D => D [.key "version".toList]) = some (.scalar token))
    (hvalue : intValue token = some (if version3 then 3 else 2)) :
    Declares ((read text).get h) version3 := by
  rw [← Option.some_get h, Option.bind_some] at hversion
  exact ⟨token, hversion, hvalue⟩

def quotedOptions : Config where
  text := quotedText.toList
  defs := (read quotedText.toList).get quotedText_facts.1
  version3 := false
  read_text := (Option.some_get quotedText_facts.1).symm
  declares := declares_get quotedText_facts.1 quotedText_facts.2.1 (by decide)

theorem quotedOptions_text : quotedOptions.text = quotedText.toList := by
  rw [quotedOptions]

/-- The script does not find these options and adds others, and the text is valid no more. -/
theorem quotedOptions_defined_twice :
    ¬ Registered quotedOptions "true"
      (configured (.inPlace .generic) "true" quotedOptions.text) := by
  obtain ⟨_, _, hpath, hspin, hoptions, hversion⟩ := quotedText_facts
  rw [← quotedOptions_text] at hpath hspin hoptions hversion
  intro ⟨D', hread, _⟩
  obtain ⟨D, hD, hrest⟩ := (read_present hspin _ _).1 hread
  rw [if_pos (wantsOptions_iff.2 ⟨hoptions, rfl⟩), hversion] at hrest
  obtain ⟨q, hfits, _⟩ := hrest
  rw [rewritten, if_neg (by decide)] at hD
  rw [hD, Option.bind_some, hfits.1] at hpath
  cases hpath

end ShimSpin.Installer
