import ShimSpin.InstallerEdits

namespace ShimSpin.Installer
set_option autoImplicit true

/-- The distributions that the script tells apart, with those whose file is a copy. -/
inductive Target where
  | inPlace (d : Distro)
  | rke2Agent
  | k3s
  deriving DecidableEq

/-- The distribution whose directory is used. -/
def Target.distro : Target → Distro
  | .inPlace d => d
  | .rke2Agent => .generic
  | .k3s => .generic

/-- A basic regular expression in which only the dot is special. -/
def dots (pattern : String) : Search.Pattern Char :=
  pattern.toList.map fun p c => if p = '.' then c ≠ '\n' else c = p

/-- What the pattern of `sed` starts with. It goes on with anything up to a quotation mark. -/
def oldType : String := "runtime_type = \"io.containerd.spin"

def newType (d : Distro) : String :=
  "runtime_type = \"" ++ kwasmDir d ++ "/bin/containerd-shim-spin-v2\""

def afterLast (q : Char) (line : Text) : Text := (line.reverse.takeWhile (· ≠ q)).reverse

/-- The leftmost match of a line is replaced, and it ends at the last quotation mark. -/
def resetLine (d : Distro) : Text → Text
  | [] => []
  | c :: cs =>
    if Search.startsWith (dots oldType) (c :: cs) && '"' ∈ (c :: cs).drop oldType.length then
      (newType d).toList ++ afterLast '"' (c :: cs)
    else c :: resetLine d cs

def resetType (d : Distro) (text : Text) : Text := Search.mapParts '\n' (resetLine d) text

/-- The last step of the script on a text, which only k3s has. -/
def rewritten (t : Target) (text : Text) : Text :=
  if t = .k3s then resetType t.distro text else text

def configured (t : Target) (cgroup : String) (text : Text) : Text :=
  rewritten t (edit t.distro cgroup text)

def runtimeLines (d : Distro) (version3 : Bool) : Text :=
  (runtimeHeader version3).toList ++ '\n' :: (runtimeRest d).toList

def optionsLines (version3 : Bool) : Text :=
  (optionsHeader version3).toList ++ '\n' :: optionsRest.toList

variable {d : Distro} {t : Target} {text rest line : Text}

theorem grep_eq (pattern : String) (text : Text) :
    grep pattern text = Search.occurs (dots pattern) text := rfl

theorem dots_newline {pattern : String} (h : '\n' ∉ pattern.toList) :
    ∀ p ∈ dots pattern, p '\n' = false := by
  intro p hp
  obtain ⟨c, hc, rfl⟩ := List.mem_map.1 hp
  split_ifs with hdot
  · rfl
  · exact decide_eq_false fun he => h (he ▸ hc)

theorem grep_append_newline {pattern : String} (h : '\n' ∉ pattern.toList) (text rest : Text) :
    grep pattern (text ++ '\n' :: rest) = (grep pattern text || grep pattern rest) :=
  Search.occurs_append_sep (dots_newline h) rest

theorem dots_append {a b c : String} (h : a.toList = b.toList ++ c.toList) :
    dots a = dots b ++ dots c := by
  rw [dots, h, List.map_append, dots, dots]

theorem hasSpin_of_hasOptions (h : hasOptions text = true) : hasSpin text = true := by
  rw [hasOptions, grep_eq, dots_append (b := "runtimes.") (c := "spin.options") (by decide)] at h
  have hrest := (Search.occurs_of_occurs_append h).2
  rw [dots_append (b := "spin") (c := ".options") (by decide)] at hrest
  exact (Search.occurs_of_occurs_append hrest).1

theorem resetLine_eq_self (h : Search.occurs (dots oldType) line = false) :
    resetLine d line = line := by
  induction line with
  | nil => rfl
  | cons c cs ih =>
    rw [Search.occurs, Bool.or_eq_false_iff] at h
    rw [resetLine, h.1, Bool.false_and, if_neg Bool.false_ne_true, ih h.2]

theorem resetType_eq_self (h : Search.occurs (dots oldType) text = false) :
    resetType d text = text := by
  apply Search.mapParts_eq_self
  intro line hline
  apply resetLine_eq_self
  rw [← Bool.not_eq_true] at h ⊢
  exact fun hold => h (Search.occurs_of_infix hold (Search.infix_of_mem_splitOn hline))

theorem occurs_oldType (h : hasSpin text = false) :
    Search.occurs (dots oldType) text = false := by
  rw [← Bool.not_eq_true] at h ⊢
  intro hold
  rw [dots_append (b := "runtime_type = \"io.containerd.") (c := "spin") (by decide)] at hold
  exact h (Search.occurs_of_occurs_append hold).2

theorem rewritten_fresh (h : hasSpin text = false) : rewritten t text = text := by
  rw [rewritten]
  split_ifs with ht
  · exact resetType_eq_self (occurs_oldType h)
  · rfl

theorem rewritten_append (h : Search.occurs (dots oldType) rest = false) (text : Text) :
    rewritten t (text ++ '\n' :: rest) = rewritten t text ++ '\n' :: rest := by
  rw [rewritten, rewritten]
  split_ifs with ht
  · rw [resetType, Search.mapParts_append_sep]
    exact congrArg _ (congrArg _ (resetType_eq_self h))
  · rfl

theorem afterLast_suffix (q : Char) (line : Text) : afterLast q line <:+ line := by
  rw [← List.reverse_prefix, afterLast, List.reverse_reverse]
  exact List.takeWhile_prefix _

theorem getLast_of_suffix {c : Char} (h : rest <:+ line) (hc : rest.getLast? = some c) :
    line.getLast? = some c := by
  obtain ⟨start, rfl⟩ := h
  rw [List.getLast?_append, hc]
  rfl

theorem newType_getLast (d : Distro) : (newType d).toList.getLast? = some '"' := by
  have happ {a b c : String} (hc : c.toList.getLast? = some '"') :
      (a ++ b ++ c).toList.getLast? = some '"' := by
    rw [String.toList_append, List.getLast?_append, hc]
    rfl
  exact happ (by decide)

theorem resetLine_eq_nil (h : resetLine d line = []) : line = [] := by
  cases line with
  | nil => rfl
  | cons c cs =>
    rw [resetLine] at h
    split_ifs at h with hold
    have hnil := newType_getLast d
    rw [(List.append_eq_nil_iff.1 h).1] at hnil
    cases hnil

theorem resetLine_getLast (h : (resetLine d line).getLast? = some '\r') :
    line.getLast? = some '\r' := by
  induction line with
  | nil => exact h
  | cons c cs ih =>
    rw [resetLine] at h
    split_ifs at h with hold
    · rw [List.getLast?_append, newType_getLast] at h
      cases hafter : (afterLast '"' (c :: cs)).getLast? with
      | none =>
        rw [hafter] at h
        cases h
      | some x =>
        rw [hafter] at h
        cases h
        exact getLast_of_suffix (afterLast_suffix _ _) hafter
    · rw [List.getLast?_cons] at h ⊢
      cases hrest : (resetLine d cs).getLast? with
      | none =>
        rw [resetLine_eq_nil (List.getLast?_eq_none_iff.1 hrest)]
        rw [hrest] at h
        exact h
      | some x =>
        rw [hrest] at h
        cases h
        rw [ih hrest]
        rfl

/-- A rewritten line has the end it had, or a quotation mark. -/
theorem rewritten_getLast (h : (rewritten t text).getLast? = some '\r') :
    text.getLast? = some '\r' := by
  rw [rewritten] at h
  split_ifs at h with ht
  · exact Search.getLast_mapParts (by decide) (fun _ => resetLine_getLast) h
  · exact h

end ShimSpin.Installer
