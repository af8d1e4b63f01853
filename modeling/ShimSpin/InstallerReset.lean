import ShimSpin.Registration

namespace ShimSpin.Installer
open Toml
set_option autoImplicit true

/-- What needs no escape in any string. -/
def isPlain (c : Char) : Bool := isText c && c ≠ '"' && c ≠ '\'' && c ≠ '\\'

def typeKey : String := "runtime_type = \""

/-- A line that `sed` rewrites, where the type is one plain string and nothing after it has a
quotation mark. -/
inductive TypeLine : Text → Prop where
  | intro (blanks type rest : Text) (hblanks : ∀ c ∈ blanks, isBlank c = true)
      (hplain : ∀ c ∈ type, isPlain c = true)
      (hspin : Search.startsWith (dots "io.containerd.spin") type = true) (hrest : '"' ∉ rest) :
      TypeLine (blanks ++ (typeKey.toList ++ (type ++ '"' :: rest)))

/-- Every line is left alone by `sed`, or is one that it rewrites and nothing else. -/
def TypeLines (text : Text) : Prop :=
  ∀ line ∈ text.splitOn '\n', Search.occurs (dots oldType) line = false ∨ TypeLine line

inductive AtLine : Cursor → Prop where
  | start : AtLine .start
  | inside (h : Inside mode) : AtLine ⟨mode, false⟩

variable {d : Distro} {t : Target} {c : Config} {cgroup : String} {s s' : Cursor}
  {text line type type' blanks rest : Text} {out : List Event}

theorem atLine_newline (h : lexer.step s '\n' = some (s', out)) : AtLine s' := by
  rcases lexer_step_cases h with ⟨he, _⟩ | ⟨_, hcr, hmode⟩
  · exact absurd he (by decide)
  · cases s' with
    | mk mode cr =>
      cases hcr
      cases hf : finishMode s.mode with
      | none => exact .inside (stepMode_inside hmode hf)
      | some o =>
        rw [stepMode_newline hf] at hmode
        cases hmode
        exact .start

theorem run_stays {p : Char → Bool} (hp : ∀ c ∈ text, p c = true)
    (hs : ∀ c, p c = true → lexer.step s c = some (s, [])) :
    lexer.run s text = some (s, []) := by
  induction text with
  | nil => rfl
  | cons c cs ih =>
    rw [List.forall_mem_cons] at hp
    exact Transducer.run_cons.2 ⟨s, [], [], hs c hp.1, ih hp.2, rfl⟩

theorem isBlank_iff {c : Char} : isBlank c = true ↔ c = ' ' ∨ c = '\t' := by
  rw [isBlank, Bool.or_eq_true, decide_eq_true_eq, decide_eq_true_eq]

theorem atLine_blank (hs : AtLine s) (c : Char) (hc : isBlank c = true) :
    lexer.step s c = some (s, []) := by
  have hchar := isBlank_iff.1 hc
  cases hs with
  | start => rcases hchar with rfl | rfl <;> rfl
  | inside h =>
    cases h with
    | item stack => rcases hchar with rfl | rfl <;> rfl
    | after container stack => cases container <;> rcases hchar with rfl | rfl <;> rfl
    | multi literal stack => cases literal <;> rcases hchar with rfl | rfl <;> rfl

theorem isPlain_iff {c : Char} : isPlain c = true ↔
    isText c = true ∧ c ≠ '"' ∧ c ≠ '\'' ∧ c ≠ '\\' := by
  simp only [isPlain, Bool.and_eq_true, decide_eq_true_eq, and_assoc]

/-- A state in which a plain character belongs to a string, and the state after it. -/
inductive Reads : Cursor → Cursor → Prop where
  | quote (stack : List Container) :
      Reads ⟨.quote false stack, false⟩ ⟨.string false stack, false⟩
  | string (stack : List Container) :
      Reads ⟨.string false stack, false⟩ ⟨.string false stack, false⟩
  | multi (literal : Bool) (stack : List Container) (seen : Nat) (h : seen < 3) :
      Reads ⟨.multi literal stack seen, false⟩ ⟨.multi literal stack 0, false⟩

theorem Reads.again (h : Reads s s') : Reads s' s' := by
  cases h with
  | quote stack => exact .string stack
  | string stack => exact .string stack
  | multi literal stack => exact .multi literal stack 0 (by decide)

theorem Reads.step {c : Char} (h : Reads s s') (hc : isPlain c = true) :
    lexer.step s c = some (s', []) := by
  obtain ⟨htext, hquote, hsingle, hescape⟩ := isPlain_iff.1 hc
  have hreturn : c ≠ '\r' := by
    rintro rfl
    exact absurd htext (by decide)
  cases h with
  | quote stack => simp [lexer, hreturn, stepMode, quoteChar, hquote, hescape, htext]
  | string stack => simp [lexer, hreturn, stepMode, quoteChar, hquote, hescape, htext]
  | multi literal stack seen hseen =>
    have hchar : c ≠ quoteChar literal := by
      cases literal with
      | true => exact hsingle
      | false => exact hquote
    simp [lexer, hreturn, stepMode, stepMulti, hchar, Nat.not_le.2 hseen, hescape, htext]

theorem Reads.run (h : Reads s s') (hplain : ∀ c ∈ type, isPlain c = true) (hne : type ≠ []) :
    lexer.run s type = some (s', []) := by
  cases type with
  | nil => exact (hne rfl).elim
  | cons c cs =>
    rw [List.forall_mem_cons] at hplain
    exact Transducer.run_cons.2 ⟨s', [], [], h.step hplain.1,
      run_stays hplain.2 fun _ hc => h.again.step hc, rfl⟩

/-- At the start of a line the key leads into a string, if it is taken at all. -/
theorem reads_typeKey (hs : AtLine s) (h : lexer.run s typeKey.toList = some (s', out)) :
    ∃ t, Reads s' t := by
  rw [toList_literal (s := typeKey) rfl] at h
  cases hs with
  | start =>
    cases h
    exact ⟨_, .quote []⟩
  | inside hm =>
    cases hm with
    | item stack => cases h
    | after container stack => cases container <;> cases h
    | multi literal stack =>
      cases literal with
      | true =>
        cases h
        exact ⟨_, .multi true stack 0 (by decide)⟩
      | false =>
        cases h
        exact ⟨_, .multi false stack 1 (by decide)⟩

/-- A plain type may be exchanged for another one. -/
theorem run_type (hs : AtLine s) (hblanks : ∀ c ∈ blanks, isBlank c = true)
    (hplain : ∀ c ∈ type, isPlain c = true) (hne : type ≠ [])
    (hplain' : ∀ c ∈ type', isPlain c = true) (hne' : type' ≠ []) :
    lexer.run s (blanks ++ (typeKey.toList ++ (type' ++ rest))) =
      lexer.run s (blanks ++ (typeKey.toList ++ (type ++ rest))) := by
  apply Transducer.run_append_congr rfl
  intro t _ ht
  rw [run_stays hblanks (atLine_blank hs)] at ht
  cases ht
  apply Transducer.run_append_congr rfl
  intro t _ ht
  obtain ⟨t', hreads⟩ := reads_typeKey hs ht
  apply Transducer.run_append_congr
  · rw [hreads.run hplain hne, hreads.run hplain' hne']
  · exact fun _ _ _ => rfl

theorem afterLast_eq {q : Char} (h : q ∉ rest) (text : Text) :
    afterLast q (text ++ q :: rest) = rest := by
  have hrest : ∀ c ∈ rest.reverse, decide (c ≠ q) = true := by
    intro c hc
    exact decide_eq_true fun he => h (he ▸ List.mem_reverse.1 hc)
  rw [afterLast, List.reverse_append, List.reverse_cons, List.append_assoc,
    List.takeWhile_append_of_pos hrest, List.singleton_append, List.takeWhile_cons_of_neg (by simp),
    List.append_nil, List.reverse_reverse]

def shimPath (d : Distro) : Text :=
  (kwasmDir d).toList ++ "/bin/containerd-shim-spin-v2".toList

theorem newType_eq (d : Distro) :
    (newType d).toList = typeKey.toList ++ (shimPath d ++ ['"']) := by
  have happend {a b c e : String} (h : c.toList = e.toList ++ ['"']) :
      (a ++ b ++ c).toList = a.toList ++ ((b.toList ++ e.toList) ++ ['"']) := by
    simp only [String.toList_append, h, List.append_assoc]
  exact happend (by decide)

theorem shimPath_plain (d : Distro) : ∀ c ∈ shimPath d, isPlain c = true := by
  rw [← List.all_eq_true, shimPath, List.all_append, Bool.and_eq_true]
  apply And.intro _ (by decide)
  cases d with
  | generic => decide
  | microk8s => decide
  | k0s => decide

theorem shimPath_ne_nil (d : Distro) : shimPath d ≠ [] := by
  intro h
  have hend : "/bin/containerd-shim-spin-v2".toList ≠ [] := by decide
  exact hend (List.append_eq_nil_iff.1 h).2

theorem startsWith_oldType (hspin : Search.startsWith (dots "io.containerd.spin") type = true)
    (rest : Text) :
    Search.startsWith (dots oldType) (typeKey.toList ++ (type ++ rest)) = true := by
  have hkey : Search.startsWith (dots typeKey) typeKey.toList = true := by decide
  have hlength : (dots typeKey).length = typeKey.toList.length := List.length_map _
  rw [dots_append (b := typeKey) (c := "io.containerd.spin") (by decide),
    Search.startsWith_append_pattern, Search.startsWith_append hkey, hlength, List.drop_left,
    Search.startsWith_append hspin]
  rfl

theorem resetLine_type (d : Distro) (hblanks : ∀ c ∈ blanks, isBlank c = true)
    (hspin : Search.startsWith (dots "io.containerd.spin") type = true) (hrest : '"' ∉ rest) :
    resetLine d (blanks ++ (typeKey.toList ++ (type ++ '"' :: rest))) =
      blanks ++ (typeKey.toList ++ (shimPath d ++ '"' :: rest)) := by
  induction blanks with
  | nil =>
    have hstart := startsWith_oldType hspin ('"' :: rest)
    have hquote : '"' ∈ (typeKey.toList ++ (type ++ '"' :: rest)).drop oldType.length := by
      have hlength : oldType.length = typeKey.toList.length + 18 := by decide
      have htype : 18 ≤ type.length := Search.startsWith_length hspin
      rw [hlength, ← List.drop_drop, List.drop_left, List.drop_append_of_le_length htype]
      exact List.mem_append_right _ List.mem_cons_self
    have hafter := afterLast_eq hrest (typeKey.toList ++ type)
    rw [List.append_assoc] at hafter
    rw [List.nil_append, List.nil_append]
    cases hline : typeKey.toList ++ (type ++ '"' :: rest) with
    | nil =>
      rw [hline] at hstart
      exact absurd hstart (by decide)
    | cons c cs =>
      rw [hline] at hstart hquote hafter
      rw [resetLine, hstart, Bool.true_and, if_pos (decide_eq_true hquote), hafter, newType_eq]
      simp only [List.append_assoc, List.singleton_append]
  | cons b bs ih =>
    rw [List.forall_mem_cons] at hblanks
    have hstart : ∀ rest, Search.startsWith (dots oldType) (b :: rest) = false := by
      rw [dots, toList_literal (s := oldType) rfl]
      rcases isBlank_iff.1 hblanks.1 with rfl | rfl
      · exact fun _ => rfl
      · exact fun _ => rfl
    rw [List.cons_append, resetLine, hstart, Bool.false_and, if_neg Bool.false_ne_true,
      ih hblanks.2, List.cons_append]

theorem resetLine_typeLine (d : Distro) (h : TypeLine line) (hs : AtLine s) :
    lexer.run s (resetLine d line) = lexer.run s line := by
  obtain ⟨blanks, type, rest, hblanks, hplain, hspin, hrest⟩ := h
  have hne : type ≠ [] := by
    rintro rfl
    exact absurd hspin (by decide)
  rw [resetLine_type d hblanks hspin hrest]
  exact run_type hs hblanks hplain hne (shimPath_plain d) (shimPath_ne_nil d)

theorem events_resetType (h : TypeLines text) : events (resetType d text) = events text := by
  have hline : ∀ s, AtLine s → ∀ line ∈ text.splitOn '\n',
      lexer.run s (resetLine d line) = lexer.run s line := by
    intro s hs line hline
    rcases h line hline with hold | htype
    · rw [resetLine_eq_self hold]
    · exact resetLine_typeLine d htype hs
  have hlines := Transducer.run_intercalate (fun _ _ _ => atLine_newline) hline .start
  rw [List.intercalate_splitOn] at hlines
  exact Transducer.output_congr hlines

/-- The last step of k3s leaves the tables as they are, on such lines. -/
theorem read_rewritten (h : TypeLines text) (t : Target) : read (rewritten t text) = read text := by
  rw [rewritten]
  split_ifs with ht
  · rw [Toml.read, events_resetType h, Toml.read]
  · rfl

theorem ready_of_typeLines (h : TypeLines c.text) (hready : Ready t c cgroup) (t' : Target) :
    Ready t' c cgroup := by
  cases hready with
  | added hspin hversion hnone hfits hoptions => exact .added hspin hversion hnone hfits hoptions
  | kept hspin hwants hread hone hplace hoptions =>
    rw [read_rewritten h] at hread
    exact .kept hspin hwants ((read_rewritten h t').trans hread) hone hplace hoptions
  | extended hspin hwants hread hone hplace hfits hoptions =>
    rw [read_rewritten h] at hread
    exact .extended hspin hwants ((read_rewritten h t').trans hread) hone hplace hfits hoptions

/-- On such lines the condition is one on the configuration itself, as it is in place, and it does
not matter which distribution the script configures. -/
theorem registered_of_typeLines (h : TypeLines c.text) (t t' : Target) :
    (Registered c cgroup (configured t cgroup c.text) ↔ Ready (.inPlace .generic) c cgroup) ∧
    (Registered c cgroup (configured t cgroup c.text) ↔
      Registered c cgroup (configured t' cgroup c.text)) := by
  have halike (t t' : Target) : Ready t c cgroup ↔ Ready t' c cgroup :=
    ⟨fun hready => ready_of_typeLines h hready t', fun hready => ready_of_typeLines h hready t⟩
  rw [registered_ready, registered_ready]
  exact ⟨halike t _, halike t t'⟩

-- Where more strings follow in the line, the last step may cut off an opening bracket with them.
example :
    let text := "a = \x7b runtime_type = \"io.containerd.spin\", b = \x7b c = \"\" \x7d \x7d".toList
    (read text).isSome = true ∧ (read (rewritten .k3s text)).isSome = false := by
  decide +kernel

theorem quotedText_typeLines : TypeLines quotedText.toList := by
  have hlines : ∀ line ∈ quotedText.toList.splitOn '\n', Search.occurs (dots oldType) line = false ∨
      line = typeKey.toList ++ ("io.containerd.spin.v2".toList ++ ['"']) := by
    rw [quotedText, toList_append (toList_literal rfl) (toList_literal rfl) (toList_literal rfl)]
    decide +kernel
  have hplain : ("io.containerd.spin.v2".toList.all isPlain) = true := by decide
  intro line hline
  rcases hlines line hline with hold | rfl
  · exact .inl hold
  · apply Or.inr
    apply TypeLine.intro [] _ [] _ (List.all_eq_true.1 hplain) (by decide) List.not_mem_nil
    exact fun _ hc => (List.not_mem_nil hc).elim

/-- The runtime with quoted keys is registered on k3s just when it is elsewhere. -/
theorem registered_of_typeLines_quoted :
    Registered quotedOptions "false" (configured .k3s "false" quotedOptions.text) ↔
      Registered quotedOptions "false"
        (configured (.inPlace .generic) "false" quotedOptions.text) := by
  have hlines : TypeLines quotedOptions.text := by
    rw [quotedOptions_text]
    exact quotedText_typeLines
  exact (registered_of_typeLines hlines .k3s (.inPlace .generic)).2

end ShimSpin.Installer
