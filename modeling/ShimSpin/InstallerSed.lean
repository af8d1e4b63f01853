import ShimSpin.InstallerReset
import Mathlib.Data.List.Forall2
import Mathlib.Data.List.TakeWhile

namespace ShimSpin.Installer
set_option autoImplicit true

/-- A match of the pattern of `sed` starts a text. -/
def isOldType (u : Text) : Bool :=
  Search.startsWith (dots oldType) u && '"' ∈ u.drop oldType.length

/-- What `sed` makes of a line: nothing of one that has no match, and else it replaces the leftmost
match, up to the last quotation mark. -/
inductive ResetsTo (d : Distro) (line : Text) : Text → Prop where
  | kept (h : ∀ u, u <:+ line → isOldType u = false) : ResetsTo d line line
  | replaced (before rest : Text) (hline : line = before ++ rest) (hrest : isOldType rest = true)
      (hfirst : ∀ u v, before = u ++ v → v ≠ [] → isOldType (v ++ rest) = false) :
      ResetsTo d line (before ++ ((newType d).toList ++ afterLast '"' rest))

variable {d : Distro} {text line line' u v rest : Text}

theorem resetLine_eq (d : Distro) (line : Text) : resetLine d line =
    Search.replaceFirst isOldType (fun u => (newType d).toList ++ afterLast '"' u) line := by
  induction line with
  | nil => rfl
  | cons c cs ih =>
    rw [resetLine, ih]
    rfl

theorem isOldType_nil : isOldType [] = false := rfl

theorem isOldType_iff : isOldType u = true ↔
    Search.startsWith (dots oldType) u = true ∧ '"' ∈ u.drop oldType.length := by
  rw [isOldType, Bool.and_eq_true, decide_eq_true_eq]

theorem resetLine_resetsTo (d : Distro) (line : Text) : ResetsTo d line (resetLine d line) := by
  rw [resetLine_eq]
  rcases Search.replaceFirst_cases isOldType
    (fun u => (newType d).toList ++ afterLast '"' u) line with h | ⟨before, rest, hl, hr, hf, he⟩
  · have hnone : ∀ u, u <:+ line → isOldType u = false := by
      intro u hu
      by_cases hne : u = []
      · rw [hne, isOldType_nil]
      · exact h u hu hne
    rw [Search.replaceFirst_eq_self hnone]
    exact .kept hnone
  · rw [he]
    exact .replaced before rest hl hr hf

theorem not_isOldType (h : '"' ∉ u) : isOldType u = false := by
  rw [← Bool.not_eq_true, isOldType_iff]
  exact fun ht => h (List.mem_of_mem_drop ht.2)

theorem afterLast_quote (line : Text) : '"' ∉ afterLast '"' line := by
  rw [afterLast, List.mem_reverse]
  intro h
  have hne := List.mem_takeWhile_imp h
  exact of_decide_eq_true hne rfl

theorem oldType_length : (dots oldType).length = 34 := by decide

/-- No match starts in what `sed` puts in. -/
theorem newType_starts (d : Distro) : ∀ b ∈ (newType d).toList.tails, b = [] ∨
    Search.startsWith ((dots oldType).take b.length) b = false := by
  cases d with
  | generic => decide +kernel
  | microk8s => decide +kernel
  | k0s => decide +kernel

/-- The pattern has no place for its own start in the part that could reach into it. -/
theorem oldType_inside : ∀ n ∈ (List.range 18).tail,
    ((dots oldType).drop n).head?.elim true (fun p => p 'r') = false := by
  decide +kernel

theorem startsWith_cons {ps : Search.Pattern Char} {c : Char} {cs : Text}
    (h : Search.startsWith ps (c :: cs) = true) : ps.head?.elim true (fun p => p c) = true := by
  cases ps with
  | nil => rfl
  | cons p ps => exact (Bool.and_eq_true_iff.1 h).1

theorem typeKey_of_startsWith (h : Search.startsWith (dots oldType) u = true) :
    ∃ v, u = typeKey.toList ++ v := by
  rw [dots_append (b := typeKey) (c := "io.containerd.spin") (by decide),
    Search.startsWith_append_pattern, Bool.and_eq_true] at h
  have hdot : '.' ∉ typeKey.toList := by decide
  have hword : dots typeKey = Search.word typeKey.toList := by
    rw [dots, Search.word]
    apply List.map_congr_left
    intro c hc
    funext x
    have hne : c ≠ '.' := fun he => hdot (he ▸ hc)
    simp only [hne, if_false]
  rw [hword] at h
  obtain ⟨v, hv⟩ := Search.word_startsWith.1 h.1
  exact ⟨v, hv.symm⟩

theorem newType_clean (d : Distro) (hv : v ≠ []) (hsuffix : v <:+ (newType d).toList)
    (rest : Text) : isOldType (v ++ rest) = false := by
  rcases newType_starts d v ((List.mem_tails _ _).2 hsuffix) with h | h
  · exact (hv h).elim
  · rw [isOldType, Search.startsWith_append_text, h, Bool.false_and, Bool.false_and]

/-- A match that starts before the place of the leftmost one would have been further left. -/
theorem before_clean (hrest : isOldType rest = true) (hne : v ≠ [])
    (hfirst : isOldType (v ++ rest) = false) (d : Distro) (after : Text) :
    isOldType (v ++ ((newType d).toList ++ after)) = false := by
  obtain ⟨hstart, hquote⟩ := isOldType_iff.1 hrest
  obtain ⟨rest', hrest'⟩ := typeKey_of_startsWith hstart
  rw [← Bool.not_eq_true] at hfirst ⊢
  intro h
  have hmatch := (isOldType_iff.1 h).1
  rw [newType_eq, List.append_assoc] at hmatch
  by_cases hlength : v.length < 18
  · have hmem : v.length ∈ (List.range 18).tail := by
      have hpos := List.length_pos_of_ne_nil hne
      revert hpos hlength
      generalize v.length = n
      revert n
      decide
    have hinside := oldType_inside _ hmem
    rw [Search.startsWith_append_text, Bool.and_eq_true] at hmatch
    rw [startsWith_cons (c := 'r') hmatch.2] at hinside
    cases hinside
  · apply hfirst
    rw [isOldType_iff]
    have hkey : Search.startsWith (dots oldType) (v ++ typeKey.toList) = true := by
      rw [← List.append_assoc, Search.startsWith_append_text, Bool.and_eq_true,
        List.take_of_length_le] at hmatch
      · exact hmatch.1
      · have htypeKey : typeKey.toList.length = 16 := by decide
        rw [oldType_length, List.length_append, htypeKey]
        omega
    apply And.intro
    · rw [hrest', ← List.append_assoc]
      exact Search.startsWith_append hkey rest'
    · have hdrop : ((v ++ rest).drop oldType.length).drop v.length = rest.drop oldType.length := by
        rw [List.drop_drop, Nat.add_comm, ← List.drop_drop, List.drop_left]
      exact List.mem_of_mem_drop (hdrop ▸ hquote)

theorem newType_ne_nil (d : Distro) : (newType d).toList ≠ [] := by
  rw [newType_eq]
  intro h
  have hkey : typeKey.toList ≠ [] := by decide
  exact hkey (List.append_eq_nil_iff.1 h).1

theorem ResetsTo.clean (h : ResetsTo d line line') (hu : u <:+ line') : isOldType u = false := by
  cases h with
  | kept h => exact h u hu
  | replaced before rest hline hrest hfirst =>
    have hafter : ∀ u, u <:+ afterLast '"' rest → isOldType u = false := by
      intro u hu
      exact not_isOldType fun hq => afterLast_quote rest (hu.subset hq)
    obtain ⟨w, hw⟩ := hu
    rcases List.append_eq_append_iff.1 hw with ⟨v, hbefore, rfl⟩ | ⟨v, rfl, hv⟩
    · by_cases hne : v = []
      · rw [hne, List.nil_append]
        exact newType_clean d (newType_ne_nil d) List.suffix_rfl _
      · exact before_clean hrest hne (hfirst w v hbefore hne) d _
    · rcases List.append_eq_append_iff.1 hv with ⟨b, _, he⟩ | ⟨b, hb, rfl⟩
      · exact hafter u ⟨b, he.symm⟩
      · by_cases hne : b = []
        · rw [hne, List.nil_append]
          exact hafter _ List.suffix_rfl
        · exact newType_clean d hne ⟨v, hb.symm⟩ _

theorem resetLine_of_clean (h : ∀ u, u <:+ line → isOldType u = false) (d : Distro) :
    resetLine d line = line := by
  rw [resetLine_eq, Search.replaceFirst_eq_self h]

theorem resetLine_newline (d : Distro) (line : Text) (h : '\n' ∉ line) :
    '\n' ∉ resetLine d line := by
  have hnew : '\n' ∉ (newType d).toList := by
    cases d with
    | generic => decide +kernel
    | microk8s => decide +kernel
    | k0s => decide +kernel
  have hresets := resetLine_resetsTo d line
  revert hresets
  generalize resetLine d line = line'
  intro hresets
  cases hresets with
  | kept _ => exact h
  | replaced before rest hline =>
    rw [hline, List.mem_append, not_or] at h
    rw [List.mem_append, List.mem_append, not_or, not_or]
    exact ⟨h.1, hnew, fun hm => h.2 ((afterLast_suffix _ _).subset hm)⟩

theorem ResetsTo.grep_mono {pattern : String} (h : ResetsTo d line line')
    (hs : grep pattern line' = true) (hne : pattern.toList ≠ [])
    (hclean : ∀ c ∈ (newType d).toList, ∀ p ∈ dots pattern, p c = false) :
    grep pattern line = true := by
  cases h with
  | kept _ => exact hs
  | replaced before rest hline =>
    have hdots : dots pattern ≠ [] := by rwa [dots, ne_eq, List.map_eq_nil_iff]
    rw [grep_eq, Search.occurs_append_clean hdots (newType_ne_nil d) hclean, Bool.or_eq_true] at hs
    rw [hline, grep_eq]
    rcases hs with hs | hs
    · exact Search.occurs_append_right hs rest
    · have hafter := Search.occurs_of_infix hs (afterLast_suffix '"' rest).isInfix
      exact Search.occurs_append_left hafter before

theorem ResetsTo.hasSpin (h : ResetsTo d line line') (hs : hasSpin line = true) :
    hasSpin line' = true := by
  cases h with
  | kept _ => exact hs
  | replaced before rest hline =>
    have hnew : ShimSpin.Installer.hasSpin (newType d).toList = true := by
      cases d with
      | generic => decide +kernel
      | microk8s => decide +kernel
      | k0s => decide +kernel
    exact Search.occurs_append_left (Search.occurs_append_right hnew _) before

/-- The step with `sed` replaces the leftmost match in each line, leaves none in any line, and has
nothing to do a second time. -/
theorem resetType_settles (d : Distro) (text : Text) :
    List.Forall₂ (ResetsTo d) (text.splitOn '\n') ((resetType d text).splitOn '\n') ∧
    (∀ line ∈ (resetType d text).splitOn '\n', ∀ u, u <:+ line → isOldType u = false) ∧
    resetType d (resetType d text) = resetType d text := by
  have hsplit : (resetType d text).splitOn '\n' = (text.splitOn '\n').map (resetLine d) :=
    Search.splitOn_mapParts (resetLine_newline d) text
  have hclean : ∀ line ∈ (resetType d text).splitOn '\n', ∀ u, u <:+ line →
      isOldType u = false := by
    intro line hline u hu
    rw [hsplit] at hline
    obtain ⟨line, _, rfl⟩ := List.mem_map.1 hline
    exact (resetLine_resetsTo d line).clean hu
  refine ⟨?_, hclean, ?_⟩
  · rw [hsplit, List.forall₂_map_right_iff, List.forall₂_same]
    exact fun line _ => resetLine_resetsTo d line
  · exact Search.mapParts_eq_self fun line hline => resetLine_of_clean (hclean line hline) d

end ShimSpin.Installer
