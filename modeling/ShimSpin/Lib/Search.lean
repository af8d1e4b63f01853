import Mathlib.Data.List.Basic
import Mathlib.Data.List.Infix

namespace Search
set_option autoImplicit true

/-- A pattern is a test for each character of what it matches. -/
abbrev Pattern (α : Type) := List (α → Bool)

def startsWith : Pattern α → List α → Bool
  | [], _ => true
  | _ :: _, [] => false
  | p :: ps, c :: cs => p c && startsWith ps cs

def occurs (ps : Pattern α) : List α → Bool
  | [] => startsWith ps []
  | c :: cs => startsWith ps (c :: cs) || occurs ps cs

/-- How many matches of the pattern start in the text. -/
def occurrences (ps : Pattern α) : List α → Nat
  | [] => 0
  | c :: cs => (if startsWith ps (c :: cs) then 1 else 0) + occurrences ps cs

/-- The pattern of a word is matched by the word alone. -/
def word [DecidableEq α] (w : List α) : Pattern α := w.map fun c d => d = c

/-- A function on the parts of a text, between its separators. -/
def mapParts [DecidableEq α] (sep : α) (f : List α → List α) (t : List α) : List α :=
  [sep].intercalate ((t.splitOn sep).map f)

/-- The rest of a text is replaced from the first place at which it passes a test. -/
def replaceFirst (test : List α → Bool) (f : List α → List α) : List α → List α
  | [] => []
  | c :: cs => if test (c :: cs) then f (c :: cs) else c :: replaceFirst test f cs

variable {α : Type} {ps qs : Pattern α} {t : List α} {sep : α}

theorem startsWith_append (h : startsWith ps t = true) (u : List α) :
    startsWith ps (t ++ u) = true := by
  induction ps generalizing t with
  | nil => rfl
  | cons p ps ih =>
    cases t with
    | nil => cases h
    | cons c cs =>
      simp only [startsWith, Bool.and_eq_true] at h
      simp only [List.cons_append, startsWith, Bool.and_eq_true]
      exact ⟨h.1, ih h.2⟩

theorem occurs_of_startsWith (h : startsWith ps t = true) : occurs ps t = true := by
  cases t with
  | nil => exact h
  | cons c cs => rw [occurs, h, Bool.true_or]

theorem occurs_append_right (h : occurs ps t = true) (u : List α) :
    occurs ps (t ++ u) = true := by
  induction t with
  | nil => exact occurs_of_startsWith (startsWith_append h u)
  | cons c cs ih =>
    rw [occurs, Bool.or_eq_true] at h
    rw [List.cons_append, occurs, Bool.or_eq_true]
    rcases h with h | h
    · exact .inl (startsWith_append h u)
    · exact .inr (ih h)

theorem occurs_append_left (h : occurs ps t = true) (u : List α) :
    occurs ps (u ++ t) = true := by
  induction u with
  | nil => exact h
  | cons c cs ih => rw [List.cons_append, occurs, ih, Bool.or_true]

/-- A match does not go over a separator that the pattern has no place for. -/
theorem startsWith_append_sep (hsep : ∀ p ∈ ps, p sep = false) (u : List α) :
    startsWith ps (t ++ sep :: u) = startsWith ps t := by
  induction ps generalizing t with
  | nil => rw [startsWith, startsWith]
  | cons p ps ih =>
    rw [List.forall_mem_cons] at hsep
    cases t with
    | nil => rw [List.nil_append, startsWith, startsWith, hsep.1, Bool.false_and]
    | cons c cs => rw [List.cons_append, startsWith, startsWith, ih hsep.2]

theorem occurs_append_sep (hsep : ∀ p ∈ ps, p sep = false) (u : List α) :
    occurs ps (t ++ sep :: u) = (occurs ps t || occurs ps u) := by
  induction t with
  | nil =>
    have hstart := startsWith_append_sep (t := []) hsep u
    rw [List.nil_append] at hstart ⊢
    rw [occurs, occurs, hstart]
  | cons c cs ih =>
    have hstart := startsWith_append_sep (t := c :: cs) hsep u
    rw [List.cons_append] at hstart
    rw [List.cons_append, occurs, occurs, hstart, ih, Bool.or_assoc]

/-- No match reaches into a part that the pattern has no place for. -/
theorem occurs_append_clean {b : List α} (hne : ps ≠ []) (hb : b ≠ [])
    (hclean : ∀ c ∈ b, ∀ p ∈ ps, p c = false) (u : List α) :
    occurs ps (t ++ (b ++ u)) = (occurs ps t || occurs ps u) := by
  have hinside (b : List α) (hclean : ∀ c ∈ b, ∀ p ∈ ps, p c = false) :
      occurs ps (b ++ u) = occurs ps u := by
    induction b with
    | nil => rfl
    | cons c b ih =>
      rw [List.forall_mem_cons] at hclean
      obtain ⟨p, qs, rfl⟩ := List.exists_cons_of_ne_nil hne
      rw [List.cons_append, occurs, startsWith, hclean.1 p List.mem_cons_self, Bool.false_and,
        Bool.false_or, ih hclean.2]
  obtain ⟨c, b, rfl⟩ := List.exists_cons_of_ne_nil hb
  rw [List.forall_mem_cons] at hclean
  rw [List.cons_append, occurs_append_sep hclean.1, hinside b hclean.2]

theorem occurrences_eq_zero {p : α → Bool} (h : ∀ c ∈ t, p c = false) :
    occurrences (p :: ps) t = 0 := by
  induction t with
  | nil => rw [occurrences]
  | cons c cs ih =>
    rw [List.forall_mem_cons] at h
    rw [occurrences, ih h.2, startsWith, h.1, Bool.false_and, if_neg Bool.false_ne_true]

theorem occurrences_append_sep (hne : ps ≠ []) (hsep : ∀ p ∈ ps, p sep = false) (u : List α) :
    occurrences ps (t ++ sep :: u) = occurrences ps t + occurrences ps u := by
  induction t with
  | nil =>
    have hstart := startsWith_append_sep (t := []) hsep u
    have hempty : startsWith ps ([] : List α) = false := by
      cases ps with
      | nil => exact (hne rfl).elim
      | cons p ps => rw [startsWith]
    rw [List.nil_append] at hstart ⊢
    rw [occurrences, occurrences, hstart, hempty, if_neg Bool.false_ne_true]
  | cons c cs ih =>
    have hstart := startsWith_append_sep (t := c :: cs) hsep u
    rw [List.cons_append] at hstart
    rw [List.cons_append, occurrences, occurrences, hstart, ih, Nat.add_assoc]

theorem startsWith_length (h : startsWith ps t = true) : ps.length ≤ t.length := by
  induction ps generalizing t with
  | nil => exact Nat.zero_le _
  | cons p ps ih =>
    cases t with
    | nil => cases h
    | cons c cs =>
      rw [startsWith, Bool.and_eq_true] at h
      exact Nat.succ_le_succ (ih h.2)

theorem startsWith_append_pattern :
    startsWith (ps ++ qs) t = (startsWith ps t && startsWith qs (t.drop ps.length)) := by
  induction ps generalizing t with
  | nil => rfl
  | cons p ps ih =>
    cases t with
    | nil => rw [List.cons_append, startsWith, startsWith, Bool.false_and]
    | cons c cs =>
      rw [List.cons_append, startsWith, startsWith, ih, Bool.and_assoc, List.length_cons,
        List.drop_succ_cons]

theorem word_startsWith [DecidableEq α] {w : List α} :
    startsWith (word w) t = true ↔ w <+: t := by
  induction w generalizing t with
  | nil => exact iff_of_true rfl List.nil_prefix
  | cons c w ih =>
    cases t with
    | nil =>
      exact iff_of_false Bool.false_ne_true fun h => List.cons_ne_nil c w (List.prefix_nil.1 h)
    | cons c' cs =>
      rw [word, List.map_cons, startsWith, Bool.and_eq_true, decide_eq_true_eq,
        List.cons_prefix_cons, ← ih, word, eq_comm]

/-- A match over two parts of a text is a match of two parts of the pattern. -/
theorem startsWith_append_text (t u : List α) : startsWith ps (t ++ u) =
    (startsWith (ps.take t.length) t && startsWith (ps.drop t.length) u) := by
  induction ps generalizing t with
  | nil => rw [List.take_nil, List.drop_nil, startsWith, startsWith, startsWith, Bool.true_and]
  | cons p ps ih =>
    cases t with
    | nil => rfl
    | cons c cs =>
      rw [List.cons_append, startsWith, ih, List.length_cons, List.take_succ_cons,
        List.drop_succ_cons, startsWith, Bool.and_assoc]

theorem occurs_of_drop {n : Nat} (h : occurs ps (t.drop n) = true) : occurs ps t = true := by
  rw [← List.take_append_drop n t]
  exact occurs_append_left h _

theorem occurs_of_startsWith_append (h : startsWith (ps ++ qs) t = true) :
    occurs ps t = true ∧ occurs qs t = true := by
  rw [startsWith_append_pattern, Bool.and_eq_true] at h
  exact ⟨occurs_of_startsWith h.1, occurs_of_drop (occurs_of_startsWith h.2)⟩

theorem occurs_of_occurs_append (h : occurs (ps ++ qs) t = true) :
    occurs ps t = true ∧ occurs qs t = true := by
  induction t with
  | nil => exact occurs_of_startsWith_append h
  | cons c cs ih =>
    rw [occurs, Bool.or_eq_true] at h
    rcases h with h | h
    · exact occurs_of_startsWith_append h
    · exact ⟨occurs_append_left (ih h).1 [c], occurs_append_left (ih h).2 [c]⟩

theorem occurs_of_infix {u : List α} (h : occurs ps t = true) (hu : t <:+: u) :
    occurs ps u = true := by
  obtain ⟨start, rest, rfl⟩ := hu
  exact occurs_append_right (occurs_append_left h start) rest

section Replace
variable {test : List α → Bool} {f : List α → List α}

theorem replaceFirst_eq_self (h : ∀ u, u <:+ t → test u = false) : replaceFirst test f t = t := by
  induction t with
  | nil => rfl
  | cons c cs ih =>
    rw [replaceFirst, h _ List.suffix_rfl, if_neg Bool.false_ne_true,
      ih fun u hu => h u (hu.trans (List.suffix_cons c cs))]

/-- A text is left alone, or its first place is replaced. -/
theorem replaceFirst_cases (test : List α → Bool) (f : List α → List α) (t : List α) :
    (∀ u, u <:+ t → u ≠ [] → test u = false) ∨
    ∃ before rest, t = before ++ rest ∧ test rest = true ∧
      (∀ u v, before = u ++ v → v ≠ [] → test (v ++ rest) = false) ∧
      replaceFirst test f t = before ++ f rest := by
  induction t with
  | nil =>
    apply Or.inl
    intro u hu hne
    exact (hne (List.suffix_nil.1 hu)).elim
  | cons c cs ih =>
    cases hc : test (c :: cs) with
    | true =>
      refine .inr ⟨[], c :: cs, rfl, hc, ?_, by rw [replaceFirst, hc]; rfl⟩
      intro u v h hne
      exact (hne (List.append_eq_nil_iff.1 h.symm).2).elim
    | false =>
      have hreplace : replaceFirst test f (c :: cs) = c :: replaceFirst test f cs := by
        rw [replaceFirst, hc, if_neg Bool.false_ne_true]
      rcases ih with h | ⟨before, rest, rfl, hrest, hfirst, he⟩
      · apply Or.inl
        intro u hu hne
        rcases List.suffix_cons_iff.1 hu with rfl | hu
        · exact hc
        · exact h u hu hne
      · refine .inr ⟨c :: before, rest, rfl, hrest, ?_, by rw [hreplace, he]; rfl⟩
        intro u v h hne
        cases u with
        | nil =>
          rw [List.nil_append] at h
          rw [← h]
          exact hc
        | cons c' u =>
          rw [List.cons_append, List.cons.injEq] at h
          exact hfirst u v h.2 hne

end Replace

section Parts
variable {s part : List α} {parts parts' : List (List α)} {f : List α → List α} {x : α}

theorem intercalate_append (h : parts ≠ []) (h' : parts' ≠ []) :
    s.intercalate (parts ++ parts') = s.intercalate parts ++ s ++ s.intercalate parts' := by
  induction parts with
  | nil => exact (h rfl).elim
  | cons part rest ih =>
    cases rest with
    | nil =>
      rw [List.singleton_append, List.intercalate_cons_of_ne_nil h', List.intercalate_singleton]
    | cons next rest =>
      rw [List.cons_append, List.cons_append, List.intercalate_cons_cons, ← List.cons_append,
        ih (List.cons_ne_nil _ _), List.intercalate_cons_cons]
      simp only [List.append_assoc]

theorem infix_intercalate (h : part ∈ parts) : part <:+: s.intercalate parts := by
  induction parts with
  | nil => cases h
  | cons first rest ih =>
    cases rest with
    | nil =>
      cases List.mem_singleton.1 h
      exact ⟨[], [], by rw [List.intercalate_singleton, List.nil_append, List.append_nil]⟩
    | cons next rest =>
      rw [List.intercalate_cons_cons]
      rcases List.mem_cons.1 h with rfl | h
      · exact ((List.prefix_append _ _).trans (List.prefix_append _ _)).isInfix
      · exact (ih h).trans (List.suffix_append _ _).isInfix

/-- What has no place for a separator occurs in one of the parts. -/
theorem occurs_intercalate (hsep : ∀ p ∈ ps, p sep = false) (hne : parts ≠ []) :
    occurs ps ([sep].intercalate parts) = true ↔ ∃ part ∈ parts, occurs ps part = true := by
  apply Iff.intro
  · intro h
    induction parts with
    | nil => exact (hne rfl).elim
    | cons first rest ih =>
      cases rest with
      | nil =>
        rw [List.intercalate_singleton] at h
        exact ⟨first, List.mem_cons_self, h⟩
      | cons next rest =>
        rw [List.intercalate_cons_cons, List.append_assoc, List.singleton_append,
          occurs_append_sep hsep, Bool.or_eq_true] at h
        rcases h with h | h
        · exact ⟨first, List.mem_cons_self, h⟩
        · obtain ⟨part, hpart, h⟩ := ih (List.cons_ne_nil _ _) h
          exact ⟨part, List.mem_cons_of_mem first hpart, h⟩
  · intro h
    obtain ⟨part, hpart, h⟩ := h
    exact occurs_of_infix h (infix_intercalate hpart)

theorem getLast_intercalate (hx : sep ≠ x)
    (hf : ∀ l, (f l).getLast? = some x → l.getLast? = some x)
    (h : ([sep].intercalate (parts.map f)).getLast? = some x) :
    ([sep].intercalate parts).getLast? = some x := by
  induction parts with
  | nil => exact h
  | cons first rest ih =>
    cases rest with
    | nil =>
      rw [List.map_singleton, List.intercalate_singleton] at h
      rw [List.intercalate_singleton]
      exact hf _ h
    | cons next rest =>
      rw [List.map_cons, List.map_cons, List.intercalate_cons_cons, ← List.map_cons,
        List.getLast?_append] at h
      rw [List.intercalate_cons_cons, List.getLast?_append]
      cases hrest : ([sep].intercalate ((next :: rest).map f)).getLast? with
      | none =>
        rw [hrest, List.getLast?_concat] at h
        exact (hx (Option.some.inj h)).elim
      | some y =>
        rw [hrest] at h
        cases h
        rw [ih hrest]
        rfl

variable [DecidableEq α]

theorem mapParts_append_sep (t u : List α) :
    mapParts sep f (t ++ sep :: u) = mapParts sep f t ++ sep :: mapParts sep f u := by
  have hne (t : List α) : (t.splitOn sep).map f ≠ [] := by
    rw [ne_eq, List.map_eq_nil_iff]
    exact List.splitOn_ne_nil sep t
  rw [mapParts, List.splitOn_append_cons_self, List.map_append, intercalate_append (hne t) (hne u),
    List.append_assoc]
  rfl

theorem mapParts_eq_self (h : ∀ part ∈ t.splitOn sep, f part = part) : mapParts sep f t = t := by
  rw [mapParts, List.map_congr_left h, List.map_id', List.intercalate_splitOn]

theorem infix_of_mem_splitOn (h : part ∈ t.splitOn sep) : part <:+: t := by
  have hpart := infix_intercalate (s := [sep]) h
  rwa [List.intercalate_splitOn] at hpart

theorem not_mem_of_mem_splitOn (h : part ∈ t.splitOn sep) : sep ∉ part := by
  induction t generalizing part with
  | nil =>
    cases List.mem_singleton.1 h
    exact List.not_mem_nil
  | cons c cs ih =>
    rw [List.splitOn_cons_eq_if_modifyHead] at h
    split_ifs at h with hc
    · rcases List.mem_cons.1 h with rfl | h
      · exact List.not_mem_nil
      · exact ih h
    · cases hs : cs.splitOn sep with
      | nil => exact (List.splitOn_ne_nil sep cs hs).elim
      | cons first rest =>
        rw [hs, List.modifyHead_cons, List.mem_cons] at h
        rcases h with rfl | h
        · rw [List.mem_cons, not_or]
          apply And.intro
          · exact fun he => hc (beq_iff_eq.2 he.symm)
          · exact ih (hs ▸ List.mem_cons_self)
        · exact ih (hs ▸ List.mem_cons_of_mem first h)

theorem occurs_splitOn (hsep : ∀ p ∈ ps, p sep = false) :
    occurs ps t = true ↔ ∃ part ∈ t.splitOn sep, occurs ps part = true := by
  rw [← occurs_intercalate hsep (List.splitOn_ne_nil sep t), List.intercalate_splitOn]

theorem occurs_mapParts (hsep : ∀ p ∈ ps, p sep = false) (t : List α) :
    occurs ps (mapParts sep f t) = true ↔ ∃ part ∈ t.splitOn sep, occurs ps (f part) = true := by
  have hne : (t.splitOn sep).map f ≠ [] := by
    rw [ne_eq, List.map_eq_nil_iff]
    exact List.splitOn_ne_nil sep t
  rw [mapParts, occurs_intercalate hsep hne]
  simp only [List.mem_map, exists_exists_and_eq_and]

theorem splitOn_mapParts (hf : ∀ part, sep ∉ part → sep ∉ f part) (t : List α) :
    (mapParts sep f t).splitOn sep = (t.splitOn sep).map f := by
  apply List.splitOn_intercalate
  · intro part hpart
    obtain ⟨part, hp, rfl⟩ := List.mem_map.1 hpart
    exact hf part (not_mem_of_mem_splitOn hp)
  · rw [ne_eq, List.map_eq_nil_iff]
    exact List.splitOn_ne_nil sep t

theorem getLast_mapParts (hx : sep ≠ x)
    (hf : ∀ l, (f l).getLast? = some x → l.getLast? = some x)
    (h : (mapParts sep f t).getLast? = some x) : t.getLast? = some x := by
  have hparts := getLast_intercalate hx hf h
  rwa [List.intercalate_splitOn] at hparts

end Parts

end Search
