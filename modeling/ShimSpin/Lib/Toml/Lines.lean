import ShimSpin.Lib.Toml.Lexer

namespace Toml
set_option autoImplicit true

variable {mode mode' : Mode} {stack : List Container} {token : List Char} {s s' : Cursor}
  {text blk : List Char} {c : Char} {out out' : List Event}

theorem endScalar_newline (h : (if isScalar token then some [Event.scalar token] else none) =
    some out) : endScalar [] token '\n' = some (.line, out) := by
  split_ifs at h with hs
  cases h
  rw [endScalar, if_pos hs]
  rfl

theorem newline_ne_quote (literal : Bool) : ('\n' : Char) ≠ quoteChar literal := by
  cases literal with
  | true => decide
  | false => decide

/-- Where a text may end, a line may end, and the next one starts afresh. -/
theorem stepMode_newline (h : finishMode mode = some out) :
    stepMode mode '\n' = some (.line, out) := by
  revert h
  fun_cases finishMode mode
  case case1 | case2 | case3 =>
    intro h
    cases h
    rfl
  case case4 token hs | case6 token hs =>
    intro h
    cases h
    exact endScalar_newline (if_pos hs)
  case case5 | case7 | case10 | case11 => nofun
  case case8 literal =>
    intro h
    cases h
    cases literal with
    | true => rfl
    | false => rfl
  case case9 literal seen hs =>
    intro h
    cases h
    rw [stepMode, stepMulti, if_neg (newline_ne_quote literal), if_pos hs]
    rfl

/-- The start of a line that belongs to a value which is still open. -/
inductive Inside : Mode → Prop where
  | item (stack : List Container) : Inside (.arrayItem stack)
  | after (c : Container) (stack : List Container) : Inside (.afterValue (c :: stack))
  | multi (literal : Bool) (stack : List Container) : Inside (.multi literal stack 0)

theorem stepAfterValue_inside (hs : stack ≠ [])
    (h : stepAfterValue stack '\n' = some (mode', out)) : Inside mode' := by
  cases stack with
  | nil => exact (hs rfl).elim
  | cons c outer =>
    cases c with
    | array =>
      cases h
      exact .after _ _
    | inline => cases h

theorem endScalar_inside (h : endScalar stack token '\n' = some (mode', out))
    (hf : stack = [] → (if isScalar token then some [Event.scalar token] else none) = none) :
    Inside mode' := by
  rw [endScalar] at h
  split_ifs at h with ht
  obtain ⟨r, hr, he⟩ := Option.map_eq_some_iff.1 h
  cases he
  apply stepAfterValue_inside _ hr
  intro hs
  have hnone := hf hs
  rw [if_pos ht] at hnone
  cases hnone

theorem stepMulti_inside {literal : Bool} {seen : Nat}
    (h : stepMulti literal stack seen '\n' = some (mode', out)) (hf : 3 ≤ seen → stack ≠ []) :
    Inside mode' := by
  rw [stepMulti, if_neg (newline_ne_quote literal)] at h
  split_ifs at h with hseen hescape
  · exact stepAfterValue_inside (hf hseen) h
  · rw [Bool.and_eq_true] at hescape
    cases hescape.2
  · cases h
    exact .multi _ _

/-- A line that ends where the text may not end has left a value open. -/
theorem stepMode_inside (h : stepMode mode '\n' = some (mode', out))
    (hf : finishMode mode = none) : Inside mode' := by
  cases mode with
  | line => cases hf
  | bracket => cases h
  | keyStart => cases h
  | keyBare use =>
    cases use with
    | table => cases h
    | arrayTable => cases h
    | value => cases h
  | keyBasic => cases h
  | keyEscape => cases h
  | keyHex => cases h
  | keyLiteral => cases h
  | keyEnd use =>
    cases use with
    | table => cases h
    | arrayTable => cases h
    | value => cases h
  | closeBracket => cases h
  | value => cases h
  | arrayItem =>
    cases h
    exact .item _
  | inlineStart => cases h
  | scalar stack token =>
    apply endScalar_inside h
    rintro rfl
    exact hf
  | dateBlank stack token =>
    apply endScalar_inside h
    rintro rfl
    exact hf
  | quote literal =>
    cases literal with
    | true => cases h
    | false => cases h
  | quotes literal stack =>
    have hs : stack ≠ [] := by
      rintro rfl
      cases hf
    cases literal with
    | true => exact stepAfterValue_inside hs h
    | false => exact stepAfterValue_inside hs h
  | string literal =>
    cases literal with
    | true => cases h
    | false => cases h
  | multi literal stack seen =>
    apply stepMulti_inside h
    rintro hseen rfl
    rw [finishMode, if_pos hseen] at hf
    cases hf
  | escape multi =>
    cases multi with
    | true =>
      cases h
      exact .multi _ _
    | false => cases h
  | hex => cases h
  | lineEscape =>
    cases h
    exact .multi _ _
  | afterValue stack =>
    cases stack with
    | nil => cases hf
    | cons => exact stepAfterValue_inside (List.cons_ne_nil _ _) h
  | comment stack item =>
    cases stack with
    | nil => cases hf
    | cons =>
      cases item with
      | true =>
        cases h
        exact .item _
      | false =>
        cases h
        exact .after _ _

/-- The lexer takes a return and waits for the rest of the line end, or goes on in its mode. -/
theorem lexer_step_cases (h : lexer.step s c = some (s', out)) :
    c = '\r' ∧ s'.cr = true ∨
      c ≠ '\r' ∧ s'.cr = false ∧ stepMode s.mode c = some (s'.mode, out) := by
  simp only [lexer] at h
  split_ifs at h with hcr hnewline hreturn
  · obtain ⟨r, hr, he⟩ := Option.map_eq_some_iff.1 h
    cases he
    exact .inr ⟨hnewline ▸ by decide, rfl, hr⟩
  · cases h
    exact .inl ⟨hreturn, rfl⟩
  · obtain ⟨r, hr, he⟩ := Option.map_eq_some_iff.1 h
    cases he
    exact .inr ⟨hreturn, rfl, hr⟩

theorem lexer_newline (h : lexer.finish s = some out) :
    lexer.step s '\n' = some (.start, out) := by
  cases s with
  | mk mode cr =>
    cases cr with
    | true => cases h
    | false =>
      have hstep : stepMode mode '\n' = some (.line, out) := stepMode_newline h
      change (stepMode mode '\n').map _ = _
      rw [hstep]
      rfl

/-- A line may be followed by any other text that follows the grammar. -/
theorem events_append (h : events text = some out) :
    events (text ++ '\n' :: blk) = some out' ↔
      ∃ rest, events blk = some rest ∧ out' = out ++ rest :=
  Transducer.output_append_sep (fun _ _ => lexer_newline) h

theorem lexer_run_cr (h : lexer.run s text = some (s', out)) (hcr : s'.cr = true) :
    text = [] ∧ s.cr = true ∨ text.getLast? = some '\r' := by
  induction text generalizing s out with
  | nil =>
    cases h
    exact .inl ⟨rfl, hcr⟩
  | cons c cs ih =>
    obtain ⟨s₁, out₁, out₂, hs, hr, _⟩ := Transducer.run_cons.1 h
    right
    rcases ih hr with ⟨rfl, hcr₁⟩ | hlast
    · rcases lexer_step_cases hs with ⟨rfl, _⟩ | ⟨_, hcr', _⟩
      · rfl
      · exact (Bool.false_ne_true (hcr'.symm.trans hcr₁)).elim
    · rw [List.getLast?_cons, hlast]
      rfl

theorem events_last (h : events text = some out) : text.getLast? ≠ some '\r' := by
  intro hlast
  obtain ⟨cs, rfl⟩ := List.getLast?_eq_some_iff.1 hlast
  obtain ⟨t, out₁, out₂, hr, hf, _⟩ := Transducer.output_eq_some.1 h
  obtain ⟨s, o₁, o₂, _, hstep, _⟩ := Transducer.run_append.1 hr
  obtain ⟨s', o₃, o₄, hs, hnil, _⟩ := Transducer.run_cons.1 hstep
  cases hnil
  rcases lexer_step_cases hs with ⟨_, hcr⟩ | ⟨hne, _⟩
  · simp only [lexer, if_pos hcr] at hf
    cases hf
  · exact hne rfl

/-- A text that cannot go on with any value has to start on a line of its own. -/
theorem events_of_append (h : events (text ++ '\n' :: blk) = some out)
    (hlast : text.getLast? ≠ some '\r')
    (hblk : ∀ mode, Inside mode → lexer.output ⟨mode, false⟩ blk = none) :
    ∃ out, events text = some out := by
  obtain ⟨t, out₁, out₂, hr, hf, _⟩ := Transducer.output_eq_some.1 h
  obtain ⟨s, o₁, o₂, htext, hrest, _⟩ := Transducer.run_append.1 hr
  obtain ⟨s', o₃, o₄, hs, hrun, _⟩ := Transducer.run_cons.1 hrest
  have hcr : s.cr = false := by
    rw [← Bool.not_eq_true]
    intro hcr
    rcases lexer_run_cr htext hcr with ⟨_, hstart⟩ | h'
    · cases hstart
    · exact hlast h'
  have hfinish : lexer.finish s = finishMode s.mode := if_neg (Bool.eq_false_iff.1 hcr)
  cases hfin : finishMode s.mode with
  | some o => exact ⟨_, Transducer.output_eq_some.2 ⟨_, _, o, htext, hfinish.trans hfin, rfl⟩⟩
  | none =>
    rcases lexer_step_cases hs with ⟨hne, _⟩ | ⟨_, hcr', hmode⟩
    · exact absurd hne (by decide)
    · have hinside := hblk s'.mode (stepMode_inside hmode hfin)
      rw [← hcr', Transducer.output_eq_some.2 ⟨_, _, _, hrun, hf, rfl⟩] at hinside
      cases hinside

end Toml
