import Mathlib.Data.List.Basic

/-- A machine that reads one letter after the other, writes as it goes, and may refuse. -/
structure Transducer (σ α β : Type) where
  step : σ → α → Option (σ × List β)
  finish : σ → Option (List β)

namespace Transducer
set_option autoImplicit true

def run (T : Transducer σ α β) : σ → List α → Option (σ × List β)
  | s, [] => some (s, [])
  | s, a :: as => (T.step s a).bind fun r => (T.run r.1 as).map fun r' => (r'.1, r.2 ++ r'.2)

def output (T : Transducer σ α β) (s : σ) (as : List α) : Option (List β) :=
  (T.run s as).bind fun r => (T.finish r.1).map (r.2 ++ ·)

variable {σ α β : Type} {T : Transducer σ α β} {s s' t : σ} {a : α} {as bs as' bs' : List α}
  {out out' : List β}

theorem run_cons : T.run s (a :: as) = some (t, out) ↔
    ∃ s' out₁ out₂, T.step s a = some (s', out₁) ∧ T.run s' as = some (t, out₂) ∧
      out = out₁ ++ out₂ := by
  simp only [run, Option.bind_eq_some_iff, Option.map_eq_some_iff, Prod.exists, Prod.mk.injEq]
  apply Iff.intro
  · intro ⟨s', out₁, hs, t', out₂, hr, ht, ho⟩
    exact ⟨s', out₁, out₂, hs, ht ▸ hr, ho.symm⟩
  · intro ⟨s', out₁, out₂, hs, hr, ho⟩
    exact ⟨s', out₁, hs, t, out₂, hr, rfl, ho.symm⟩

theorem run_append : T.run s (as ++ bs) = some (t, out) ↔
    ∃ s' out₁ out₂, T.run s as = some (s', out₁) ∧ T.run s' bs = some (t, out₂) ∧
      out = out₁ ++ out₂ := by
  induction as generalizing s out with
  | nil =>
    apply Iff.intro
    · intro h
      exact ⟨s, [], out, rfl, h, rfl⟩
    · intro ⟨s', out₁, out₂, h₁, h₂, ho⟩
      cases h₁
      rw [List.nil_append, ho]
      exact h₂
  | cons a as ih =>
    rw [List.cons_append, run_cons]
    apply Iff.intro
    · intro ⟨s₁, o₁, o, hs, hr, ho⟩
      obtain ⟨s₂, o₂, o₃, h₂, h₃, ho'⟩ := ih.1 hr
      exact ⟨s₂, o₁ ++ o₂, o₃, run_cons.2 ⟨s₁, o₁, o₂, hs, h₂, rfl⟩, h₃, by
        rw [ho, ho', List.append_assoc]⟩
    · intro ⟨s₂, o, o₃, hr, h₃, ho⟩
      obtain ⟨s₁, o₁, o₂, hs, h₂, ho'⟩ := run_cons.1 hr
      exact ⟨s₁, o₁, o₂ ++ o₃, hs, ih.2 ⟨s₂, o₂, o₃, h₂, h₃, rfl⟩, by
        rw [ho, ho', List.append_assoc]⟩

theorem output_eq_some : T.output s as = some out ↔
    ∃ t out₁ out₂, T.run s as = some (t, out₁) ∧ T.finish t = some out₂ ∧
      out = out₁ ++ out₂ := by
  simp only [output, Option.bind_eq_some_iff, Option.map_eq_some_iff, Prod.exists]
  apply Iff.intro
  · intro ⟨t, out₁, hr, out₂, hf, ho⟩
    exact ⟨t, out₁, out₂, hr, hf, ho.symm⟩
  · intro ⟨t, out₁, out₂, hr, hf, ho⟩
    exact ⟨t, out₁, hr, out₂, hf, ho.symm⟩

/-- When a separator takes every accepting state back to the first one and writes what the end
would have written, accepted texts can be put together with it. -/
theorem output_append_sep {sep : α} {init : σ}
    (hsep : ∀ s out, T.finish s = some out → T.step s sep = some (init, out))
    (h : T.output s as = some out) :
    T.output s (as ++ sep :: bs) = some out' ↔
      ∃ rest, T.output init bs = some rest ∧ out' = out ++ rest := by
  obtain ⟨t, out₁, out₂, hr, hf, rfl⟩ := output_eq_some.1 h
  have hstep := hsep t out₂ hf
  apply Iff.intro
  · intro h'
    obtain ⟨u, o, o₄, hrun, hu, rfl⟩ := output_eq_some.1 h'
    obtain ⟨t', o₁, o₂, h₁, h₂, rfl⟩ := run_append.1 hrun
    rw [hr] at h₁
    cases h₁
    obtain ⟨s', o₂, o₃, hs, h₃, rfl⟩ := run_cons.1 h₂
    rw [hstep] at hs
    cases hs
    exact ⟨o₃ ++ o₄, output_eq_some.2 ⟨u, o₃, o₄, h₃, hu, rfl⟩, by
      simp only [List.append_assoc]⟩
  · intro ⟨rest, hrest, ho⟩
    obtain ⟨u, o₃, o₄, h₃, hu, rfl⟩ := output_eq_some.1 hrest
    apply output_eq_some.2
    exact ⟨u, out₁ ++ (out₂ ++ o₃), o₄, run_append.2 ⟨t, out₁, _, hr,
      run_cons.2 ⟨init, out₂, o₃, hstep, h₃, rfl⟩, rfl⟩, hu, by
        rw [ho]
        simp only [List.append_assoc]⟩

theorem run_append_congr (h : T.run s as' = T.run s as)
    (h' : ∀ t out, T.run s as = some (t, out) → T.run t bs' = T.run t bs) :
    T.run s (as' ++ bs') = T.run s (as ++ bs) := by
  apply Option.ext
  intro ⟨t, out⟩
  rw [run_append, run_append, h]
  apply Iff.intro
  · intro ⟨u, o, o', hu, ho, he⟩
    exact ⟨u, o, o', hu, h' u o hu ▸ ho, he⟩
  · intro ⟨u, o, o', hu, ho, he⟩
    exact ⟨u, o, o', hu, (h' u o hu).symm ▸ ho, he⟩

/-- Parts may be exchanged one by one, when the machine does the same on each of them from every
state in which a part may start. -/
theorem run_intercalate {Q : σ → Prop} {sep : α} {f : List α → List α} {parts : List (List α)}
    (hsep : ∀ s s' out, T.step s sep = some (s', out) → Q s')
    (hf : ∀ s, Q s → ∀ part ∈ parts, T.run s (f part) = T.run s part) (hs : Q s) :
    T.run s ([sep].intercalate (parts.map f)) = T.run s ([sep].intercalate parts) := by
  induction parts generalizing s with
  | nil => rfl
  | cons part rest ih =>
    have hpart := hf s hs part List.mem_cons_self
    cases rest with
    | nil => rw [List.map_singleton, List.intercalate_singleton, List.intercalate_singleton, hpart]
    | cons next rest =>
      rw [List.map_cons, List.map_cons, List.intercalate_cons_cons, List.intercalate_cons_cons,
        List.append_assoc, List.append_assoc, ← List.map_cons]
      apply run_append_congr hpart
      intro t out _
      apply run_append_congr rfl
      intro u out' hu
      obtain ⟨u', o, o', hstep, hnil, _⟩ := run_cons.1 hu
      cases hnil
      exact ih (fun s hs part hpart => hf s hs part (List.mem_cons_of_mem _ hpart))
        (hsep t _ o hstep)

theorem output_congr (h : T.run s as' = T.run s as) : T.output s as' = T.output s as := by
  rw [output, output, h]

end Transducer
