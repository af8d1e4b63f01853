import Mathlib.Init

namespace ErrExit
set_option autoImplicit true

/-- A shell script under `set -e`. Its commands may fail, and its tests and assignments do
not. -/
inductive Script (ι σ : Type) where
  | done
  | exit
  | cmd (name : ι) (effect : σ → σ)
  | set (effect : σ → σ)
  | seq (first rest : Script ι σ)
  | ite (test : σ → Bool) (yes no : Script ι σ)

/-- The state that a script leaves and whether it came to its end. A command that fails stops
it before its effect. -/
def run (fails : ι → Bool) : Script ι σ → σ → σ × Bool
  | .done, s => (s, true)
  | .exit, s => (s, false)
  | .cmd name effect, s => if fails name then (s, false) else (effect s, true)
  | .set effect, s => (effect s, true)
  | .seq first rest, s =>
    match run fails first s with
    | (s, true) => run fails rest s
    | (s, false) => (s, false)
  | .ite test yes no, s => if test s then run fails yes s else run fails no s

/-- From a state with `P`, a script that comes to its end leaves `Q`, and one that is stopped
leaves `R`. -/
def Triple (fails : ι → Bool) (P : σ → Prop) (c : Script ι σ) (Q R : σ → Prop) : Prop :=
  ∀ s, P s → ((run fails c s).2 = true → Q (run fails c s).1) ∧
    ((run fails c s).2 = false → R (run fails c s).1)

/-- A script that stops only at a command that fails. -/
def Script.NoExit : Script ι σ → Prop
  | .done => True
  | .exit => False
  | .cmd _ _ => True
  | .set _ => True
  | .seq first rest => first.NoExit ∧ rest.NoExit
  | .ite _ yes no => yes.NoExit ∧ no.NoExit

/-- A script on a part of the state, in which commands have other names. `put` says what becomes
of the state when the command of a name, or an assignment, has changed the part. -/
def Script.within {κ τ : Type} (name : ι → κ) (get : τ → σ) (put : Option ι → σ → τ → τ) :
    Script ι σ → Script κ τ
  | .done => .done
  | .exit => .exit
  | .cmd i effect => .cmd (name i) fun t => put (some i) (effect (get t)) t
  | .set effect => .set fun t => put none (effect (get t)) t
  | .seq first rest => .seq (first.within name get put) (rest.within name get put)
  | .ite test yes no => .ite (fun t => test (get t)) (yes.within name get put)
    (no.within name get put)

variable {ι σ : Type} {fails : ι → Bool} {P M Q Q' R R' : σ → Prop} {c c₁ c₂ : Script ι σ}
  {s : σ} {name : ι} {effect : σ → σ} {test : σ → Bool}

theorem Triple.done (h : ∀ s, P s → Q s) : Triple fails P .done Q R :=
  fun s hs => ⟨fun _ => h s hs, nofun⟩

theorem Triple.cmd (hfail : ∀ s, P s → fails name = true → R s)
    (hok : ∀ s, P s → fails name = false → Q (effect s)) :
    Triple fails P (.cmd name effect) Q R := by
  intro s hs
  cases hf : fails name with
  | true =>
    simp only [run, hf, ↓reduceIte]
    exact ⟨nofun, fun _ => hfail s hs hf⟩
  | false =>
    simp only [run, hf, Bool.false_eq_true, ↓reduceIte]
    exact ⟨fun _ => hok s hs hf, nofun⟩

theorem Triple.seq (h₁ : Triple fails P c₁ M R) (h₂ : Triple fails M c₂ Q R) :
    Triple fails P (.seq c₁ c₂) Q R := by
  intro s hs
  have h := h₁ s hs
  rw [run]
  cases hr : run fails c₁ s with
  | mk s' ok =>
    rw [hr] at h
    cases ok with
    | true => exact h₂ s' (h.1 rfl)
    | false => exact ⟨nofun, fun _ => h.2 rfl⟩

theorem Triple.ite (h₁ : Triple fails (fun s => P s ∧ test s = true) c₁ Q R)
    (h₂ : Triple fails (fun s => P s ∧ test s = false) c₂ Q R) :
    Triple fails P (.ite test c₁ c₂) Q R := by
  intro s hs
  rw [run]
  cases ht : test s with
  | true => exact h₁ s ⟨hs, ht⟩
  | false => exact h₂ s ⟨hs, ht⟩

theorem Triple.conseq (h : Triple fails P c Q R) (hQ : ∀ s, Q s → Q' s)
    (hR : ∀ s, R s → R' s) : Triple fails P c Q' R' :=
  fun s hs => ⟨fun hok => hQ _ ((h s hs).1 hok), fun hf => hR _ ((h s hs).2 hf)⟩

theorem Triple.pure {φ : Prop} (h : φ → Triple fails (· = s) c Q R) :
    Triple fails (fun t => φ ∧ t = s) c Q R :=
  fun t ht => h ht.1 t ht.2

/-- From a known state the test of a branch is decided. -/
theorem Triple.ite_from (h₁ : test s = true → Triple fails (· = s) c₁ Q R)
    (h₂ : test s = false → Triple fails (· = s) c₂ Q R) :
    Triple fails (· = s) (.ite test c₁ c₂) Q R := by
  apply Triple.ite
  · intro t ht
    exact h₁ (ht.1 ▸ ht.2) t ht.1
  · intro t ht
    exact h₂ (ht.1 ▸ ht.2) t ht.1

theorem Triple.cmd_from (hfail : fails name = true → R s)
    (hok : fails name = false → Q (effect s)) :
    Triple fails (· = s) (.cmd name effect) Q R :=
  Triple.cmd (fun _ ht hf => ht ▸ hfail hf) (fun _ ht hf => ht ▸ hok hf)

/-- A command that does not fail leads from a known state to another. -/
theorem Triple.cmd_seq_from (hfail : fails name = true → R s)
    (hok : fails name = false → Triple fails (· = effect s) c Q R) :
    Triple fails (· = s) (.seq (.cmd name effect) c) Q R :=
  Triple.seq (Triple.cmd_from hfail fun hf => ⟨hf, rfl⟩) (Triple.pure hok)

theorem Triple.set_seq_from (h : Triple fails (· = effect s) c Q R) :
    Triple fails (· = s) (.seq (.set effect) c) Q R :=
  fun _ ht => ht ▸ h _ rfl

theorem run_seq_assoc (c₃ : Script ι σ) (s : σ) :
    run fails (.seq (.seq c₁ c₂) c₃) s = run fails (.seq c₁ (.seq c₂ c₃)) s := by
  simp only [run]
  rcases run fails c₁ s with ⟨s', ok⟩
  cases ok with
  | true => rfl
  | false => rfl

theorem run_of_noExit (hf : ∀ name, fails name = false) (h : c.NoExit) (s : σ) :
    (run fails c s).2 = true := by
  induction c generalizing s with
  | done => rfl
  | exit => exact h.elim
  | cmd name effect => rw [run, hf, if_neg Bool.false_ne_true]
  | set effect => rfl
  | seq first rest ihf ihr =>
    have hfirst := ihf h.1 s
    rw [run]
    rcases hrun : run fails first s with ⟨s', ok⟩
    rw [hrun] at hfirst
    cases hfirst
    exact ihr h.2 s'
  | ite test yes no ihy ihn =>
    rw [run]
    cases test s with
    | true => exact ihy h.1 s
    | false => exact ihn h.2 s

section Within
variable {κ τ : Type} {rename : ι → κ} {get : τ → σ} {put : Option ι → σ → τ → τ}
  {failing : κ → Bool}

/-- A script does to a part of the state what another one does to the part alone, and comes to its
end with it. -/
def Refines (failing : κ → Bool) (fails : ι → Bool) (get : τ → σ) (c' : Script κ τ)
    (c : Script ι σ) : Prop :=
  ∀ t, get (run failing c' t).1 = (run fails c (get t)).1 ∧
    (run failing c' t).2 = (run fails c (get t)).2

theorem Refines.seq {c₁' c₂' : Script κ τ} (h₁ : Refines failing fails get c₁' c₁)
    (h₂ : Refines failing fails get c₂' c₂) :
    Refines failing fails get (.seq c₁' c₂') (.seq c₁ c₂) := by
  intro t
  obtain ⟨hstate, hok⟩ := h₁ t
  rw [run, run]
  rcases hrun : run fails c₁ (get t) with ⟨s, ok⟩
  rcases hrun' : run failing c₁' t with ⟨t', ok'⟩
  rw [hrun, hrun'] at hstate hok
  subst hstate hok
  cases ok' with
  | true => exact h₂ t'
  | false => exact ⟨rfl, rfl⟩

theorem within_refines (hget : ∀ i s t, get (put i s t) = s) (c : Script ι σ) :
    Refines failing (fun i => failing (rename i)) get (c.within rename get put) c := by
  induction c with
  | done => exact fun _ => ⟨rfl, rfl⟩
  | exit => exact fun _ => ⟨rfl, rfl⟩
  | cmd i effect =>
    intro t
    rw [Script.within, run, run]
    cases failing (rename i) with
    | true => exact ⟨rfl, rfl⟩
    | false => exact ⟨hget _ _ _, rfl⟩
  | set effect => exact fun _ => ⟨hget _ _ _, rfl⟩
  | seq first rest ihf ihr => exact ihf.seq ihr
  | ite test yes no ihy ihn =>
    intro t
    rw [Script.within, run, run]
    cases test (get t) with
    | true => exact ihy t
    | false => exact ihn t

theorem run_within_keeps {F : τ → Prop} (hput : ∀ i s t, F t → F (put i s t)) (c : Script ι σ)
    {t : τ} (h : F t) : F (run failing (c.within rename get put) t).1 := by
  induction c generalizing t with
  | done => exact h
  | exit => exact h
  | cmd i effect =>
    rw [Script.within, run]
    cases failing (rename i) with
    | true => exact h
    | false => exact hput _ _ _ h
  | set effect => exact hput _ _ _ h
  | seq first rest ihf ihr =>
    have hfirst := ihf h
    rw [Script.within, run]
    rcases hrun : run failing (first.within rename get put) t with ⟨t', ok⟩
    rw [hrun] at hfirst
    cases ok with
    | true => exact ihr hfirst
    | false => exact hfirst
  | ite test yes no ihy ihn =>
    rw [Script.within, run]
    cases test (get t) with
    | true => exact ihy h
    | false => exact ihn h

theorem Triple.within {t₀ : τ} {F : τ → Prop} (hget : ∀ i s t, get (put i s t) = s)
    (h : Triple (fun i => failing (rename i)) (· = get t₀) c Q R)
    (hput : ∀ i s t, F t → F (put i s t)) (ht : F t₀) :
    Triple failing (· = t₀) (c.within rename get put) (fun t => Q (get t) ∧ F t)
      (fun t => R (get t) ∧ F t) := by
  rintro t rfl
  obtain ⟨hstate, hok⟩ : get (run failing (c.within rename get put) t).1 = _ ∧ _ :=
    within_refines hget c t
  have hF : F (run failing (c.within rename get put) t).1 := run_within_keeps hput c ht
  have hspec := h _ rfl
  rw [← hstate, ← hok] at hspec
  exact ⟨fun hs => ⟨hspec.1 hs, hF⟩, fun hs => ⟨hspec.2 hs, hF⟩⟩

end Within

end ErrExit
