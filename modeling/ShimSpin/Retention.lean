import ShimSpin.InMemory

namespace ShimSpin
set_option autoImplicit true

def selected (E : Env) : List String :=
  ((E.var spinComponentsToRetainEnv).map retainList).getD []

/-- Spin agrees to cut an app down to the listed components. -/
structure Retainable (spinApp : SpinApp) (app : LockedApp) (ids : List String) : Prop where
  known : ∀ id ∈ ids, app.HasComponent id
  valid : spinApp.validateServiceChainingForComponents app ids = .ok ()

/-- Without a selection an app is left whole, and with one it is cut down to the selection,
unless that names no component or is not valid. -/
structure DeploysSelection (spinApp : SpinApp) (app : LockedApp) (E : Env) : Prop where
  whole : selected E = [] → retainFromEnv spinApp app E = .ok app
  selection : selected E ≠ [] →
    retainFromEnv spinApp app E = .ok (app.retained (selected E)) ∨
      (∃ e, retainFromEnv spinApp app E = .error (.error e)) ∧
        ((∃ id ∈ selected E, ¬ app.HasComponent id) ∨
          spinApp.validateServiceChainingForComponents app (selected E) ≠ .ok ())

/-- The environment does not ask for an empty selection, or the app has nothing to lose by
it. -/
def SelectsSomething (spinApp : SpinApp) (app : LockedApp) (E : Env) : Prop :=
  E.var spinComponentsToRetainEnv = none ∨ selected E ≠ [] ∨
    app.components = [] ∧ app.triggers = [] ∧
      spinApp.validateServiceChainingForComponents app [] = .ok ()

variable {spinApp : SpinApp} {app app' : LockedApp} {E E' : Env} {ids ids' : List String}
  {value : String}

theorem retained_congr (h : ∀ id, id ∈ ids ↔ id ∈ ids') : app.retained ids = app.retained ids' := by
  simp only [LockedApp.retained, h]

theorem Retainable.congr (hr : Retainable spinApp app ids) (h : ∀ id, id ∈ ids ↔ id ∈ ids') :
    Retainable spinApp app ids' :=
  ⟨fun id hm => hr.known id ((h id).2 hm), spinApp.validate_congr h hr.valid⟩

theorem retained_nil_eq_self : app.retained [] = app ↔ app.components = [] ∧ app.triggers = [] := by
  have hnone (t : LockedTrigger) : t.component.any (fun _ => false) = false := by
    cases t.component <;> rfl
  have hcut : app.retained [] = { app with triggers := [], components := [] } := by
    simp only [LockedApp.retained, List.not_mem_nil, decide_false, hnone, Bool.false_and,
      List.filter_false]
  rw [hcut]
  cases app
  simp only [LockedApp.mk.injEq, true_and, eq_comm, and_comm]

theorem retainFromEnv_absent (h : E.var spinComponentsToRetainEnv = none) :
    retainFromEnv spinApp app E = .ok app := by
  simp only [retainFromEnv, h]
  rfl

/-- A selection is carried out exactly when Spin agrees to it. -/
theorem retainFromEnv_present (h : E.var spinComponentsToRetainEnv = some value) :
    retainFromEnv spinApp app E = .ok app' ↔
      Retainable spinApp app (retainList value) ∧ app' = app.retained (retainList value) := by
  simp only [retainFromEnv, h, context_eq_ok, ofResult_eq_ok]
  apply Iff.intro
  · intro hok
    obtain ⟨he, hknown, hvalid⟩ := spinApp.retain_ok hok
    exact ⟨⟨hknown, hvalid _ List.mem_cons_self⟩, he⟩
  · intro h
    obtain ⟨hr, he⟩ := h
    have hvalid : ∀ v ∈ [spinApp.validateServiceChainingForComponents],
        v app (retainList value) = .ok () := by
      intro v hv
      rw [List.mem_singleton.1 hv]
      exact hr.valid
    obtain ⟨app₁, hok⟩ := spinApp.retain_total hr.known hvalid
    rw [hok, he, (spinApp.retain_ok hok).1]

theorem retainFromEnv_not_panics : ¬ (retainFromEnv spinApp app E).Panics := by
  rw [retainFromEnv]
  cases E.var spinComponentsToRetainEnv with
  | none => exact pure_not_panics app
  | some value =>
    rw [context_panics]
    exact ofResult_not_panics _

theorem retainFromEnv_appVariables (h : retainFromEnv spinApp app E = .ok app') :
    app'.appVariables = app.appVariables := by
  cases hv : E.var spinComponentsToRetainEnv with
  | none =>
    rw [retainFromEnv_absent hv] at h
    cases h
    rfl
  | some value =>
    rw [((retainFromEnv_present hv).1 h).2]
    rfl

theorem selected_absent (h : E.var spinComponentsToRetainEnv = none) : selected E = [] := by
  rw [selected, h]
  rfl

theorem selected_present (h : E.var spinComponentsToRetainEnv = some value) :
    selected E = retainList value := by
  rw [selected, h]
  rfl

theorem retainFromEnv_selected (hs : selected E ≠ []) : retainFromEnv spinApp app E = .ok app' ↔
    Retainable spinApp app (selected E) ∧ app' = app.retained (selected E) := by
  cases hv : E.var spinComponentsToRetainEnv with
  | none => exact (hs (selected_absent hv)).elim
  | some value =>
    rw [selected_present hv]
    exact retainFromEnv_present hv

theorem not_retainable (h : ¬ Retainable spinApp app ids) :
    (∃ id ∈ ids, ¬ app.HasComponent id) ∨
      spinApp.validateServiceChainingForComponents app ids ≠ .ok () := by
  by_cases hknown : ∀ id ∈ ids, app.HasComponent id
  · apply Or.inr
    intro hvalid
    exact h ⟨hknown, hvalid⟩
  · simp only [not_forall] at hknown
    obtain ⟨id, hm, hu⟩ := hknown
    exact .inl ⟨id, hm, hu⟩

/-- Selecting nothing leaves an app whole only when nothing was asked for or nothing is lost. -/
theorem retainFromEnv_whole (hs : selected E = []) :
    retainFromEnv spinApp app E = .ok app ↔ SelectsSomething spinApp app E := by
  cases hv : E.var spinComponentsToRetainEnv with
  | none => exact iff_of_true (retainFromEnv_absent hv) (.inl hv)
  | some value =>
    rw [retainFromEnv_present hv, ← selected_present hv, hs, eq_comm, retained_nil_eq_self]
    apply Iff.intro
    · intro ⟨hr, hc, ht⟩
      exact .inr (.inr ⟨hc, ht, hr.valid⟩)
    · intro hcond
      rcases hcond with hn | hne | ⟨hc, ht, hvalid⟩
      · rw [hv] at hn
        cases hn
      · exact (hne hs).elim
      · exact ⟨⟨nofun, hvalid⟩, hc, ht⟩

theorem deploysSelection_iff :
    DeploysSelection spinApp app E ↔ SelectsSomething spinApp app E := by
  by_cases hs : selected E = []
  · apply Iff.intro
    · intro h
      exact (retainFromEnv_whole hs).1 (h.whole hs)
    · intro h
      exact ⟨fun _ => (retainFromEnv_whole hs).2 h, fun hne => (hne hs).elim⟩
  · apply iff_of_true _ (.inr (.inl hs))
    apply DeploysSelection.mk (fun he => (hs he).elim)
    intro _
    by_cases hr : Retainable spinApp app (selected E)
    · exact .inl ((retainFromEnv_selected hs).2 ⟨hr, rfl⟩)
    · apply Or.inr
      apply And.intro _ (not_retainable hr)
      apply exists_error _ retainFromEnv_not_panics
      intro app' happ
      exact hr ((retainFromEnv_selected hs).1 happ).1

theorem toOption_congr {x y : Outcome α} (h : ∀ a, x = .ok a ↔ y = .ok a) :
    x.toOption = y.toOption := by
  cases x with
  | ok a => rw [(h a).1 rfl]
  | error e =>
    cases y with
    | ok a => cases (h a).2 rfl
    | error e' => rfl

theorem DeploysSelection.congr (h : DeploysSelection spinApp app E)
    (h' : DeploysSelection spinApp app E') (hs : ∀ id, id ∈ selected E ↔ id ∈ selected E') :
    (retainFromEnv spinApp app E).toOption = (retainFromEnv spinApp app E').toOption := by
  by_cases hn : selected E = []
  · have hn' : selected E' = [] := by
      apply List.eq_nil_iff_forall_not_mem.2
      intro id hm
      rw [← hs, hn] at hm
      cases hm
    rw [h.whole hn, h'.whole hn']
  · have hn' : selected E' ≠ [] := by
      obtain ⟨id, hm⟩ := List.exists_mem_of_ne_nil _ hn
      exact List.ne_nil_of_mem ((hs id).1 hm)
    apply toOption_congr
    intro app'
    have hr : Retainable spinApp app (selected E) ↔ Retainable spinApp app (selected E') :=
      ⟨fun hr => hr.congr hs, fun hr => hr.congr fun id => (hs id).symm⟩
    rw [retainFromEnv_selected hn, retainFromEnv_selected hn', hr, retained_congr hs]

/-- Any two settings of the variable deploy what they select, and the same for one selection,
exactly when both select something or have nothing to select from. -/
theorem selective_deployment_iff (spinApp : SpinApp) (app : LockedApp) (E E' : Env) :
    (DeploysSelection spinApp app E ∧ DeploysSelection spinApp app E' ∧
      ((∀ id, id ∈ selected E ↔ id ∈ selected E') →
        (retainFromEnv spinApp app E).toOption = (retainFromEnv spinApp app E').toOption)) ↔
      SelectsSomething spinApp app E ∧ SelectsSomething spinApp app E' := by
  rw [← deploysSelection_iff, ← deploysSelection_iff]
  apply Iff.intro
  · intro ⟨h, h', _⟩
    exact ⟨h, h'⟩
  · intro ⟨h, h'⟩
    exact ⟨h, h', h.congr h'⟩

def helloApp : LockedApp :=
  ⟨.empty, .empty, [⟨"trigger--hello", "http", some "hello", "/..."⟩],
    [⟨"hello", ⟨none, none, some "sha256:w"⟩, .empty, []⟩]⟩

def emptySelection : Env :=
  Env.empty.set spinComponentsToRetainEnv "" (by decide) (by decide)

theorem empty_selection_deploys_nothing : selected emptySelection = [] ∧
    retainFromEnv .inMemory helloApp emptySelection = .ok (helloApp.retained []) ∧
    ¬ DeploysSelection .inMemory helloApp emptySelection := by
  have hempty : selected emptySelection = [] := by decide
  have hcut : retainFromEnv .inMemory helloApp emptySelection = .ok (helloApp.retained []) := rfl
  apply And.intro hempty
  apply And.intro hcut
  intro h
  have hwhole := h.whole hempty
  rw [hcut, Except.ok.injEq, retained_nil_eq_self] at hwhole
  cases hwhole.1

end ShimSpin
