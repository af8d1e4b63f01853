import ShimSpin.Resolve
import ShimSpin.Retention
import ShimSpin.Variables

namespace ShimSpin
set_option autoImplicit true

variable {Addr : Type} {host : TriggerHost Addr} {H : Host Addr} {ctx : RuntimeContext}
  {app : App} {locked : LockedApp} {aot : Bool} {w w₁ : World} {src : Source}
  {type : String} {types : List String} {triggerTypes : Finset String}
  {maps maps' : List String} {futures futures' : List TriggerFuture}

theorem parseAddr_not_panics (toSocketAddrs : String → Except Error (List Addr)) (addr : String) :
    ¬ (parseAddr toSocketAddrs addr).Panics := by
  rw [parseAddr, bind_panics]
  intro h
  rcases h with h | ⟨addrs, _, h⟩
  · exact ofResult_not_panics _ h
  · cases addrs with
    | nil => exact bail_not_panics _ h
    | cons a rest => exact pure_not_panics a h

theorem runTriggerType_not_panics (cliArgs : CliArgs Addr) :
    ¬ (runTriggerType host type cliArgs app aot w).Panics := by
  rw [runTriggerType, bind_panics]
  intro h
  rcases h with h | ⟨u, _, h⟩
  · exact ofResult_not_panics _ h
  · exact ofResult_not_panics _ h

theorem setUpTrigger_not_panics (h : type ∈ supportedTriggers) :
    ¬ (setUpTrigger host ctx app aot w type).Panics := by
  simp only [supportedTriggers, List.mem_cons, List.not_mem_nil, or_false] at h
  rw [setUpTrigger]
  split_ifs with hhttp hredis hsqs hcommand hmqtt
  · rw [bind_panics]
    intro hp
    rcases hp with hp | ⟨address, _, hp⟩
    · exact parseAddr_not_panics _ _ hp
    · exact runTriggerType_not_panics _ hp
  · exact runTriggerType_not_panics _
  · exact runTriggerType_not_panics _
  · exact runTriggerType_not_panics _
  · exact runTriggerType_not_panics _
  · rcases h with h | h | h | h | h
    · exact (hhttp h).elim
    · exact (hredis h).elim
    · exact (hsqs h).elim
    · exact (hcommand h).elim
    · exact (hmqtt h).elim

theorem setUpTriggers_not_panics (h : ∀ type ∈ types, type ∈ supportedTriggers) :
    ¬ (setUpTriggers host ctx app aot w types (maps, futures)).Panics := by
  induction types generalizing maps futures with
  | nil => exact pure_not_panics _
  | cons type types ih =>
    rw [List.forall_mem_cons] at h
    rw [setUpTriggers, bind_panics]
    intro hp
    rcases hp with hp | ⟨f, _, hp⟩
    · exact setUpTrigger_not_panics h.1 hp
    · exact ih h.2 hp

/-- The loop sets every type up, and both lists grow by one entry for each. -/
theorem setUpTriggers_eq_ok :
    setUpTriggers host ctx app aot w types (maps, futures) = .ok (maps', futures') ↔
      ∃ fs, List.Forall₂ (fun type f => setUpTrigger host ctx app aot w type = .ok f) types fs ∧
        maps' = maps ++ types ∧ futures' = futures ++ fs := by
  induction types generalizing maps futures with
  | nil =>
    simp only [setUpTriggers, pure, Except.pure, Except.ok.injEq, Prod.mk.injEq,
      List.forall₂_nil_left_iff, exists_eq_left, List.append_nil]
    exact and_congr eq_comm eq_comm
  | cons type types ih =>
    rw [setUpTriggers, bind_eq_ok]
    apply Iff.intro
    · intro ⟨f, hf, h⟩
      obtain ⟨fs, hfs, rfl, rfl⟩ := ih.1 h
      exact ⟨f :: fs, .cons hf hfs, List.append_assoc _ _ _, List.append_assoc _ _ _⟩
    · intro ⟨fs, hfs, hmaps, hfutures⟩
      obtain ⟨f, fs, hf, hfs', rfl⟩ := List.forall₂_cons_left_iff.1 hfs
      exact ⟨f, hf, ih.2 ⟨fs, hfs', by rw [hmaps, List.append_assoc]; rfl,
        by rw [hfutures, List.append_assoc]; rfl⟩⟩

theorem awaitTriggers_nil (sched : Scheduler) : (awaitTriggers sched maps []).Panics := by
  rw [awaitTriggers, selectAll_nil]
  exact ⟨_, rfl⟩

theorem awaitTriggers_not_panics (sched : Scheduler) (hne : futures ≠ [])
    (hlen : futures.length = maps.length) : ¬ (awaitTriggers sched maps futures).Panics := by
  obtain ⟨result, hresult, hselect⟩ := selectAll_ok sched hne
  have hlt : sched.first futures < maps.length := hlen ▸ sched.first_lt hne
  simp only [awaitTriggers, hselect, ok_bind, List.getElem?_eq_getElem hlt]
  exact pure_not_panics _

/-- With supported triggers, what unwinds is waiting for none of them. -/
theorem runTrigger_panics_iff (h : ∀ type ∈ triggerTypes, type ∈ supportedTriggers) :
    (runTrigger H ctx triggerTypes locked src w).Panics ↔ triggerTypes = ∅ := by
  have hall : ∀ type ∈ H.hash.order triggerTypes, type ∈ supportedTriggers :=
    fun type hm => h type (H.hash.mem_order.1 hm)
  have hempty : H.hash.order triggerTypes = [] ↔ triggerTypes = ∅ := by
    rw [List.eq_nil_iff_forall_not_mem, Finset.eq_empty_iff_forall_notMem]
    exact forall_congr' fun type => not_congr H.hash.mem_order
  rw [runTrigger]
  apply Iff.intro
  · intro hp
    by_contra hne
    rcases bind_panics.1 hp with hp | ⟨⟨maps, futures⟩, hset, hp⟩
    · exact setUpTriggers_not_panics hall hp
    · obtain ⟨fs, hfs, hmaps, hfutures⟩ := setUpTriggers_eq_ok.1 hset
      rw [List.nil_append] at hmaps hfutures
      have hlen : futures.length = (H.hash.order triggerTypes).length := by
        rw [hfutures, hfs.length_eq]
      have hfutures : futures ≠ [] := by
        intro hf
        rw [hf, List.length_nil] at hlen
        exact hne (hempty.1 (List.eq_nil_of_length_eq_zero hlen.symm))
      rcases bind_panics.1 hp with hp | ⟨⟨type, result⟩, _, hp⟩
      · exact awaitTriggers_not_panics H.scheduler hfutures (hmaps ▸ hlen) hp
      · exact ofResult_not_panics _ hp
  · intro he
    rw [hempty.2 he]
    apply bind_panics.2
    exact .inr ⟨([], []), rfl, bind_panics.2 (.inl (awaitTriggers_nil H.scheduler))⟩

/-- What ends a run without a trigger before it would wait for one. -/
theorem execApp_panics_iff : (execApp H ctx src locked w).Panics ↔
    H.telemetryInit = .ok () ∧
      ∃ app', retainFromEnv H.spinApp locked w.env = .ok app' ∧ app'.triggers = [] := by
  rw [execApp]
  apply Iff.intro
  · intro hp
    rcases bind_panics.1 hp with hp | ⟨app', happ, hp⟩
    · exact (retainFromEnv_not_panics hp).elim
    rcases bind_panics.1 hp with hp | ⟨env, _, hp⟩
    · exact (configureVariables_not_panics hp).elim
    rcases bind_panics.1 hp with hp | ⟨types, htypes, hp⟩
    · exact (getSupportedTriggers_not_panics app' (context_panics.1 hp)).elim
    rcases bind_panics.1 hp with hp | ⟨u, htelemetry, hp⟩
    · exact (ofResult_not_panics _ hp).elim
    obtain ⟨hsupported, hnone⟩ := getSupportedTriggers_ok (context_eq_ok.1 htypes)
    have hempty := (runTrigger_panics_iff hsupported).1 hp
    exact ⟨ofResult_eq_ok.1 htelemetry, app', happ, hnone.1 hempty⟩
  · intro ⟨htelemetry, app', happ, hnone⟩
    obtain ⟨env, henv, _⟩ := configureVariables_ok app'.appVariables.keys w.env
    have htypes := getSupportedTriggers_nil hnone
    rw [happ, ok_bind, configureApplicationVariablesFromEnvironmentVariables, henv, ok_bind,
      htypes, htelemetry]
    exact (runTrigger_panics_iff fun type hm => (Finset.notMem_empty type hm).elim).2 rfl

theorem execApp_ok (h : execApp H ctx src locked w = .ok u) :
    H.telemetryInit = .ok () ∧ ∃ app', retainFromEnv H.spinApp locked w.env = .ok app' := by
  obtain ⟨app', happ, h⟩ := bind_eq_ok.1 h
  obtain ⟨env, _, h⟩ := bind_eq_ok.1 h
  obtain ⟨types, _, h⟩ := bind_eq_ok.1 h
  obtain ⟨u, htelemetry, _⟩ := bind_eq_ok.1 h
  exact ⟨ofResult_eq_ok.1 htelemetry, app', happ⟩

/-- There is a trigger to wait for that the environment does not rule out, or something else
ends the run. -/
def AwaitsTrigger (H : Host Addr) (app : LockedApp) (E : Env) : Prop :=
  H.telemetryInit = .ok () →
    match E.var spinComponentsToRetainEnv with
    | none => app.triggers ≠ []
    | some value => Retainable H.spinApp app (retainList value) →
        ∃ t ∈ app.triggers, ∃ c ∈ retainList value, t.component = some c

theorem retained_triggers_nil {ids : List String} : (locked.retained ids).triggers = [] ↔
    ¬ ∃ t ∈ locked.triggers, ∃ c ∈ ids, t.component = some c := by
  simp only [LockedApp.retained, List.filter_eq_nil_iff, Option.any_eq_true, decide_eq_true_eq,
    not_exists, not_and]
  apply Iff.intro
  · intro h t ht c hc he
    exact h t ht c he hc
  · intro h t ht c he hc
    exact h t ht c hc he

theorem execApp_not_panics_iff :
    ¬ (execApp H ctx src locked w).Panics ↔ AwaitsTrigger H locked w.env := by
  rw [execApp_panics_iff, AwaitsTrigger, not_and]
  apply imp_congr_right
  intro _
  cases hv : w.env.var spinComponentsToRetainEnv with
  | none =>
    simp only [retainFromEnv_absent hv, Except.ok.injEq, exists_eq_left', ne_eq]
  | some value =>
    have hnot : (¬ ∃ app', retainFromEnv H.spinApp locked w.env = .ok app' ∧ app'.triggers = []) ↔
        (Retainable H.spinApp locked (retainList value) →
          ¬ (locked.retained (retainList value)).triggers = []) := by
      apply Iff.intro
      · intro h hr hn
        exact h ⟨_, (retainFromEnv_present hv).2 ⟨hr, rfl⟩, hn⟩
      · intro h ⟨app', happ, hn⟩
        obtain ⟨hr, he⟩ := (retainFromEnv_present hv).1 happ
        exact h hr (he ▸ hn)
    rw [hnot, retained_triggers_nil, not_not]

theorem loadApp_retain (h : loadApp H.platform ctx w = .ok (src, locked, w₁)) :
    w₁.env.var spinComponentsToRetainEnv = w.env.var spinComponentsToRetainEnv := by
  have htmp : OsString.utf8 spinComponentsToRetainEnv ≠ tmpdir := by decide
  have hxdg : OsString.utf8 spinComponentsToRetainEnv ≠ xdgCacheHome := by decide
  apply Env.var_congr
  rw [loadApp_env h, if_neg (fun hn => htmp hn.1), if_neg hxdg]

/-- A run ends, and ends in an error when its app leaves no trigger, exactly when it finds a
trigger to wait for or is ended by something else. -/
theorem wasmExecAsync_not_panics_iff (H : Host Addr) (ctx : RuntimeContext) (w : World) :
    (¬ (wasmExecAsync H ctx w).Panics ∧
      ∀ src app w₁, loadApp H.platform ctx w = .ok (src, app, w₁) →
        (∀ app', retainFromEnv H.spinApp app w₁.env = .ok app' → app'.triggers = []) →
        ∃ e, wasmExecAsync H ctx w = .error (.error e)) ↔
      ∀ src app w₁, loadApp H.platform ctx w = .ok (src, app, w₁) →
        AwaitsTrigger H app w.env := by
  have hexec {src : Source} {app : LockedApp} {w₁ : World}
      (h : loadApp H.platform ctx w = .ok (src, app, w₁)) :
      wasmExecAsync H ctx w = execApp H ctx src app w₁ := by
    rw [wasmExecAsync, h, ok_bind]
  have hawaits {src : Source} {app : LockedApp} {w₁ : World}
      (h : loadApp H.platform ctx w = .ok (src, app, w₁)) :
      AwaitsTrigger H app w₁.env ↔ AwaitsTrigger H app w.env := by
    rw [AwaitsTrigger, AwaitsTrigger, loadApp_retain h]
  apply Iff.intro
  · intro ⟨hp, _⟩ src app w₁ h
    rw [hexec h] at hp
    exact (hawaits h).1 (execApp_not_panics_iff.1 hp)
  · intro hcond
    have hp : ¬ (wasmExecAsync H ctx w).Panics := by
      rw [wasmExecAsync, bind_panics]
      intro hp
      rcases hp with hp | ⟨⟨src, app, w₁⟩, h, hp⟩
      · exact loadApp_not_panics ctx hp
      · exact execApp_not_panics_iff.2 ((hawaits h).2 (hcond src app w₁ h)) hp
    apply And.intro hp
    intro src app w₁ h hnone
    apply exists_error _ hp
    intro u hok
    rw [hexec h] at hok hp
    obtain ⟨htelemetry, app', happ⟩ := execApp_ok hok
    exact hp (execApp_panics_iff.2 ⟨htelemetry, app', happ, hnone app' happ⟩)

/-- An entry of the container's environment that the system can hold. -/
def Settable (v : String) : Prop :=
  ValidName (splitEnv v).1 ∧ (OsString.utf8 (splitEnv v).2).NulFree

theorem setVar_panics_iff {E : Env} {name : String} {value : OsString} :
    (setVar E name value).Panics ↔ ¬ (ValidName name ∧ value.NulFree) := by
  rw [setVar]
  split_ifs with h
  · exact iff_of_false (pure_not_panics _) (fun hn => hn h)
  · exact iff_of_true ⟨_, rfl⟩ h

theorem importEnvs_panics_iff {envs : List String} {E : Env} :
    (importEnvs envs E).Panics ↔ ∃ v ∈ envs, ¬ Settable v := by
  induction envs generalizing E with
  | nil => exact iff_of_false (pure_not_panics E) (fun ⟨_, hv, _⟩ => List.not_mem_nil hv)
  | cons v envs ih =>
    rw [importEnvs, List.foldlM_cons, bind_panics, setVar_panics_iff, List.exists_mem_cons_iff]
    apply Iff.intro
    · intro hp
      rcases hp with hp | ⟨E₁, _, hp⟩
      · exact .inl hp
      · exact .inr (ih.1 hp)
    · intro hv
      by_cases hs : Settable v
      · have hv : ∃ v ∈ envs, ¬ Settable v := hv.resolve_left fun hn => hn hs
        exact .inr ⟨_, setVar_ok hs.1 hs.2, ih.2 hv⟩
      · exact .inl hs

/-- A whole run unwinds on an entry that cannot be set, or in its app when no signal stops it. -/
theorem runWasi_panics_iff {aborted : Bool} : (runWasi H ctx aborted w).Panics ↔
    (∃ v ∈ ctx.envs, ¬ Settable v) ∨
      ∃ env, importEnvs ctx.envs w.env = .ok env ∧ H.setHandler = .ok () ∧ aborted = false ∧
        (wasmExecAsync H ctx { w with env }).Panics := by
  rw [runWasi, bind_panics, importEnvs_panics_iff]
  apply or_congr_right
  apply exists_congr
  intro env
  apply and_congr_right
  intro _
  rw [bind_panics]
  apply Iff.intro
  · intro hp
    rcases hp with hp | ⟨u, hset, hp⟩
    · exact (ofResult_not_panics _ hp).elim
    cases aborted with
    | true => exact (pure_not_panics _ hp).elim
    | false =>
      rcases bind_panics.1 hp with hp | ⟨u, _, hp⟩
      · exact ⟨ofResult_eq_ok.1 hset, rfl, hp⟩
      · exact (pure_not_panics _ hp).elim
  · intro h
    obtain ⟨hset, rfl, hp⟩ := h
    exact .inr ⟨(), ofResult_eq_ok.2 hset, bind_panics.2 (.inl hp)⟩

def bareJson : Bytes :=
  "\x7b\"spin_lock_version\": 1, \"triggers\": [], \"components\": []\x7d".toUTF8.data.toList

def triggerlessImage : List WasmLayer :=
  [layerOf SpinOci.inMemory.spinApplicationMediaType bareJson "sha256:app"]

/-- An app without triggers unwinds. -/
theorem triggerless_panics :
    (wasmExecAsync (.inMemory .bare) (imageCtx triggerlessImage) (.bare .empty)).Panics := by
  have hload : ∃ w₁, loadApp (.inMemory .bare) (imageCtx triggerlessImage) (.bare .empty) =
      .ok (.ociSpin, .bare, w₁) ∧ w₁.env.var spinComponentsToRetainEnv = none :=
    ⟨_, rfl, by decide⟩
  obtain ⟨w₁, hload, hv⟩ := hload
  change loadApp (Host.inMemory .bare).platform _ _ = _ at hload
  rw [wasmExecAsync, hload, ok_bind, execApp_panics_iff]
  exact ⟨rfl, .bare, retainFromEnv_absent hv, rfl⟩

end ShimSpin
