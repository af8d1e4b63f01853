import ShimSpin.EnvImport
import ShimSpin.Settings
import ShimSpin.TriggerLaunch
import ShimSpin.Verdict

namespace ShimSpin
set_option autoImplicit true

/-- How a run ends that has got to its triggers: with the error of one that cannot be set up, or
as one of them exits. -/
inductive TriggersEnd (H : Host Addr) (ctx : RuntimeContext) (app : LockedApp) (src : Source)
    (w : World) : Outcome Unit → Prop where
  | notSetUp (ht : t ∈ app.triggers)
      (he : SetUp H.triggers ctx app src w t.triggerType (.error e)) :
      TriggersEnd H ctx app src w (.error (.error e))
  | exits (hall : ∀ t ∈ app.triggers, ∃ f, SetUp H.triggers ctx app src w t.triggerType (.ok f))
      (ht : t ∈ app.triggers) (hexit : SetUp H.triggers ctx app src w t.triggerType (.ok exit)) :
      TriggersEnd H ctx app src w (ofResult exit)

/-- The app that is left of one when the environment may select some of it. -/
inductive Deployed (spinApp : SpinApp) (app : LockedApp) (E : Env) : LockedApp → Prop where
  | whole (hv : E.var spinComponentsToRetainEnv = none) : Deployed spinApp app E app
  | selection (hv : E.var spinComponentsToRetainEnv = some value)
      (hr : Retainable spinApp app (retainList value)) :
      Deployed spinApp app E (app.retained (retainList value))

def selectionMessage (value : String) : Message :=
  .text "failed to resolve application with only [" :: debugList (retainList value) ++
    [.text ("] components retained by configured environment variable " ++
      spinComponentsToRetainEnv)]

def unsupportedMessage (type : String) : Message :=
  [.text ("Only Http, Redis, MQTT, SQS, and Command triggers are currently supported. " ++
    "Found unsupported trigger: "), .debug type]

/-- How a run ends that has loaded an app. -/
inductive AppEnds (H : Host Addr) (ctx : RuntimeContext) (src : Source) (app : LockedApp)
    (w : World) : Outcome Unit → Prop where
  | rejected (hv : w.env.var spinComponentsToRetainEnv = some value)
      (he : H.spinApp.retainComponents app (retainList value)
        [H.spinApp.validateServiceChainingForComponents] = .error e) :
      AppEnds H ctx src app w (.error (.error (selectionMessage value :: e)))
  | unsupported (hd : Deployed H.spinApp app w.env app')
      (hsplit : app'.triggers = earlier ++ t :: later)
      (hearlier : ∀ t' ∈ earlier, t'.triggerType ∈ supportedTriggers)
      (ht : t.triggerType ∉ supportedTriggers) :
      AppEnds H ctx src app w (.error (.error
        [[.text ("Couldn't find trigger executor for " ++ src.debug)],
          unsupportedMessage t.triggerType]))
  | telemetry (hd : Deployed H.spinApp app w.env app')
      (hall : ∀ t ∈ app'.triggers, t.triggerType ∈ supportedTriggers)
      (he : H.telemetryInit = .error e) : AppEnds H ctx src app w (.error (.error e))
  | idle (hd : Deployed H.spinApp app w.env app') (htelemetry : H.telemetryInit = .ok ())
      (hnone : app'.triggers = []) :
      AppEnds H ctx src app w (panicking "assertion failed: !ret.inner.is_empty()")
  | triggers (hd : Deployed H.spinApp app w.env app')
      (hall : ∀ t ∈ app'.triggers, t.triggerType ∈ supportedTriggers)
      (htelemetry : H.telemetryInit = .ok ()) (hne : app'.triggers ≠ [])
      (h : TriggersEnd H ctx app' src w r) : AppEnds H ctx src app w r

inductive RunEnds (H : Host Addr) (ctx : RuntimeContext) (w : World) : Outcome Int → Prop where
  | entry (hv : v ∈ ctx.envs) (hn : ¬ Importable v) :
      RunEnds H ctx w (panicking "failed to set environment variable")
  | handler (himport : importEnvs ctx.envs w.env = .ok E) (he : H.setHandler = .error e) :
      RunEnds H ctx w (.error (.error e))
  | stopped (himport : importEnvs ctx.envs w.env = .ok E) (hset : H.setHandler = .ok ()) :
      RunEnds H ctx w (.ok 0)
  | notLoaded {failure : Failure} (himport : importEnvs ctx.envs w.env = .ok E)
      (hset : H.setHandler = .ok ())
      (hload : loadApp H.platform ctx { w with env := E } = .error failure) :
      RunEnds H ctx w (.error failure)
  | loaded (himport : importEnvs ctx.envs w.env = .ok E) (hset : H.setHandler = .ok ())
      (hload : loadApp H.platform ctx { w with env := E } = .ok (src, app, w₁))
      (h : AppEnds H ctx src app { w₁ with env := E } r) :
      RunEnds H ctx w (do r; return 0)

variable {Addr : Type} {host : TriggerHost Addr} {H : Host Addr} {ctx : RuntimeContext}
  {app app' : LockedApp} {src : Source} {w w₁ : World} {E : Env} {spinApp : SpinApp}
  {triggerTypes : Finset String} {types : List String} {r : Outcome Unit} {failure : Failure}

theorem retainFromEnv_deployed :
    retainFromEnv spinApp app E = .ok app' ↔ Deployed spinApp app E app' := by
  cases hv : E.var spinComponentsToRetainEnv with
  | none =>
    rw [retainFromEnv_absent hv, Except.ok.injEq]
    apply Iff.intro
    · intro he
      exact he ▸ .whole hv
    · intro hd
      cases hd with
      | whole _ => rfl
      | selection hv' _ =>
        rw [hv] at hv'
        cases hv'
  | some value =>
    rw [retainFromEnv_present hv]
    apply Iff.intro
    · intro ⟨hr, he⟩
      exact he ▸ .selection hv hr
    · intro hd
      cases hd with
      | whole hv' =>
        rw [hv] at hv'
        cases hv'
      | selection hv' hr =>
        rw [hv, Option.some.injEq] at hv'
        subst hv'
        exact ⟨hr, rfl⟩

theorem retainFromEnv_rejected (hv : E.var spinComponentsToRetainEnv = some value)
    (he : spinApp.retainComponents app (retainList value)
      [spinApp.validateServiceChainingForComponents] = .error e) :
    retainFromEnv spinApp app E = .error (.error (selectionMessage value :: e)) := by
  simp only [retainFromEnv, hv, he, ofResult, Outcome.context]
  rfl

example : (selectionMessage "a,b").render (fun s => "\"" ++ s ++ "\"") =
    "failed to resolve application with only [[\"a\", \"b\"]] components retained " ++
      "by configured environment variable SPIN_COMPONENTS_TO_RETAIN" := by
  decide +kernel

theorem getSupportedTriggers_first (hsplit : app.triggers = earlier ++ t :: later)
    (hearlier : ∀ t' ∈ earlier, t'.triggerType ∈ supportedTriggers)
    (ht : t.triggerType ∉ supportedTriggers) :
    getSupportedTriggers app = bail (unsupportedMessage t.triggerType) := by
  have hall : ∀ ts : List LockedTrigger, (∀ t' ∈ ts, t'.triggerType ∈ supportedTriggers) →
      (ts ++ t :: later).mapM supportedTrigger = bail (unsupportedMessage t.triggerType) := by
    intro ts hts
    induction ts with
    | nil =>
      rw [List.nil_append, List.mapM_cons, supportedTrigger, if_neg ht]
      rfl
    | cons t' ts ih =>
      rw [List.forall_mem_cons] at hts
      rw [List.cons_append, List.mapM_cons, supportedTrigger_ok.2 ⟨rfl, hts.1⟩, ok_bind, ih hts.2]
      rfl
  rw [getSupportedTriggers, hsplit, hall earlier hearlier]
  rfl

theorem getSupportedTriggers_total (h : ∀ t ∈ app.triggers, t.triggerType ∈ supportedTriggers) :
    ∃ types, getSupportedTriggers app = .ok types := by
  have hmap : app.triggers.mapM supportedTrigger =
      .ok (app.triggers.map LockedTrigger.triggerType) := by
    rw [mapM_eq_ok, List.forall₂_map_right_iff, List.forall₂_same]
    exact fun t ht => supportedTrigger_ok.2 ⟨rfl, h t ht⟩
  rw [getSupportedTriggers, hmap]
  exact ⟨_, rfl⟩

theorem setUpTriggers_error {app : App} {aot : Bool} {lists : List String × List TriggerFuture}
    (h : setUpTriggers host ctx app aot w types lists = .error failure) :
    ∃ type ∈ types, setUpTrigger host ctx app aot w type = .error failure := by
  induction types generalizing lists with
  | nil => cases h
  | cons type types ih =>
    rw [setUpTriggers] at h
    cases hone : setUpTrigger host ctx app aot w type with
    | error f =>
      rw [hone] at h
      cases h
      exact ⟨type, List.mem_cons_self, hone⟩
    | ok f =>
      rw [hone] at h
      obtain ⟨type', hm, he⟩ := ih h
      exact ⟨type', List.mem_cons_of_mem type hm, he⟩

theorem runTrigger_idle : runTrigger H ctx ∅ app src w =
    panicking "assertion failed: !ret.inner.is_empty()" := by
  have horder : H.hash.order ∅ = [] := by
    rw [List.eq_nil_iff_forall_not_mem]
    intro type hm
    exact Finset.notMem_empty type (H.hash.mem_order.1 hm)
  simp only [runTrigger, horder, setUpTriggers]
  rfl

theorem runTrigger_ends (h : getSupportedTriggers app = .ok triggerTypes)
    (hne : app.triggers ≠ []) :
    TriggersEnd H ctx app src w (runTrigger H ctx triggerTypes app src w) := by
  cases hl : launch H ctx triggerTypes app src w with
  | error failure =>
    obtain ⟨type, hm, he⟩ := setUpTriggers_error hl
    obtain ⟨t, ht, rfl⟩ := (getSupportedTriggers_mem h).1 (H.hash.mem_order.1 hm)
    cases failure with
    | panic m => exact (launch_not_panics h ⟨m, hl⟩).elim
    | error e =>
      have hrun : runTrigger H ctx triggerTypes app src w = .error (.error e) := by
        rw [launch, hostedApp] at hl
        rw [runTrigger, hl]
        rfl
      rw [hrun]
      have hsupported := (getSupportedTriggers_ok h).1 _ (H.hash.mem_order.1 hm)
      exact .notSetUp ht ((launchOne_iff (r := .error e) hsupported).1 he)
  | ok lists =>
    obtain ⟨maps, futures⟩ := lists
    have hl' : launch { H with hash := H.hash } ctx triggerTypes app src w =
        .ok (maps, futures) := hl
    have hlaunched : Launched H ctx app src w maps futures := launched h hl'
    obtain ⟨type, exit, _, htype, _, hone, hrun⟩ := reportsOwn hlaunched hne hl' H.scheduler
    obtain ⟨t, ht, rfl⟩ := (hlaunched.types type).1 (List.mem_of_getElem? htype)
    rw [hrun]
    apply TriggersEnd.exits _ ht hone
    intro t' ht'
    obtain ⟨f, _, hf⟩ := forall₂_mem_left hlaunched.matching ((hlaunched.types _).2 ⟨t', ht', rfl⟩)
    exact ⟨f, hf⟩

/-- The order of a set that has one element first. -/
def HashIter.firstly (hash : HashIter) (type : String) : HashIter where
  order s := if type ∈ s then type :: (hash.order s).erase type else hash.order s
  nodup s := by
    split
    · exact List.nodup_cons.2 ⟨(hash.nodup s).not_mem_erase, (hash.nodup s).erase type⟩
    · exact hash.nodup s
  mem_order {s t} := by
    split
    · rename_i hm
      rw [List.mem_cons, (hash.nodup s).mem_erase_iff, hash.mem_order]
      by_cases ht : t = type
      · exact iff_of_true (.inl ht) (ht ▸ hm)
      · simp only [ht, ne_eq, not_false_eq_true, true_and, false_or]
    · exact hash.mem_order

/-- The future at an index exits first, if there is one. -/
def Scheduler.at (i : Nat) : Scheduler where
  first fs := if i < fs.length then i else 0
  first_lt h := by
    split
    · assumption
    · exact List.length_pos_of_ne_nil h

/-- Each of these ends is the one that some order of the set and some race lead to. -/
theorem TriggersEnd.reached (h : getSupportedTriggers app = .ok triggerTypes)
    (hr : TriggersEnd H ctx app src w r) : ∃ hash scheduler,
      runTrigger { H with hash := hash, scheduler := scheduler } ctx triggerTypes app src w =
        r := by
  cases hr with
  | @notSetUp t e ht he =>
    refine ⟨H.hash.firstly t.triggerType, H.scheduler, ?_⟩
    have hm : t.triggerType ∈ triggerTypes := (getSupportedTriggers_mem h).2 ⟨t, ht, rfl⟩
    have hone := he.launchOne
    rw [launchOne, hostedApp] at hone
    simp only [runTrigger, HashIter.firstly, hm, ↓reduceIte, setUpTriggers, hone]
    rfl
  | @exits t exit hall ht hexit =>
    have hok : ¬ (launch H ctx triggerTypes app src w).Fails := by
      rw [launch_fails_iff h]
      intro hfails
      obtain ⟨t', ht', e, he⟩ := hfails
      obtain ⟨f, hf⟩ := hall t' ht'
      cases he.unique hf
    obtain ⟨⟨maps, futures⟩, hl⟩ := (not_fails_iff (launch_not_panics h)).1 hok
    have hl' : launch { H with hash := H.hash } ctx triggerTypes app src w =
        .ok (maps, futures) := hl
    have hlaunched : Launched H ctx app src w maps futures := launched h hl'
    obtain ⟨i, hi⟩ := List.mem_iff_getElem?.1 ((hlaunched.types _).2 ⟨t, ht, rfl⟩)
    obtain ⟨f, hf, hone⟩ := forall₂_getElem? hlaunched.matching hi
    refine ⟨H.hash, .at i, ?_⟩
    obtain ⟨type, result, _, _, hresult, _, hrun⟩ :=
      reportsOwn hlaunched (List.ne_nil_of_mem ht) hl' (.at i)
    have hlt : i < futures.length := (List.getElem?_eq_some_iff.1 hf).1
    simp only [Scheduler.at, hlt, ↓reduceIte, hf, Option.some.injEq] at hresult
    rw [Except.ok.inj (hexit.unique hone), hresult]
    exact hrun

theorem execApp_eq (H : Host Addr) (ctx : RuntimeContext) (src : Source) (app : LockedApp)
    (w : World) : execApp H ctx src app w = (do
      let app ← retainFromEnv H.spinApp app w.env
      let triggerCmds ← (getSupportedTriggers app).context
        [.text ("Couldn't find trigger executor for " ++ src.debug)]
      ofResult H.telemetryInit
      runTrigger H ctx triggerCmds app src w) :=
  execApp_settled fun _ _ => rfl

theorem execApp_ends (H : Host Addr) (ctx : RuntimeContext) (src : Source) (app : LockedApp)
    (w : World) : AppEnds H ctx src app w (execApp H ctx src app w) := by
  rw [execApp_eq]
  cases hret : retainFromEnv H.spinApp app w.env with
  | error failure =>
    cases hv : w.env.var spinComponentsToRetainEnv with
    | none =>
      rw [retainFromEnv_absent hv] at hret
      cases hret
    | some value =>
      cases he : H.spinApp.retainComponents app (retainList value)
          [H.spinApp.validateServiceChainingForComponents] with
      | error e =>
        rw [retainFromEnv_rejected hv he] at hret
        cases hret
        exact .rejected hv he
      | ok app' =>
        simp only [retainFromEnv, hv, he] at hret
        cases hret
  | ok app' =>
    have hd := retainFromEnv_deployed.1 hret
    rcases forall_or_first (fun t => t.triggerType ∈ supportedTriggers) app'.triggers with
      hall | ⟨earlier, t, later, hsplit, hearlier, ht⟩
    · obtain ⟨types, htypes⟩ := getSupportedTriggers_total hall
      rw [ok_bind, htypes]
      cases htelemetry : H.telemetryInit with
      | error e => exact .telemetry hd hall htelemetry
      | ok u =>
        by_cases hne : app'.triggers = []
        · rw [getSupportedTriggers_nil hne, Except.ok.injEq] at htypes
          simp only [Outcome.context, ofResult, ok_bind, ← htypes, runTrigger_idle]
          exact .idle hd htelemetry hne
        · exact .triggers hd hall htelemetry hne (runTrigger_ends htypes hne)
    · rw [ok_bind, getSupportedTriggers_first hsplit hearlier ht]
      exact .unsupported hd hsplit hearlier ht

/-- Neither the order of the set nor the race shows in how a run can end. -/
theorem AppEnds.of_schedule {hash : HashIter} {scheduler : Scheduler}
    (h : AppEnds { H with hash := hash, scheduler := scheduler } ctx src app w r) :
    AppEnds H ctx src app w r := by
  cases h with
  | rejected hv he => exact .rejected hv he
  | unsupported hd hsplit hearlier ht => exact .unsupported hd hsplit hearlier ht
  | telemetry hd hall he => exact .telemetry hd hall he
  | idle hd htelemetry hnone => exact .idle hd htelemetry hnone
  | triggers hd hall htelemetry hne h =>
    refine .triggers hd hall htelemetry hne ?_
    cases h with
    | notSetUp ht he => exact .notSetUp ht he
    | exits hall ht hexit => exact .exits hall ht hexit

theorem execApp_of_deployed (hd : Deployed H.spinApp app w.env app')
    (htypes : getSupportedTriggers app' = .ok triggerTypes) :
    execApp H ctx src app w = (do
      ofResult H.telemetryInit
      runTrigger H ctx triggerTypes app' src w) := by
  rw [execApp_eq, retainFromEnv_deployed.2 hd, ok_bind, htypes]
  rfl

/-- What is decided before the triggers is so in every run, and the order of the set and the race
decide the rest. -/
theorem AppEnds.reached (h : AppEnds H ctx src app w r) : ∃ hash scheduler,
    execApp { H with hash := hash, scheduler := scheduler } ctx src app w = r := by
  cases h with
  | rejected hv he =>
    refine ⟨H.hash, H.scheduler, ?_⟩
    rw [execApp_eq, retainFromEnv_rejected hv he]
    rfl
  | unsupported hd hsplit hearlier ht =>
    refine ⟨H.hash, H.scheduler, ?_⟩
    rw [execApp_eq, retainFromEnv_deployed.2 hd, ok_bind,
      getSupportedTriggers_first hsplit hearlier ht]
    rfl
  | telemetry hd hall he =>
    refine ⟨H.hash, H.scheduler, ?_⟩
    obtain ⟨types, htypes⟩ := getSupportedTriggers_total hall
    rw [execApp_of_deployed hd htypes, he]
    rfl
  | idle hd htelemetry hnone =>
    refine ⟨H.hash, H.scheduler, ?_⟩
    rw [execApp_of_deployed hd (getSupportedTriggers_nil hnone), htelemetry]
    exact runTrigger_idle
  | triggers hd hall htelemetry hne h =>
    obtain ⟨types, htypes⟩ := getSupportedTriggers_total hall
    obtain ⟨hash, scheduler, hrun⟩ := h.reached htypes
    refine ⟨hash, scheduler, ?_⟩
    have hexec : execApp { H with hash := hash, scheduler := scheduler } ctx src app w = (do
        ofResult H.telemetryInit
        runTrigger { H with hash := hash, scheduler := scheduler } ctx types _ src w) :=
      execApp_of_deployed hd htypes
    rw [hexec, htelemetry]
    exact hrun

theorem importEnvs_unsettable {envs : List String} (hv : v ∈ envs) (hn : ¬ Settable v) :
    importEnvs envs E = panicking "failed to set environment variable" := by
  induction envs generalizing E with
  | nil => cases hv
  | cons u envs ih =>
    rw [importEnvs, List.foldlM_cons]
    by_cases hu : Settable u
    · have hne : v ≠ u := fun he => hn (he ▸ hu)
      rw [setVar_ok hu.1 hu.2, ok_bind]
      exact ih ((List.mem_cons.1 hv).resolve_left hne)
    · rw [Settable] at hu
      rw [setVar, dif_neg hu]
      rfl

theorem execApp_env (h : SameSettings settingNames E w.env) :
    execApp H ctx src app w = execApp H ctx src app { w with env := E } :=
  (execApp_settled h).trans (execApp_eq H ctx src app { w with env := E }).symm

theorem runWasi_loaded (himport : importEnvs ctx.envs w.env = .ok E) (hset : H.setHandler = .ok ())
    (hload : loadApp H.platform ctx { w with env := E } = .ok (src, app, w₁)) :
    runWasi H ctx false w = (do
      execApp H ctx src app { w₁ with env := E }
      return 0) := by
  simp only [runWasi, himport, hset, ofResult, ok_bind, Bool.false_eq_true, ↓reduceIte,
    wasmExecAsync, hload, execApp_env (loadApp_sameSettings hload)]

theorem RunEnds.of_schedule {hash : HashIter} {scheduler : Scheduler} {result : Outcome Int}
    (h : RunEnds { H with hash := hash, scheduler := scheduler } ctx w result) :
    RunEnds H ctx w result := by
  cases h with
  | entry hv hn => exact .entry hv hn
  | handler himport he => exact .handler himport he
  | stopped himport hset => exact .stopped himport hset
  | notLoaded himport hset hload => exact .notLoaded himport hset hload
  | loaded himport hset hload h => exact .loaded himport hset hload h.of_schedule

theorem runWasi_ends (H : Host Addr) (ctx : RuntimeContext) (aborted : Bool) (w : World) :
    RunEnds H ctx w (runWasi H ctx aborted w) := by
  by_cases hall : ∀ v ∈ ctx.envs, Settable v
  · obtain ⟨E, himport⟩ := importEnvs_ok w.env hall
    rw [runWasi, himport, ok_bind]
    cases hset : H.setHandler with
    | error e => exact .handler himport hset
    | ok u =>
      cases aborted with
      | true => exact .stopped himport hset
      | false =>
        simp only [ofResult, ok_bind, Bool.false_eq_true, ↓reduceIte, wasmExecAsync]
        cases hload : loadApp H.platform ctx { w with env := E } with
        | error failure => exact .notLoaded himport hset hload
        | ok loaded =>
          obtain ⟨src, app, w₁⟩ := loaded
          rw [ok_bind, execApp_env (loadApp_sameSettings hload)]
          exact .loaded himport hset hload (execApp_ends H ctx src app _)
  · simp only [not_forall] at hall
    obtain ⟨v, hv, hn⟩ := hall
    rw [runWasi, importEnvs_unsettable hv hn]
    exact .entry hv fun hi => hn (importable_iff.1 hi)

theorem RunEnds.reached {result : Outcome Int} (h : RunEnds H ctx w result) :
    ∃ hash scheduler aborted,
      runWasi { H with hash := hash, scheduler := scheduler } ctx aborted w = result := by
  cases h with
  | entry hv hn =>
    refine ⟨H.hash, H.scheduler, false, ?_⟩
    rw [runWasi, importEnvs_unsettable hv fun hs => hn (importable_iff.2 hs)]
    rfl
  | handler himport he =>
    refine ⟨H.hash, H.scheduler, false, ?_⟩
    simp only [runWasi, himport, he, ofResult, ok_bind]
    rfl
  | stopped himport hset =>
    refine ⟨H.hash, H.scheduler, true, ?_⟩
    simp only [runWasi, himport, hset, ofResult, ok_bind, ↓reduceIte]
    rfl
  | notLoaded himport hset hload =>
    refine ⟨H.hash, H.scheduler, false, ?_⟩
    simp only [runWasi, himport, hset, ofResult, ok_bind, Bool.false_eq_true, ↓reduceIte,
      wasmExecAsync, hload]
    rfl
  | loaded himport hset hload h =>
    obtain ⟨hash, scheduler, hexec⟩ := h.reached
    refine ⟨hash, scheduler, false, ?_⟩
    have hrun : runWasi { H with hash := hash, scheduler := scheduler } ctx false w = _ :=
      runWasi_loaded himport hset hload
    rw [hrun, hexec]

/-- How a run can end does not depend on the order of hash sets, on which trigger wins the race
or on a signal, and each of its ends is brought about by some of these. -/
theorem runWasi_outcomes (H : Host Addr) (ctx : RuntimeContext) (w : World) (result : Outcome Int) :
    RunEnds H ctx w result ↔ ∃ hash scheduler aborted,
      runWasi { H with hash := hash, scheduler := scheduler } ctx aborted w = result := by
  apply Iff.intro RunEnds.reached
  intro h
  obtain ⟨hash, scheduler, aborted, h⟩ := h
  exact h ▸ (runWasi_ends _ ctx aborted w).of_schedule

end ShimSpin
