import Mathlib.Data.List.Perm.Basic
import ShimSpin.Panics

namespace ShimSpin
set_option autoImplicit true

def hostedApp (app : LockedApp) (E : Env) : App := ⟨(E.var "HOSTNAME").getD "unknown", app⟩

def launch (H : Host Addr) (ctx : RuntimeContext) (triggerTypes : Finset String)
    (app : LockedApp) (src : Source) (w : World) : Outcome (List String × List TriggerFuture) :=
  setUpTriggers H.triggers ctx (hostedApp app w.env) (aotEnabled ctx src) w
    (H.hash.order triggerTypes) ([], [])

abbrev launchOne (host : TriggerHost Addr) (ctx : RuntimeContext) (app : LockedApp) (src : Source)
    (w : World) (type : String) : Outcome TriggerFuture :=
  setUpTrigger host ctx (hostedApp app w.env) (aotEnabled ctx src) w type

def listenAddr (E : Env) : String := (E.var spinHttpListenAddrEnv).getD spinAddrDefault

inductive ArgsOf (host : TriggerHost Addr) (ctx : RuntimeContext) (E : Env) :
    String → CliArgs Addr → Prop where
  | http (h : host.toSocketAddrs (listenAddr E) = .ok (address :: rest)) :
      ArgsOf host ctx E httpTriggerType
        (.http ⟨address, none, none, false, none, none, none, none, 1⟩)
  | redis : ArgsOf host ctx E redisTriggerType .noCliArgs
  | sqs : ArgsOf host ctx E sqsTriggerType .noCliArgs
  | command : ArgsOf host ctx E commandTriggerType (.command ctx.args)
  | mqtt : ArgsOf host ctx E mqttTriggerType (.mqtt false)

/-- The result of asking Spin to run a trigger of a type for an app. -/
inductive SetUp (host : TriggerHost Addr) (ctx : RuntimeContext) (app : LockedApp) (src : Source)
    (w : World) : String → Except Error TriggerFuture → Prop where
  | unresolved (h : host.toSocketAddrs (listenAddr w.env) = .error e) :
      SetUp host ctx app src w httpTriggerType (.error e)
  | noAddress (h : host.toSocketAddrs (listenAddr w.env) = .ok []) :
      SetUp host ctx app src w httpTriggerType
        (.error [[.text ("could not parse address: " ++ listenAddr w.env)]])
  | rejected (ha : ArgsOf host ctx w.env type args)
      (hnew : host.new type args (hostedApp app w.env) = .error e) :
      SetUp host ctx app src w type (.error e)
  | created (ha : ArgsOf host ctx w.env type args)
      (hnew : host.new type args (hostedApp app w.env) = .ok ()) :
      SetUp host ctx app src w type (host.run type args (hostedApp app w.env)
        (factorsConfig w.files) ((w.env.var "SPIN_MAX_INSTANCE_MEMORY").bind host.parseLimit)
        (aotEnabled ctx src))

/-- Every trigger type of the app is launched once, and the lists match at every index. -/
structure Launched (H : Host Addr) (ctx : RuntimeContext) (app : LockedApp) (src : Source)
    (w : World) (triggerTypeMap : List String) (futuresList : List TriggerFuture) : Prop where
  once : triggerTypeMap.Nodup
  types : ∀ type, type ∈ triggerTypeMap ↔ ∃ t ∈ app.triggers, t.triggerType = type
  matching : List.Forall₂ (fun type f => SetUp H.triggers ctx app src w type (.ok f))
    triggerTypeMap futuresList

/-- Whichever trigger exits first, its own type is logged and its own result returned. -/
def ReportsOwn (H : Host Addr) (ctx : RuntimeContext) (triggerTypes : Finset String)
    (app : LockedApp) (src : Source) (w : World) (triggerTypeMap : List String)
    (futuresList : List TriggerFuture) : Prop :=
  ∀ sched : Scheduler, ∃ type result,
    awaitTriggers sched triggerTypeMap futuresList = .ok (type, result) ∧
    triggerTypeMap[sched.first futuresList]? = some type ∧
    futuresList[sched.first futuresList]? = some result ∧
    SetUp H.triggers ctx app src w type (.ok result) ∧
    runTrigger { H with scheduler := sched } ctx triggerTypes app src w = ofResult result

variable {Addr : Type} {H : Host Addr} {ctx : RuntimeContext} {app : LockedApp} {src : Source}
  {w : World} {types : List String} {maps : List String} {futures : List TriggerFuture}
  {triggerTypes : Finset String} {hash : HashIter} {host : TriggerHost Addr} {type : String}
  {args : CliArgs Addr} {r r' : Except Error TriggerFuture}

theorem launchOne_http : launchOne host ctx app src w httpTriggerType = (do
    let address ← parseAddr host.toSocketAddrs (listenAddr w.env)
    runTriggerType host httpTriggerType
      (.http ⟨address, none, none, false, none, none, none, none, 1⟩)
      (hostedApp app w.env) (aotEnabled ctx src) w) := by
  rw [launchOne, setUpTrigger, if_pos rfl]
  rfl

theorem ArgsOf.launchOne (ha : ArgsOf host ctx w.env type args) :
    launchOne host ctx app src w type =
      runTriggerType host type args (hostedApp app w.env) (aotEnabled ctx src) w := by
  cases ha with
  | http h => rw [launchOne_http, parseAddr_cons h, ok_bind]
  | redis => rfl
  | sqs => rfl
  | command => rfl
  | mqtt => rfl

theorem SetUp.launchOne (h : SetUp host ctx app src w type r) :
    launchOne host ctx app src w type = ofResult r := by
  cases h with
  | unresolved h =>
    rw [launchOne_http, parseAddr_error h]
    rfl
  | noAddress h =>
    rw [launchOne_http, parseAddr_nil h]
    rfl
  | rejected ha hnew =>
    rw [ha.launchOne, runTriggerType, hnew]
    rfl
  | created ha hnew =>
    rw [ha.launchOne, runTriggerType, hnew]
    rfl

theorem ArgsOf.setUp (ha : ArgsOf host ctx w.env type args) (app : LockedApp) (src : Source) :
    ∃ r, SetUp host ctx app src w type r := by
  cases hnew : host.new type args (hostedApp app w.env) with
  | error e => exact ⟨_, .rejected ha hnew⟩
  | ok u => exact ⟨_, .created ha hnew⟩

theorem exists_setUp (h : type ∈ supportedTriggers) (host : TriggerHost Addr)
    (ctx : RuntimeContext) (app : LockedApp) (src : Source) (w : World) :
    ∃ r, SetUp host ctx app src w type r := by
  simp only [supportedTriggers, List.mem_cons, List.not_mem_nil, or_false] at h
  rcases h with rfl | rfl | rfl | rfl | rfl
  · cases haddr : host.toSocketAddrs (listenAddr w.env) with
    | error e => exact ⟨_, .unresolved haddr⟩
    | ok addrs =>
      cases addrs with
      | nil => exact ⟨_, .noAddress haddr⟩
      | cons address rest => exact ArgsOf.setUp (.http haddr) app src
  · exact ArgsOf.setUp .redis app src
  · exact ArgsOf.setUp .sqs app src
  · exact ArgsOf.setUp .command app src
  · exact ArgsOf.setUp .mqtt app src

theorem launchOne_iff (h : type ∈ supportedTriggers) :
    launchOne host ctx app src w type = ofResult r ↔ SetUp host ctx app src w type r := by
  apply Iff.intro _ SetUp.launchOne
  intro hr
  obtain ⟨r', hr'⟩ := exists_setUp h host ctx app src w
  rw [ofResult_injective (hr.symm.trans hr'.launchOne)]
  exact hr'

theorem SetUp.unique (h : SetUp host ctx app src w type r)
    (h' : SetUp host ctx app src w type r') : r = r' :=
  ofResult_injective (h.launchOne.symm.trans h'.launchOne)

/-- What fails has met an error that Spin reports. -/
theorem launchOne_fails (h : type ∈ supportedTriggers) :
    (launchOne host ctx app src w type).Fails ↔ ∃ e, SetUp host ctx app src w type (.error e) :=
  exists_congr fun e => launchOne_iff (r := .error e) h

/-- Setting an HTTP trigger up fails just when finding its address does, or running it. -/
theorem setUp_http : (∃ e, SetUp host ctx app src w httpTriggerType (.error e)) ↔
    (parseAddr host.toSocketAddrs (listenAddr w.env)).Fails ∨
    ∃ address, parseAddr host.toSocketAddrs (listenAddr w.env) = .ok address ∧
      (runTriggerType host httpTriggerType
        (.http ⟨address, none, none, false, none, none, none, none, 1⟩)
        (hostedApp app w.env) (aotEnabled ctx src) w).Fails := by
  rw [← launchOne_fails (by decide), launchOne_http, bind_fails]

theorem setUpTriggers_fails_iff {host : TriggerHost Addr} {app : App} {aot : Bool}
    (h : ∀ type ∈ types, type ∈ supportedTriggers) :
    (setUpTriggers host ctx app aot w types (maps, futures)).Fails ↔
      ∃ type ∈ types, (setUpTrigger host ctx app aot w type).Fails := by
  induction types generalizing maps futures with
  | nil => exact iff_of_false (pure_not_fails _) nofun
  | cons type types ih =>
    rw [List.forall_mem_cons] at h
    rw [setUpTriggers, bind_fails, List.exists_mem_cons_iff]
    apply or_congr_right'
    intro hf
    obtain ⟨f, hok⟩ := (not_fails_iff (setUpTrigger_not_panics h.1)).1 hf
    apply Iff.intro
    · intro hex
      obtain ⟨_, _, hrest⟩ := hex
      exact (ih h.2).1 hrest
    · intro hrest
      exact ⟨f, hok, (ih h.2).2 hrest⟩

theorem zip_mem_iff {R : α → β → Prop} {as : List α} {bs : List β}
    (h : List.Forall₂ R as bs) (hfun : ∀ a b c, R a b → R a c → b = c) {a : α} {b : β} :
    (a, b) ∈ as.zip bs ↔ a ∈ as ∧ R a b := by
  induction h with
  | nil => exact iff_of_false List.not_mem_nil (fun hn => List.not_mem_nil hn.1)
  | @cons a' b' as bs hr hrs ih =>
    rw [List.zip_cons_cons, List.mem_cons, List.mem_cons, ih, Prod.mk.injEq]
    apply Iff.intro
    · intro hm
      rcases hm with ⟨rfl, rfl⟩ | ⟨hm, hab⟩
      · exact ⟨.inl rfl, hr⟩
      · exact ⟨.inr hm, hab⟩
    · intro ⟨hm, hab⟩
      rcases hm with rfl | hm
      · exact .inl ⟨rfl, hfun _ _ _ hab hr⟩
      · exact .inr ⟨hm, hab⟩

theorem zip_nodup {as : List α} {bs : List β} (h : as.Nodup) (hlen : as.length = bs.length) :
    (as.zip bs).Nodup := by
  apply List.Nodup.of_map Prod.fst
  rwa [List.map_fst_zip hlen.le]

theorem launch_fails_iff (h : getSupportedTriggers app = .ok triggerTypes) :
    (launch H ctx triggerTypes app src w).Fails ↔
      ∃ t ∈ app.triggers, ∃ e, SetUp H.triggers ctx app src w t.triggerType (.error e) := by
  have hall : ∀ type ∈ H.hash.order triggerTypes, type ∈ supportedTriggers :=
    fun type hm => (getSupportedTriggers_ok h).1 type (H.hash.mem_order.1 hm)
  rw [launch, setUpTriggers_fails_iff hall]
  apply Iff.intro
  · intro ⟨type, hm, hf⟩
    have he := (launchOne_fails (hall type hm)).1 hf
    obtain ⟨t, ht, rfl⟩ := (getSupportedTriggers_mem h).1 (H.hash.mem_order.1 hm)
    exact ⟨t, ht, he⟩
  · intro ⟨t, ht, he⟩
    have hm := H.hash.mem_order.2 ((getSupportedTriggers_mem h).2 ⟨t, ht, rfl⟩)
    exact ⟨t.triggerType, hm, (launchOne_fails (hall _ hm)).2 he⟩

theorem launch_not_panics (h : getSupportedTriggers app = .ok triggerTypes) :
    ¬ (launch H ctx triggerTypes app src w).Panics :=
  setUpTriggers_not_panics fun type hm =>
    (getSupportedTriggers_ok h).1 type (H.hash.mem_order.1 hm)

theorem launched (h : getSupportedTriggers app = .ok triggerTypes)
    (hl : launch { H with hash } ctx triggerTypes app src w = .ok (maps, futures)) :
    Launched H ctx app src w maps futures := by
  obtain ⟨fs, hfs, hmaps, hfutures⟩ := setUpTriggers_eq_ok.1 hl
  rw [List.nil_append] at hmaps hfutures
  rw [hmaps, hfutures]
  apply Launched.mk
  · exact hash.nodup triggerTypes
  · intro type
    rw [hash.mem_order, getSupportedTriggers_mem h]
  · rw [List.forall₂_iff_zip] at hfs ⊢
    refine ⟨hfs.1, fun {type f} hm => ?_⟩
    have htype := hash.mem_order.1 (List.of_mem_zip hm).1
    exact (launchOne_iff (r := .ok f) ((getSupportedTriggers_ok h).1 type htype)).1 (hfs.2 hm)

theorem Launched.perm {maps' : List String} {futures' : List TriggerFuture}
    (h : Launched H ctx app src w maps futures) (h' : Launched H ctx app src w maps' futures') :
    (maps.zip futures).Perm (maps'.zip futures') := by
  have hfun : ∀ type (f f' : TriggerFuture), SetUp H.triggers ctx app src w type (.ok f) →
      SetUp H.triggers ctx app src w type (.ok f') → f = f' :=
    fun type f f' hf hf' => Except.ok.inj (hf.unique hf')
  rw [List.perm_ext_iff_of_nodup (zip_nodup h.once h.matching.length_eq)
    (zip_nodup h'.once h'.matching.length_eq)]
  intro ⟨type, f⟩
  rw [zip_mem_iff h.matching hfun, zip_mem_iff h'.matching hfun, h.types, h'.types]

theorem reportsOwn (h : Launched H ctx app src w maps futures) (hne : app.triggers ≠ [])
    (hl : launch { H with hash } ctx triggerTypes app src w = .ok (maps, futures)) :
    ReportsOwn { H with hash } ctx triggerTypes app src w maps futures := by
  intro sched
  have hlen := h.matching.length_eq
  have hfutures : futures ≠ [] := by
    intro hf
    obtain ⟨t, ht⟩ := List.exists_mem_of_ne_nil _ hne
    have hm := (h.types t.triggerType).2 ⟨t, ht, rfl⟩
    rw [hf, List.length_nil] at hlen
    rw [List.eq_nil_of_length_eq_zero hlen] at hm
    exact List.not_mem_nil hm
  obtain ⟨result, hresult, hselect⟩ := selectAll_ok sched hfutures
  have hlt : sched.first futures < maps.length := hlen ▸ sched.first_lt hfutures
  have htype := List.getElem?_eq_getElem hlt
  have hawait : awaitTriggers sched maps futures = .ok (maps[sched.first futures], result) := by
    simp only [awaitTriggers, hselect, ok_bind, htype]
    rfl
  obtain ⟨f, hf, hone⟩ := forall₂_getElem? h.matching htype
  rw [hresult, Option.some.injEq] at hf
  refine ⟨_, result, hawait, htype, hresult, hf ▸ hone, ?_⟩
  rw [launch, hostedApp] at hl
  rw [runTrigger, hl, ok_bind]
  simp only [hawait, ok_bind]

/-- Triggers are launched once for each type of the app, whatever the order of the set. -/
theorem launch_order_independent (h : getSupportedTriggers app = .ok triggerTypes)
    (hne : app.triggers ≠ []) (H : Host Addr) (hash₁ hash₂ : HashIter) (ctx : RuntimeContext)
    (src : Source) (w : World) :
    ((launch { H with hash := hash₁ } ctx triggerTypes app src w).Fails ↔
      (launch { H with hash := hash₂ } ctx triggerTypes app src w).Fails) ∧
    ((launch { H with hash := hash₁ } ctx triggerTypes app src w).Fails ↔
      ∃ t ∈ app.triggers, ∃ e, SetUp H.triggers ctx app src w t.triggerType (.error e)) ∧
    ((∃ e, SetUp H.triggers ctx app src w httpTriggerType (.error e)) ↔
      (parseAddr H.triggers.toSocketAddrs (listenAddr w.env)).Fails ∨
      ∃ address, parseAddr H.triggers.toSocketAddrs (listenAddr w.env) = .ok address ∧
        (runTriggerType H.triggers httpTriggerType
          (.http ⟨address, none, none, false, none, none, none, none, 1⟩)
          (hostedApp app w.env) (aotEnabled ctx src) w).Fails) ∧
    (∀ failure, launch { H with hash := hash₁ } ctx triggerTypes app src w = .error failure →
      runTrigger { H with hash := hash₁ } ctx triggerTypes app src w = .error failure) ∧
    (¬ (launch { H with hash := hash₁ } ctx triggerTypes app src w).Fails →
      ∃ maps₁ futures₁ maps₂ futures₂,
        launch { H with hash := hash₁ } ctx triggerTypes app src w = .ok (maps₁, futures₁) ∧
        launch { H with hash := hash₂ } ctx triggerTypes app src w = .ok (maps₂, futures₂) ∧
        Launched H ctx app src w maps₁ futures₁ ∧ Launched H ctx app src w maps₂ futures₂ ∧
        (maps₁.zip futures₁).Perm (maps₂.zip futures₂) ∧
        ReportsOwn { H with hash := hash₁ } ctx triggerTypes app src w maps₁ futures₁ ∧
        ReportsOwn { H with hash := hash₂ } ctx triggerTypes app src w maps₂ futures₂) := by
  have hfails (hash : HashIter) : (launch { H with hash } ctx triggerTypes app src w).Fails ↔
      ∃ t ∈ app.triggers, ∃ e, SetUp H.triggers ctx app src w t.triggerType (.error e) :=
    launch_fails_iff h
  refine ⟨(hfails hash₁).trans (hfails hash₂).symm, hfails hash₁, setUp_http, ?_, ?_⟩
  · intro failure hf
    rw [launch, hostedApp] at hf
    rw [runTrigger, hf]
    rfl
  · intro hn
    have hn₂ : ¬ (launch { H with hash := hash₂ } ctx triggerTypes app src w).Fails :=
      fun hf => hn ((hfails hash₁).2 ((hfails hash₂).1 hf))
    obtain ⟨⟨maps₁, futures₁⟩, hl₁⟩ := (not_fails_iff (launch_not_panics h)).1 hn
    obtain ⟨⟨maps₂, futures₂⟩, hl₂⟩ := (not_fails_iff (launch_not_panics h)).1 hn₂
    have h₁ := launched h hl₁
    have h₂ := launched h hl₂
    exact ⟨maps₁, futures₁, maps₂, futures₂, hl₁, hl₂, h₁, h₂, h₁.perm h₂,
      reportsOwn h₁ hne hl₁, reportsOwn h₂ hne hl₂⟩

def HashIter.reversed : HashIter where
  order s := (HashIter.inMemory.order s).reverse
  nodup s := List.nodup_reverse.2 (HashIter.inMemory.nodup s)
  mem_order := List.mem_reverse.trans HashIter.inMemory.mem_order

def sharedTypeApp : LockedApp :=
  { LockedApp.bare with
    triggers := [⟨"a", httpTriggerType, none, ""⟩, ⟨"b", redisTriggerType, none, ""⟩,
      ⟨"c", httpTriggerType, none, ""⟩] }

theorem launch_order_independent_sharedType :
    getSupportedTriggers sharedTypeApp = .ok {httpTriggerType, redisTriggerType} ∧
    ∃ maps₁ futures₁ maps₂ futures₂,
      launch { Host.inMemory .bare with hash := .inMemory } (imageCtx [])
        {httpTriggerType, redisTriggerType} sharedTypeApp .ociSpin (.bare .empty) =
          .ok (maps₁, futures₁) ∧
      launch { Host.inMemory .bare with hash := .reversed } (imageCtx [])
        {httpTriggerType, redisTriggerType} sharedTypeApp .ociSpin (.bare .empty) =
          .ok (maps₂, futures₂) ∧
      (maps₁.zip futures₁).Perm (maps₂.zip futures₂) := by
  have htypes : getSupportedTriggers sharedTypeApp = .ok {httpTriggerType, redisTriggerType} := by
    have hset : ([httpTriggerType, redisTriggerType, httpTriggerType].toFinset : Finset String) =
        {httpTriggerType, redisTriggerType} := by decide
    rw [← hset]
    rfl
  have hall := launch_order_independent htypes (List.cons_ne_nil _ _) (.inMemory .bare) .inMemory
    .reversed (imageCtx []) .ociSpin (.bare .empty)
  have hn : ¬ (launch { Host.inMemory .bare with hash := .inMemory } (imageCtx [])
      {httpTriggerType, redisTriggerType} sharedTypeApp .ociSpin (.bare .empty)).Fails := by
    rw [hall.2.1]
    intro ⟨t, ht, e, he⟩
    simp only [sharedTypeApp, List.mem_cons, List.not_mem_nil, or_false] at ht
    rcases ht with rfl | rfl | rfl
    · cases he.launchOne
    · cases he.launchOne
    · cases he.launchOne
  obtain ⟨maps₁, futures₁, maps₂, futures₂, hl₁, hl₂, _, _, hperm, _⟩ := hall.2.2.2.2 hn
  exact ⟨htypes, maps₁, futures₁, maps₂, futures₂, hl₁, hl₂, hperm⟩

end ShimSpin
