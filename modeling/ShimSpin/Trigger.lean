import Mathlib.Data.Finset.Basic
import ShimSpin.Utils

namespace ShimSpin
set_option autoImplicit true

def httpTriggerType : String := "http"

def redisTriggerType : String := "redis"

def sqsTriggerType : String := "sqs"

def mqttTriggerType : String := "mqtt"

def commandTriggerType : String := "command"

def runtimeConfigPath : PathBuf := "/runtime-config.toml"

def spinTriggerWorkingDir : PathBuf := "/"

structure App where
  id : String
  locked : LockedApp

structure HttpCliArgs (Addr : Type) where
  address : Addr
  tlsCert : Option PathBuf
  tlsKey : Option PathBuf
  findFreePort : Bool
  http1MaxBufSize : Option Nat
  maxInstanceReuseCount : Option Nat
  maxInstanceConcurrentReuseCount : Option Nat
  requestTimeout : Option Nat
  idleInstanceTimeout : Nat

inductive CliArgs (Addr : Type) where
  | http (args : HttpCliArgs Addr)
  | noCliArgs
  | command (guestArgs : List String)
  | mqtt (test : Bool)

structure FactorsConfig where
  workingDir : PathBuf
  runtimeConfigFile : Option PathBuf
  localAppDir : Option PathBuf

/-- A trigger that runs, by the result it ends with. -/
abbrev TriggerFuture := Except Error Unit

/-- How Spin sets triggers up. Every call ends in a trigger that runs or in an error. -/
structure TriggerHost (Addr : Type) where
  new : String → CliArgs Addr → App → Except Error Unit
  run : String → CliArgs Addr → App → FactorsConfig → Option Nat → Bool →
    Except Error TriggerFuture
  parseLimit : String → Option Nat
  toSocketAddrs : String → Except Error (List Addr)

def factorsConfig (f : Files) : FactorsConfig where
  workingDir := spinTriggerWorkingDir
  runtimeConfigFile := if (f runtimeConfigPath).isSome then some runtimeConfigPath else none
  localAppDir := some spinTriggerWorkingDir

/-- `trigger::run`, for a trigger type and a component loader with or without AOT. -/
def runTriggerType (host : TriggerHost Addr) (type : String) (cliArgs : CliArgs Addr) (app : App)
    (aot : Bool) (w : World) : Outcome TriggerFuture := do
  ofResult (host.new type cliArgs app)
  let maxInstanceMemory := (w.env.var "SPIN_MAX_INSTANCE_MEMORY").bind host.parseLimit
  ofResult (host.run type cliArgs app (factorsConfig w.files) maxInstanceMemory aot)

def supportedTriggers : List String :=
  [httpTriggerType, redisTriggerType, sqsTriggerType, commandTriggerType, mqttTriggerType]

def supportedTrigger (trigger : LockedTrigger) : Outcome String :=
  if trigger.triggerType ∈ supportedTriggers then return trigger.triggerType
  else bail [.text ("Only Http, Redis, MQTT, SQS, and Command triggers are currently supported. " ++
    "Found unsupported trigger: "), .debug trigger.triggerType]

def getSupportedTriggers (app : LockedApp) : Outcome (Finset String) := do
  let types ← app.triggers.mapM supportedTrigger
  return types.toFinset

/-- An iteration order of hash sets. -/
structure HashIter where
  order : Finset String → List String
  nodup : ∀ s, (order s).Nodup
  mem_order : ∀ {s t}, t ∈ order s ↔ t ∈ s

/-- Which of the futures that are polled together completes first. -/
structure Scheduler where
  first : List TriggerFuture → Nat
  first_lt : fs ≠ [] → first fs < fs.length

/-- `future::select_all` asserts that there is a future to wait for. -/
def selectAll (sched : Scheduler) (futures : List TriggerFuture) :
    Outcome (TriggerFuture × Nat × List TriggerFuture) :=
  match futures[sched.first futures]? with
  | some result => return (result, sched.first futures, futures.eraseIdx (sched.first futures))
  | none => panicking "assertion failed: !ret.inner.is_empty()"

theorem selectAll_nil (sched : Scheduler) :
    selectAll sched [] = panicking "assertion failed: !ret.inner.is_empty()" := rfl

theorem selectAll_ok (sched : Scheduler) {futures : List TriggerFuture} (h : futures ≠ []) :
    ∃ result, futures[sched.first futures]? = some result ∧ selectAll sched futures =
      .ok (result, sched.first futures, futures.eraseIdx (sched.first futures)) := by
  have hi := List.getElem?_eq_getElem (sched.first_lt h)
  refine ⟨_, hi, ?_⟩
  rw [selectAll, hi]
  rfl

theorem supportedTrigger_ok : supportedTrigger t = .ok s ↔
    s = t.triggerType ∧ t.triggerType ∈ supportedTriggers := by
  by_cases h : t.triggerType ∈ supportedTriggers
  · simp only [supportedTrigger, h, ↓reduceIte, and_true]
    exact ⟨fun he => by cases he; rfl, fun he => he ▸ rfl⟩
  · simp only [supportedTrigger, h, ↓reduceIte, and_false, iff_false]
    exact fun he => by cases he

theorem supportedTrigger_not_panics (t : LockedTrigger) : ¬ (supportedTrigger t).Panics := by
  rw [supportedTrigger]
  by_cases h : t.triggerType ∈ supportedTriggers
  · rw [if_pos h]
    exact pure_not_panics _
  · rw [if_neg h]
    exact bail_not_panics _

theorem supportedTriggers_mapM {triggers : List LockedTrigger}
    (h : triggers.mapM supportedTrigger = .ok types) :
    types = triggers.map LockedTrigger.triggerType ∧
      ∀ t ∈ triggers, t.triggerType ∈ supportedTriggers := by
  rw [mapM_eq_ok] at h
  induction h with
  | nil => exact ⟨rfl, nofun⟩
  | cons ht _ ih =>
    obtain ⟨he, hm⟩ := supportedTrigger_ok.1 ht
    exact ⟨by rw [he, ih.1, List.map_cons], List.forall_mem_cons.2 ⟨hm, ih.2⟩⟩

theorem getSupportedTriggers_mem {app : LockedApp} (h : getSupportedTriggers app = .ok types) :
    type ∈ types ↔ ∃ t ∈ app.triggers, t.triggerType = type := by
  obtain ⟨ts, hts, h⟩ := bind_eq_ok.1 h
  cases h
  rw [(supportedTriggers_mapM hts).1, List.mem_toFinset, List.mem_map]

/-- All types in the set are supported, and the set is empty only for an app that has no
trigger. -/
theorem getSupportedTriggers_ok {app : LockedApp} (h : getSupportedTriggers app = .ok types) :
    (∀ type ∈ types, type ∈ supportedTriggers) ∧ (types = ∅ ↔ app.triggers = []) := by
  obtain ⟨ts, hts, h⟩ := bind_eq_ok.1 h
  cases h
  obtain ⟨rfl, hall⟩ := supportedTriggers_mapM hts
  rw [List.toFinset_eq_empty_iff, List.map_eq_nil_iff]
  apply And.intro _ Iff.rfl
  intro type hm
  obtain ⟨t, ht, rfl⟩ := List.mem_map.1 (List.mem_toFinset.1 hm)
  exact hall t ht

theorem getSupportedTriggers_nil {app : LockedApp} (h : app.triggers = []) :
    getSupportedTriggers app = .ok ∅ := by
  rw [getSupportedTriggers, h]
  rfl

theorem getSupportedTriggers_not_panics (app : LockedApp) :
    ¬ (getSupportedTriggers app).Panics := by
  rw [getSupportedTriggers, bind_panics]
  intro h
  rcases h with h | ⟨ts, _, h⟩
  · exact mapM_not_panics (fun t _ => supportedTrigger_not_panics t) h
  · exact pure_not_panics _ h

end ShimSpin
