import Mathlib.Data.List.Basic
import ShimSpin.Layer

namespace ShimSpin
set_option autoImplicit true

/-- A JSON value that the shim passes on unread. -/
abbrev Json := String

/-- A map of a locked app, in ascending order of its keys. -/
structure LockedMap (α : Type) where
  entries : List (String × α)
  sorted : entries.Pairwise (fun a b => a.1 < b.1)

def LockedMap.keys (m : LockedMap α) : List String := m.entries.map Prod.fst

def LockedMap.values (m : LockedMap α) : List α := m.entries.map Prod.snd

/-- Where some content is: at a URL, in the reference itself, or under a digest. -/
structure ContentRef where
  source : Option String
  inline : Option Bytes
  digest : Option Digest
  deriving DecidableEq

structure ContentPath where
  content : ContentRef
  path : PathBuf
  deriving DecidableEq

structure LockedComponent where
  id : String
  source : ContentRef
  dependencies : LockedMap ContentRef
  files : List ContentPath

structure LockedTrigger where
  id : String
  triggerType : String
  /-- The component that the trigger's configuration names. -/
  component : Option String
  triggerConfig : Json
  deriving DecidableEq

structure LockedApp where
  metadata : LockedMap Json
  appVariables : LockedMap Json
  triggers : List LockedTrigger
  components : List LockedComponent

/-- The references that are loaded as Wasm. -/
def LockedComponent.wasmRefs (c : LockedComponent) : List ContentRef :=
  c.source :: c.dependencies.values

def LockedApp.wasmRefs (app : LockedApp) : List ContentRef :=
  app.components.flatMap LockedComponent.wasmRefs

end ShimSpin
