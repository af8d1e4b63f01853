import Mathlib.Data.List.Basic
import ShimSpin.Outcome

namespace ShimSpin
set_option autoImplicit true

/-- An operating system string: the text it spells, or bytes that spell none. -/
inductive OsString where
  | utf8 (s : String)
  | raw (bytes : ByteArray) (invalid : ¬ bytes.IsValidUTF8)

instance : DecidableEq OsString
  | .utf8 s, .utf8 t => decidable_of_iff (s = t) ⟨congrArg _, OsString.utf8.inj⟩
  | .raw a _, .raw b _ => decidable_of_iff (a.data = b.data)
    ⟨fun h => by cases a; cases b; cases h; rfl, fun h => by cases h; rfl⟩
  | .utf8 _, .raw _ _ => .isFalse nofun
  | .raw _ _, .utf8 _ => .isFalse nofun

instance : Coe String OsString := ⟨.utf8⟩

def OsString.toStr : OsString → Option String
  | .utf8 s => some s
  | .raw _ _ => none

theorem OsString.toStr_eq_some {o : OsString} {s : String} :
    o.toStr = some s ↔ o = .utf8 s := by
  cases o <;> simp [OsString.toStr]

def OsString.NulFree : OsString → Prop
  | .utf8 s => '\x00' ∉ s.toList
  | .raw b _ => 0 ∉ b.data.toList

instance : DecidablePred OsString.NulFree
  | .utf8 s => inferInstanceAs (Decidable ('\x00' ∉ s.toList))
  | .raw b _ => inferInstanceAs (Decidable (0 ∉ b.data.toList))

/-- The names `env::set_var` accepts. -/
def ValidName (name : String) : Prop :=
  name ≠ "" ∧ '=' ∉ name.toList ∧ '\x00' ∉ name.toList

instance : DecidablePred ValidName := fun name =>
  inferInstanceAs (Decidable (name ≠ "" ∧ '=' ∉ name.toList ∧ '\x00' ∉ name.toList))

/-- The environment of the process. Only a name that could be set has a value: under one with a
`=` the system finds nothing, and `env::var` says so. -/
@[ext] structure Env where
  get : OsString → Option OsString
  name_valid : ∀ {s : String} {v}, get s = some v → ValidName s
  value_valid : ∀ {n v}, get n = some v → v.NulFree

def Env.empty : Env := ⟨fun _ => none, nofun, nofun⟩

/-- `env::var`: a value that is not text is reported like a missing one. -/
def Env.var (E : Env) (name : String) : Option String := (E.get name).bind OsString.toStr

def Env.set (E : Env) (name : String) (value : OsString) (hn : ValidName name)
    (hv : value.NulFree) : Env where
  get n := if n = name then some value else E.get n
  name_valid {s v} h := by
    split at h
    · rename_i he
      cases he
      exact hn
    · exact E.name_valid h
  value_valid {n v} h := by
    split at h
    · cases h
      exact hv
    · exact E.value_valid h

/-- `env::set_var` unwinds on a name or a value the system cannot hold. -/
def setVar (E : Env) (name : String) (value : OsString) : Outcome Env :=
  if h : ValidName name ∧ value.NulFree then .ok (E.set name value h.1 h.2)
  else panicking "failed to set environment variable"

theorem Env.set_get {E : Env} {name : String} {value : OsString} {hn hv} (n : OsString) :
    (E.set name value hn hv).get n = if n = name then some value else E.get n := rfl

theorem setVar_ok {E : Env} {name : String} {value : OsString} (hn : ValidName name)
    (hv : value.NulFree) : setVar E name value = .ok (E.set name value hn hv) :=
  dif_pos ⟨hn, hv⟩

theorem setVar_eq_ok {E E' : Env} {name : String} {value : OsString} :
    setVar E name value = .ok E' ↔ ∃ hn hv, E' = E.set name value hn hv := by
  unfold setVar
  split
  · rename_i h
    apply Iff.intro
    · intro he
      cases he
      exact ⟨h.1, h.2, rfl⟩
    · rintro ⟨hn, hv, rfl⟩
      rfl
  · rename_i h
    apply Iff.intro
    · intro he
      cases he
    · rintro ⟨hn, hv, rfl⟩
      exact (h ⟨hn, hv⟩).elim

theorem setVar_get {E E' : Env} (h : setVar E name value = .ok E') (n : OsString) :
    E'.get n = if n = name then some value else E.get n := by
  obtain ⟨hn, hv, rfl⟩ := setVar_eq_ok.1 h
  exact Env.set_get n

theorem Env.var_eq_some {E : Env} {name v : String} :
    E.var name = some v ↔ E.get name = some (.utf8 v) := by
  unfold Env.var
  cases E.get name with
  | none => simp
  | some o => simp [OsString.toStr_eq_some]

theorem Env.var_valid {E : Env} (h : E.var name = some v) : ValidName name :=
  E.name_valid (Env.var_eq_some.1 h)

theorem Env.var_nulFree {E : Env} (h : E.var name = some v) : (OsString.utf8 v).NulFree :=
  E.value_valid (Env.var_eq_some.1 h)

theorem Env.var_congr {E E' : Env} {name : String} (h : E.get name = E'.get name) :
    E.var name = E'.var name := by
  unfold Env.var
  rw [h]

/-- `str::to_ascii_uppercase`. -/
def toAsciiUppercase (s : String) : String := String.ofList (s.toList.map Char.toUpper)

end ShimSpin
