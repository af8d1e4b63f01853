import ShimSpin.Lib.Copies
import ShimSpin.InMemory

namespace ShimSpin
open KeyedCopy
set_option autoImplicit true

variable {keys order : List String} {E E' : Env} {app : LockedApp} {k v : String}

/-- Each name under the prefix gets the value that its variable had before, and nothing else
changes. -/
def AssignsSimultaneously (keys : List String) (E E' : Env) : Prop :=
  ∀ n, (∀ k ∈ keys, ∀ v, n = .utf8 (prefixed (toAsciiUppercase k)) →
      E.var (toAsciiUppercase k) = some v → E'.get n = some (.utf8 v)) ∧
    ((∀ k ∈ keys, n = .utf8 (prefixed (toAsciiUppercase k)) →
      E.var (toAsciiUppercase k) = none) → E'.get n = E.get n)

/-- A variable that has the prefixed name of another is set, or will be, to the value of that
one. -/
def Unrelayed (keys : List String) (E : Env) : Prop :=
  ∀ j ∈ keys, ∀ k ∈ keys, toAsciiUppercase k = prefixed (toAsciiUppercase j) →
    ∀ v, E.var (toAsciiUppercase j) = some v → E.var (toAsciiUppercase k) = some v ∨
      E.var (toAsciiUppercase k) = none ∧
        E.get (prefixed (toAsciiUppercase k)) = some (.utf8 v)

theorem prefixed_injective : Function.Injective prefixed :=
  fun _ _ h => (String.append_right_inj _).1 h

theorem prefixed_ne (name : String) : name ≠ prefixed name := by
  intro h
  have hlen := congrArg String.length h
  simp only [prefixed, String.length_append] at hlen
  have hprefix : "_".length = 1 := by decide
  omega

theorem prefixed_head (name : String) : (prefixed name).toList.head? = some 'S' := by
  have hlist : (prefixed name).toList = (spinApplicationVariablePrefix ++ "_").toList ++
      name.toList := String.toList_append
  have hhead : (spinApplicationVariablePrefix ++ "_").toList = 'S' :: "PIN_VARIABLE_".toList := by
    decide
  rw [hlist, hhead]
  rfl

theorem prefixed_ne_of_head {name other : String} (h : other.toList.head? ≠ some 'S') :
    prefixed name ≠ other :=
  fun he => h (he ▸ prefixed_head name)

theorem prefixed_valid {name : String} (h : ValidName name) : ValidName (prefixed name) := by
  have hlist : (prefixed name).toList = (spinApplicationVariablePrefix ++ "_").toList ++
      name.toList := String.toList_append
  have hclean : '=' ∉ (spinApplicationVariablePrefix ++ "_").toList ∧
      '\x00' ∉ (spinApplicationVariablePrefix ++ "_").toList := by decide
  have hnot {c : Char} (hp : c ∉ (spinApplicationVariablePrefix ++ "_").toList)
      (hn : c ∉ name.toList) : c ∉ (prefixed name).toList := by
    rw [hlist, List.mem_append]
    intro hm
    rcases hm with hm | hm
    · exact hp hm
    · exact hn hm
  refine ⟨?_, hnot hclean.1 h.2.1, hnot hclean.2 h.2.2⟩
  intro he
  have hlen := congrArg List.length (he ▸ hlist)
  rw [List.length_append] at hlen
  have hpos : (spinApplicationVariablePrefix ++ "_").toList.length = 14 := by decide
  have hzero : "".toList.length = 0 := rfl
  omega

/-- Configuring a variable copies text from the upper-case name to the prefixed one. -/
def variableCopies : Copies String OsString OsString where
  src k := toAsciiUppercase k
  dst k := prefixed (toAsciiUppercase k)
  ok o := o.toStr.isSome
  src_of_dst h := congrArg _ (prefixed_injective (OsString.utf8.inj h))
  src_ne_dst _ h := prefixed_ne _ (OsString.utf8.inj h)

theorem variableCopies_read (E : Env) (k : String) :
    variableCopies.read E.get k = (E.var (toAsciiUppercase k)).map .utf8 := by
  simp only [Copies.read, variableCopies, Env.var]
  cases E.get (toAsciiUppercase k) with
  | none => rfl
  | some o => cases o <;> rfl

theorem configureVariable_ok (E : Env) (k : String) :
    ∃ E', configureVariable E (toAsciiUppercase k) = .ok E' ∧
      E'.get = variableCopies.step E.get k := by
  cases hv : E.var (toAsciiUppercase k) with
  | none =>
    have hread : variableCopies.read E.get k = none := by rw [variableCopies_read, hv]; rfl
    simp only [configureVariable, hv, Copies.step, hread]
    exact ⟨E, rfl, rfl⟩
  | some v =>
    have hread : variableCopies.read E.get k = some (.utf8 v) := by
      rw [variableCopies_read, hv]
      rfl
    have hset := setVar_ok (E := E) (prefixed_valid (Env.var_valid hv)) (Env.var_nulFree hv)
    simp only [configureVariable, hv, Copies.step, hread, hset]
    refine ⟨_, rfl, ?_⟩
    funext n
    rw [Env.set_get, Function.update_apply]
    rfl

/-- The loop over the variables always ends, in what its copies leave. -/
theorem configureVariables_ok (keys : List String) (E : Env) :
    ∃ E', configureVariables keys E = .ok E' ∧ E'.get = variableCopies.run keys E.get := by
  induction keys generalizing E with
  | nil => exact ⟨E, rfl, rfl⟩
  | cons k keys ih =>
    obtain ⟨E₁, h₁, hg₁⟩ := configureVariable_ok E k
    obtain ⟨E₂, h₂, hg₂⟩ := ih E₁
    refine ⟨E₂, ?_, ?_⟩
    · simp only [configureVariables, List.map_cons, List.foldlM_cons, h₁, ok_bind]
      exact h₂
    · rw [hg₂, hg₁]
      rfl

theorem configureVariables_get (h : configureVariables keys E = .ok E') :
    E'.get = variableCopies.run keys E.get := by
  obtain ⟨E₁, h₁, hg⟩ := configureVariables_ok keys E
  rw [h, Except.ok.injEq] at h₁
  rw [h₁, hg]

theorem configureVariables_not_panics : ¬ (configureVariables keys E).Panics := by
  obtain ⟨E', h, _⟩ := configureVariables_ok keys E
  rw [h]
  exact pure_not_panics E'

theorem assignsSimultaneously_iff :
    AssignsSimultaneously keys E E' ↔ Simultaneous variableCopies keys E.get E'.get := by
  apply Iff.intro
  · intro h
    apply Simultaneous.mk
    · intro k hk o ho
      rw [variableCopies_read, Option.map_eq_some_iff] at ho
      obtain ⟨v, hv, rfl⟩ := ho
      exact (h _).1 k hk v rfl hv
    · intro n hn
      apply (h n).2
      intro k hk hd
      have hread := hn k hk hd.symm
      rwa [variableCopies_read, Option.map_eq_none_iff] at hread
  · intro h n
    apply And.intro
    · intro k hk v hn hv
      subst hn
      apply h.copied k hk
      rw [variableCopies_read, hv]
      rfl
    · intro hn
      apply h.kept
      intro k hk hd
      rw [variableCopies_read, hn k hk hd.symm]
      rfl

theorem unrelayed_iff : Unrelayed keys E ↔ Settled variableCopies keys E.get := by
  have hsrc (j k : String) : variableCopies.src k = variableCopies.dst j ↔
      toAsciiUppercase k = prefixed (toAsciiUppercase j) := OsString.utf8.injEq _ _ ▸ Iff.rfl
  have hread (k : String) (v : String) : variableCopies.read E.get k = some (.utf8 v) ↔
      E.var (toAsciiUppercase k) = some v := by
    rw [variableCopies_read, Option.map_eq_some_iff]
    simp only [OsString.utf8.injEq, exists_eq_right]
  have hnone (k : String) : variableCopies.read E.get k = none ↔
      E.var (toAsciiUppercase k) = none := by
    rw [variableCopies_read, Option.map_eq_none_iff]
  apply Iff.intro
  · intro h j hj k hk he o ho
    have htext : ∃ v, o = .utf8 v := by
      rw [variableCopies_read, Option.map_eq_some_iff] at ho
      obtain ⟨v, _, he⟩ := ho
      exact ⟨v, he.symm⟩
    obtain ⟨v, rfl⟩ := htext
    rw [hread, hnone]
    exact h j hj k hk ((hsrc j k).1 he) v ((hread j v).1 ho)
  · intro h j hj k hk he v hv
    have hs := h j hj k hk ((hsrc j k).2 he) (.utf8 v) ((hread j v).2 hv)
    rwa [hread, hnone] at hs

theorem Unrelayed.configure (h : Unrelayed keys E) (hp : order.Perm keys)
    (hc : configureVariables order E = .ok E') : AssignsSimultaneously keys E E' := by
  rw [assignsSimultaneously_iff, configureVariables_get hc]
  exact (unrelayed_iff.1 h).run hp

/-- The variables are assigned all at once, whatever order they are visited in, exactly when
none of them relays a value that another one has just been given. -/
theorem configure_simultaneous_iff (app : LockedApp) (E : Env) :
    (∃ E', configureApplicationVariablesFromEnvironmentVariables app E = .ok E' ∧
      AssignsSimultaneously app.appVariables.keys E E' ∧
      ∀ order : List String, order.Perm app.appVariables.keys →
        configureVariables order E = .ok E') ↔
      Unrelayed app.appVariables.keys E := by
  apply Iff.intro
  · intro ⟨E', _, hassign, horders⟩
    rw [unrelayed_iff]
    apply Settled.of_orders
    intro order hp
    rw [← configureVariables_get (horders order hp)]
    exact assignsSimultaneously_iff.1 hassign
  · intro h
    obtain ⟨E', hc, _⟩ := configureVariables_ok app.appVariables.keys E
    have hassign := h.configure (.refl _) hc
    refine ⟨E', hc, hassign, ?_⟩
    intro order hp
    obtain ⟨E₁, h₁, _⟩ := configureVariables_ok order E
    have hassign₁ := h.configure hp h₁
    rw [assignsSimultaneously_iff] at hassign hassign₁
    rw [h₁, Env.ext (hassign₁.unique hassign)]

def relayApp : LockedApp :=
  ⟨.empty, ⟨[("a", ""), ("spin_variable_a", "")], by decide⟩, [], []⟩

def relayEnv : Env := Env.empty.set "A" "1" (by decide) (by decide)

theorem relayed_variable :
    ¬ ∃ E', configureApplicationVariablesFromEnvironmentVariables relayApp relayEnv = .ok E' ∧
      AssignsSimultaneously relayApp.appVariables.keys relayEnv E' := by
  intro ⟨E', h, hassign⟩
  have hrelay : E'.get "SPIN_VARIABLE_SPIN_VARIABLE_A" = some (.utf8 "1") := by
    rw [configureVariables_get h]
    decide
  have hkept : E'.get "SPIN_VARIABLE_SPIN_VARIABLE_A" =
      relayEnv.get "SPIN_VARIABLE_SPIN_VARIABLE_A" := by
    apply (hassign _).2
    decide
  have hunset : relayEnv.get "SPIN_VARIABLE_SPIN_VARIABLE_A" = none := by decide
  rw [hrelay, hunset] at hkept
  cases hkept

end ShimSpin
