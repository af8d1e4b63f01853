import Mathlib.Data.List.TakeWhile
import ShimSpin.Panics
import ShimSpin.Provenance

namespace ShimSpin
set_option autoImplicit true

/-- An entry of the container's environment, taken apart at its first `=`. An entry without one
stands for its key with an empty value. -/
def Entry (v key value : String) : Prop :=
  '=' ∉ key.toList ∧ (v = key ++ "=" ++ value ∨ v = key ∧ value = "")

def LastAssigns (envs : List String) (key value : String) : Prop :=
  ∃ before v after, envs = before ++ v :: after ∧ Entry v key value ∧
    ∀ u ∈ after, ∀ other, ¬ Entry u key other

/-- Every well-formed key has the value of its last entry, and everything else stays. -/
structure ImportsLast (envs : List String) (E E' : Env) : Prop where
  assigned : ∀ key value, ValidName key → LastAssigns envs key value →
    E'.get key = some (.utf8 value)
  kept : ∀ name, (∀ v ∈ envs, ∀ key value, Entry v key value → name ≠ .utf8 key) →
    E'.get name = E.get name

def Importable (v : String) : Prop :=
  v ≠ "" ∧ v.toList.head? ≠ some '=' ∧ '\x00' ∉ v.toList

variable {envs : List String} {E E' : Env} {v key value : String}

theorem toList_assign (key value : String) :
    (key ++ "=" ++ value).toList = key.toList ++ '=' :: value.toList := by
  rw [String.toList_append, String.toList_append, List.append_assoc]
  rfl

theorem splitEnv_assigns (h : '=' ∉ key.toList) :
    splitEnv (key ++ "=" ++ value) = (key, value) := by
  have hall : ∀ c ∈ key.toList, decide (c ≠ '=') = true :=
    fun c hc => decide_eq_true fun he => h (he ▸ hc)
  have hspan : (key ++ "=" ++ value).toList.span (· ≠ '=') = (key.toList, '=' :: value.toList) := by
    rw [toList_assign, List.span_eq_takeWhile_dropWhile, List.takeWhile_append_of_pos hall,
      List.dropWhile_append_of_pos hall]
    simp only [ne_eq, not_true_eq_false, decide_false, Bool.false_eq_true, not_false_eq_true,
      List.takeWhile_cons_of_neg, List.append_nil, List.dropWhile_cons_of_neg]
  rw [splitEnv, hspan]
  simp only [String.ofList_toList]

theorem splitEnv_bare (h : '=' ∉ key.toList) : splitEnv key = (key, "") := by
  have hall : ∀ c ∈ key.toList, decide (c ≠ '=') = true :=
    fun c hc => decide_eq_true fun he => h (he ▸ hc)
  have hspan : key.toList.span (· ≠ '=') = (key.toList, []) := by
    rw [List.span_eq_takeWhile_dropWhile, List.takeWhile_eq_self_iff.2 hall,
      List.dropWhile_eq_nil_iff.2 hall]
  rw [splitEnv, hspan]
  simp only [String.ofList_toList]

theorem splitEnv_entry (v : String) : Entry v (splitEnv v).1 (splitEnv v).2 := by
  by_cases h : '=' ∈ v.toList
  · obtain ⟨key, value, hlist, hkey⟩ := List.eq_append_cons_of_mem h
    have hkey' : '=' ∉ (String.ofList key).toList := by rwa [String.toList_ofList]
    have hv : v = String.ofList key ++ "=" ++ String.ofList value := by
      apply String.toList_inj.1
      rw [hlist, toList_assign, String.toList_ofList, String.toList_ofList]
    rw [hv, splitEnv_assigns hkey']
    exact ⟨hkey', .inl rfl⟩
  · rw [splitEnv_bare h]
    exact ⟨h, .inr ⟨rfl, rfl⟩⟩

theorem entry_iff : Entry v key value ↔ splitEnv v = (key, value) := by
  apply Iff.intro
  · intro h
    obtain ⟨hkey, rfl | ⟨rfl, rfl⟩⟩ := h
    · exact splitEnv_assigns hkey
    · exact splitEnv_bare hkey
  · intro h
    have he := splitEnv_entry v
    rw [h] at he
    exact he

theorem entry_key : (∃ other, Entry v key other) ↔ (splitEnv v).1 = key := by
  apply Iff.intro
  · intro h
    obtain ⟨other, ho⟩ := h
    rw [entry_iff.1 ho]
  · intro h
    exact ⟨(splitEnv v).2, h ▸ splitEnv_entry v⟩

theorem lastEntry_of_lastAssigns (h : LastAssigns envs key value) :
    lastEntry envs key = some value := by
  obtain ⟨before, v, after, rfl, hv, hafter⟩ := h
  have hnone : after.reverse.find? (fun u => (splitEnv u).1 = key) = none := by
    rw [List.find?_eq_none]
    intro u hu hk
    obtain ⟨other, ho⟩ := entry_key.2 (of_decide_eq_true hk)
    exact hafter u (List.mem_reverse.1 hu) other ho
  rw [lastEntry, List.reverse_append, List.reverse_cons, List.append_assoc, List.find?_append,
    hnone, Option.none_or, List.singleton_append, List.find?_cons, entry_iff.1 hv]
  simp only [decide_true, Option.map_some, entry_iff.1 hv]

theorem importable_iff : Importable v ↔ Settable v := by
  have hentry := splitEnv_entry v
  rw [Importable, Settable, ValidName, OsString.NulFree]
  generalize (splitEnv v).1 = key at hentry ⊢
  generalize (splitEnv v).2 = value at hentry ⊢
  obtain ⟨hkey, rfl | ⟨rfl, rfl⟩⟩ := hentry
  · have hlist := toList_assign key value
    have hne : key ++ "=" ++ value ≠ "" := by
      intro he
      rw [he] at hlist
      exact List.append_ne_nil_of_right_ne_nil _ (List.cons_ne_nil _ _) hlist.symm
    have hhead : (key ++ "=" ++ value).toList.head? ≠ some '=' ↔ key ≠ "" := by
      rw [hlist, ne_eq, ne_eq, ← String.toList_eq_nil_iff]
      cases hk : key.toList with
      | nil => exact iff_of_false (fun hn => hn rfl) (fun hn => hn rfl)
      | cons c cs =>
        rw [hk] at hkey
        apply iff_of_true
        · intro he
          rw [List.cons_append, List.head?_cons, Option.some.injEq] at he
          exact hkey (he ▸ List.mem_cons_self)
        · exact List.cons_ne_nil c cs
    rw [hhead, hlist]
    simp only [hne, hkey, ne_eq, not_false_eq_true, true_and, List.mem_append, List.mem_cons,
      Char.reduceEq, false_or, not_or, and_assoc]
  · have hhead (hne : v ≠ "") : v.toList.head? ≠ some '=' :=
      fun he => hkey (List.mem_of_mem_head? he)
    simp only [hkey, not_false_eq_true, true_and, String.toList_empty, List.not_mem_nil,
      and_true]
    exact ⟨fun h => ⟨h.1, h.2.2⟩, fun h => ⟨h.1, hhead h.1, h.2⟩⟩

theorem importEnvs_ok (E : Env) (h : ∀ v ∈ envs, Settable v) :
    ∃ E', importEnvs envs E = .ok E' := by
  induction envs generalizing E with
  | nil => exact ⟨E, rfl⟩
  | cons v envs ih =>
    rw [List.forall_mem_cons] at h
    obtain ⟨E', hE'⟩ := ih (E.set (splitEnv v).1 (splitEnv v).2 h.1.1 h.1.2) h.2
    exact ⟨E', bind_eq_ok.2 ⟨_, setVar_ok h.1.1 h.1.2, hE'⟩⟩

theorem importsLast (h : importEnvs envs E = .ok E') : ImportsLast envs E E' := by
  apply ImportsLast.mk
  · intro key value _ hlast
    rw [importEnvs_get h, imported, lastEntry_of_lastAssigns hlast]
    rfl
  · intro name hname
    induction envs generalizing E with
    | nil =>
      cases h
      rfl
    | cons v envs ih =>
      obtain ⟨E₁, h₁, h⟩ := bind_eq_ok.1 h
      rw [ih h fun u hu => hname u (List.mem_cons_of_mem v hu), setVar_get h₁,
        if_neg (hname v List.mem_cons_self _ _ (splitEnv_entry v))]

/-- The import of the container's environment comes to its end, with the last entry for each key
deciding, exactly when no entry is empty, starts with `=` or has a NUL byte. -/
theorem importEnvs_total_iff (envs : List String) (E : Env) :
    (∃ E', importEnvs envs E = .ok E' ∧ ImportsLast envs E E') ↔ ∀ v ∈ envs, Importable v := by
  apply Iff.intro
  · intro ⟨E', h, _⟩
    by_contra hn
    have hp : ∃ v ∈ envs, ¬ Settable v := by
      simp only [not_forall] at hn
      obtain ⟨v, hv, hi⟩ := hn
      exact ⟨v, hv, fun hs => hi (importable_iff.2 hs)⟩
    obtain ⟨m, hp⟩ := importEnvs_panics_iff.2 hp
    rw [h] at hp
    cases hp
  · intro hall
    obtain ⟨E', h⟩ := importEnvs_ok E fun v hv => importable_iff.1 (hall v hv)
    exact ⟨E', h, importsLast h⟩

/-- The first entry without a key ends the container. -/
theorem keyless_entry_panics : (importEnvs ["PATH=/bin", "=x"] .empty).Panics := by
  rw [importEnvs_panics_iff]
  apply Exists.intro "=x"
  rw [← importable_iff]
  exact ⟨by decide, fun h => h.2.1 rfl⟩

end ShimSpin
