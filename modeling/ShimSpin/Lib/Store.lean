import Mathlib.Logic.Function.Basic
import Mathlib.Data.List.Perm.Basic

namespace KeyedStore
set_option autoImplicit true

/-- A store holds at most one value under each key. -/
abbrev Store (κ β : Type) := κ → Option β

/-- A write either overwrites its key or leaves a key that is already taken alone. -/
inductive Op (κ β : Type) where
  | put (k : κ) (v : β)
  | fill (k : κ) (v : β)
  deriving DecidableEq

variable {κ β : Type} [DecidableEq κ]

def Op.apply : Op κ β → Store κ β → Store κ β
  | .put k v, s => Function.update s k (some v)
  | .fill k v, s => Function.update s k ((s k).or (some v))

def run (ops : List (Op κ β)) (s : Store κ β) : Store κ β :=
  ops.foldl (fun s o => o.apply s) s

def putAt (k : κ) : Op κ β → Option β
  | .put j v => if j = k then some v else none
  | .fill _ _ => none

def fillAt (k : κ) : Op κ β → Option β
  | .put _ _ => none
  | .fill j v => if j = k then some v else none

/-- The value of the last overwrite of a key. -/
def lastPut (k : κ) (ops : List (Op κ β)) : Option β := ops.reverse.findSome? (putAt k)

/-- The value of the first guarded write to a key. -/
def firstFill (k : κ) (ops : List (Op κ β)) : Option β := ops.findSome? (fillAt k)

@[simp] theorem run_nil (s : Store κ β) : run [] s = s := rfl

@[simp] theorem run_cons (o : Op κ β) (ops : List (Op κ β)) (s : Store κ β) :
    run (o :: ops) s = run ops (o.apply s) := rfl

theorem run_append (ops ops' : List (Op κ β)) (s : Store κ β) :
    run (ops ++ ops') s = run ops' (run ops s) := by
  simp only [run, List.foldl_append]

theorem Op.apply_key (o : Op κ β) (s : Store κ β) (k : κ) :
    o.apply s k = (putAt k o).or ((s k).or (fillAt k o)) := by
  cases o with
  | put j v =>
    simp only [Op.apply, Function.update_apply, putAt, fillAt, Option.or_none]
    by_cases h : j = k
    · rw [if_pos h.symm, if_pos h, Option.some_or]
    · rw [if_neg (Ne.symm h), if_neg h, Option.none_or]
  | fill j v =>
    simp only [Op.apply, Function.update_apply, putAt, fillAt, Option.none_or]
    by_cases h : j = k
    · subst h
      rw [if_pos rfl, if_pos rfl]
    · rw [if_neg (Ne.symm h), if_neg h, Option.or_none]

theorem lastPut_cons (k : κ) (o : Op κ β) (ops : List (Op κ β)) :
    lastPut k (o :: ops) = (lastPut k ops).or (putAt k o) := by
  simp only [lastPut, List.reverse_cons, List.findSome?_append, List.findSome?_cons,
    List.findSome?_nil]
  cases putAt k o <;> rfl

theorem firstFill_cons (k : κ) (o : Op κ β) (ops : List (Op κ β)) :
    firstFill k (o :: ops) = (fillAt k o).or (firstFill k ops) := by
  simp only [firstFill, List.findSome?_cons]
  cases fillAt k o <;> rfl

theorem lastPut_append (k : κ) (ops ops' : List (Op κ β)) :
    lastPut k (ops ++ ops') = (lastPut k ops').or (lastPut k ops) := by
  simp only [lastPut, List.reverse_append, List.findSome?_append]

theorem firstFill_append (k : κ) (ops ops' : List (Op κ β)) :
    firstFill k (ops ++ ops') = (firstFill k ops).or (firstFill k ops') := by
  simp only [firstFill, List.findSome?_append]

/-- What a run leaves under a key: the last overwrite, else what was there, else the
first guarded write. -/
theorem run_key (ops : List (Op κ β)) (s : Store κ β) (k : κ) :
    run ops s k = (lastPut k ops).or ((s k).or (firstFill k ops)) := by
  induction ops generalizing s with
  | nil => simp only [run_nil, lastPut, firstFill, List.reverse_nil, List.findSome?_nil,
      Option.none_or, Option.or_none]
  | cons o ops ih =>
    rw [run_cons, ih, Op.apply_key, lastPut_cons, firstFill_cons]
    cases o with
    | put j v =>
      by_cases h : j = k
      · simp only [putAt, fillAt, if_pos h, Option.some_or, Option.none_or, Option.or_assoc]
      · simp only [putAt, fillAt, if_neg h, Option.none_or, Option.or_none]
    | fill j v =>
      simp only [putAt, Option.none_or, Option.or_none, Option.or_assoc]

/-- Writes that were cut short can be carried out from the start. -/
theorem run_of_prefix {ops ops' : List (Op κ β)} (h : ops' <+: ops) (s : Store κ β) :
    run ops (run ops' s) = run ops s := by
  obtain ⟨rest, rfl⟩ := h
  funext k
  rw [run_key, run_key, run_key, lastPut_append, firstFill_append]
  cases lastPut k rest with
  | some v => simp only [Option.some_or]
  | none =>
    cases lastPut k ops' with
    | some v => simp only [Option.none_or, Option.some_or]
    | none =>
      cases s k with
      | some v => simp only [Option.none_or, Option.some_or]
      | none => cases firstFill k ops' <;> simp only [Option.none_or, Option.some_or]

theorem putAt_eq_some {k : κ} {o : Op κ β} {v : β} : putAt k o = some v ↔ o = .put k v := by
  cases o with
  | put j w =>
    by_cases h : j = k
    · subst h
      simp only [putAt, ↓reduceIte, Option.some.injEq, Op.put.injEq, true_and]
    · simp only [putAt, h, ↓reduceIte, Op.put.injEq, false_and, reduceCtorEq]
  | fill j w => simp only [putAt, reduceCtorEq]

theorem fillAt_eq_some {k : κ} {o : Op κ β} {v : β} : fillAt k o = some v ↔ o = .fill k v := by
  cases o with
  | put j w => simp only [fillAt, reduceCtorEq]
  | fill j w =>
    by_cases h : j = k
    · subst h
      simp only [fillAt, ↓reduceIte, Option.some.injEq, Op.fill.injEq, true_and]
    · simp only [fillAt, h, ↓reduceIte, Op.fill.injEq, false_and, reduceCtorEq]

theorem mem_of_lastPut {ops : List (Op κ β)} (h : lastPut k ops = some v) : .put k v ∈ ops := by
  obtain ⟨o, ho, hk⟩ := List.exists_of_findSome?_eq_some h
  rw [putAt_eq_some] at hk
  subst hk
  exact List.mem_reverse.1 ho

theorem mem_of_firstFill {ops : List (Op κ β)} (h : firstFill k ops = some v) :
    .fill k v ∈ ops := by
  obtain ⟨o, ho, hk⟩ := List.exists_of_findSome?_eq_some h
  rw [fillAt_eq_some] at hk
  exact hk ▸ ho

theorem lastPut_isSome {ops : List (Op κ β)} (h : .put k v ∈ ops) : (lastPut k ops).isSome := by
  rw [Option.isSome_iff_ne_none]
  intro hn
  have := List.findSome?_eq_none_iff.1 hn _ (List.mem_reverse.2 h)
  rw [putAt_eq_some.2 rfl] at this
  cases this

theorem firstFill_isSome {ops : List (Op κ β)} (h : .fill k v ∈ ops) :
    (firstFill k ops).isSome := by
  rw [Option.isSome_iff_ne_none]
  intro hn
  have := List.findSome?_eq_none_iff.1 hn _ h
  rw [fillAt_eq_some.2 rfl] at this
  cases this

/-- No two overwrites, and no two guarded writes, disagree about a key. -/
structure Agree (ops : List (Op κ β)) : Prop where
  put : ∀ {k v v'}, .put k v ∈ ops → .put k v' ∈ ops → v = v'
  fill : ∀ {k v v'}, .fill k v ∈ ops → .fill k v' ∈ ops → v = v'

omit [DecidableEq κ] in
theorem Agree.perm {ops ops' : List (Op κ β)} (h : Agree ops) (hp : ops.Perm ops') :
    Agree ops' :=
  ⟨fun h₁ h₂ => h.put (hp.mem_iff.2 h₁) (hp.mem_iff.2 h₂),
    fun h₁ h₂ => h.fill (hp.mem_iff.2 h₁) (hp.mem_iff.2 h₂)⟩

theorem Agree.lastPut {ops : List (Op κ β)} (h : Agree ops) (hm : .put k v ∈ ops) :
    lastPut k ops = some v := by
  obtain ⟨w, hw⟩ := Option.isSome_iff_exists.1 (lastPut_isSome hm)
  rw [hw, h.put (mem_of_lastPut hw) hm]

theorem Agree.firstFill {ops : List (Op κ β)} (h : Agree ops) (hm : .fill k v ∈ ops) :
    firstFill k ops = some v := by
  obtain ⟨w, hw⟩ := Option.isSome_iff_exists.1 (firstFill_isSome hm)
  rw [hw, h.fill (mem_of_firstFill hw) hm]

theorem lastPut_perm {ops ops' : List (Op κ β)} (h : Agree ops) (hp : ops.Perm ops') (k : κ) :
    lastPut k ops = lastPut k ops' := by
  cases hl : lastPut k ops with
  | some v => exact ((h.perm hp).lastPut (hp.mem_iff.1 (mem_of_lastPut hl))).symm
  | none =>
    cases hr : lastPut k ops' with
    | none => rfl
    | some v =>
      have hs := lastPut_isSome (hp.mem_iff.2 (mem_of_lastPut hr))
      rw [hl] at hs
      cases hs

theorem firstFill_perm {ops ops' : List (Op κ β)} (h : Agree ops) (hp : ops.Perm ops')
    (k : κ) : firstFill k ops = firstFill k ops' := by
  cases hl : firstFill k ops with
  | some v => exact ((h.perm hp).firstFill (hp.mem_iff.1 (mem_of_firstFill hl))).symm
  | none =>
    cases hr : firstFill k ops' with
    | none => rfl
    | some v =>
      have hs := firstFill_isSome (hp.mem_iff.2 (mem_of_firstFill hr))
      rw [hl] at hs
      cases hs

theorem run_perm {ops ops' : List (Op κ β)} (h : Agree ops) (hp : ops.Perm ops')
    (s : Store κ β) : run ops s = run ops' s := by
  funext k
  rw [run_key, run_key, lastPut_perm h hp, firstFill_perm h hp]

/-- Overwrites made item by item: the last item that writes the key decides. -/
theorem lastPut_flatMap {α : Type} (f : α → List (Op κ β)) (xs : List α) (k : κ) :
    lastPut k (xs.flatMap f) = xs.reverse.findSome? (fun x => lastPut k (f x)) := by
  induction xs with
  | nil => rfl
  | cons x xs ih =>
    rw [List.flatMap_cons, lastPut_append, ih, List.reverse_cons, List.findSome?_append,
      List.findSome?_cons, List.findSome?_nil]
    cases lastPut k (f x) <;> rfl

theorem firstFill_flatMap {α : Type} (f : α → List (Op κ β)) (xs : List α) (k : κ) :
    firstFill k (xs.flatMap f) = xs.findSome? (fun x => firstFill k (f x)) := by
  induction xs with
  | nil => rfl
  | cons x xs ih =>
    rw [List.flatMap_cons, firstFill_append, ih, List.findSome?_cons]
    cases firstFill k (f x) <;> rfl

/-- Writes of one kind to one key, of values that are related there. -/
inductive Op.Related (R : κ → β → γ → Prop) : Op κ β → Op κ γ → Prop where
  | put : R k v v' → Op.Related R (.put k v) (.put k v')
  | fill : R k v v' → Op.Related R (.fill k v) (.fill k v')

/-- Stores with the same keys and related values. -/
def Store.Related (R : κ → β → γ → Prop) (s : Store κ β) (s' : Store κ γ) : Prop :=
  ∀ k, Option.Rel (R k) (s k) (s' k)

variable {γ : Type} {R : κ → β → γ → Prop} {s : Store κ β} {s' : Store κ γ} {o : Op κ β}
  {o' : Op κ γ} {ops : List (Op κ β)} {ops' : List (Op κ γ)}

theorem Op.Related.apply (h : Op.Related R o o') (hs : Store.Related R s s') :
    Store.Related R (o.apply s) (o'.apply s') := by
  cases h with
  | @put k v v' hv =>
    intro j
    simp only [Op.apply, Function.update_apply]
    by_cases hj : j = k
    · rw [if_pos hj, if_pos hj, hj]
      exact .some hv
    · rw [if_neg hj, if_neg hj]
      exact hs j
  | @fill k v v' hv =>
    intro j
    simp only [Op.apply, Function.update_apply]
    by_cases hj : j = k
    · rw [if_pos hj, if_pos hj, hj]
      have hk := hs k
      generalize s k = x, s' k = x' at hk ⊢
      cases hk with
      | some hr => exact .some hr
      | none => exact .some hv
    · rw [if_neg hj, if_neg hj]
      exact hs j

theorem run_related (h : List.Forall₂ (Op.Related R) ops ops') (hs : Store.Related R s s') :
    Store.Related R (run ops s) (run ops' s') := by
  induction h generalizing s s' with
  | nil => exact hs
  | cons ho _ ih => exact ih (ho.apply hs)

end KeyedStore
