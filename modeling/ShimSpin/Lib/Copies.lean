import Mathlib.Data.List.Perm.Basic
import Mathlib.Logic.Function.Basic

namespace KeyedCopy
set_option autoImplicit true

/-- Copies within a store. Each reads one key and writes another, two that write the same key
read the same one, and only some values are copied. -/
structure Copies (ι κ β : Type) where
  src : ι → κ
  dst : ι → κ
  ok : β → Bool
  src_of_dst : ∀ {i j}, dst i = dst j → src i = src j
  src_ne_dst : ∀ i, src i ≠ dst i

variable {ι κ β : Type} [DecidableEq κ] {C : Copies ι κ β} {s t t' : κ → Option β} {i j : ι}
  {is js : List ι} {n : κ} {v : β}

def Copies.read (C : Copies ι κ β) (s : κ → Option β) (i : ι) : Option β :=
  (s (C.src i)).filter C.ok

def Copies.step (C : Copies ι κ β) (s : κ → Option β) (i : ι) : κ → Option β :=
  match C.read s i with
  | some v => Function.update s (C.dst i) (some v)
  | none => s

def Copies.run (C : Copies ι κ β) (is : List ι) (s : κ → Option β) : κ → Option β :=
  is.foldl C.step s

/-- All copies read before any of them writes. -/
structure Simultaneous (C : Copies ι κ β) (is : List ι) (s t : κ → Option β) : Prop where
  copied : ∀ i ∈ is, ∀ v, C.read s i = some v → t (C.dst i) = some v
  kept : ∀ n, (∀ i ∈ is, C.dst i = n → C.read s i = none) → t n = s n

/-- No copy relays a value that another one has written, unless nothing shows it. -/
def Settled (C : Copies ι κ β) (is : List ι) (s : κ → Option β) : Prop :=
  ∀ i ∈ is, ∀ j ∈ is, C.src j = C.dst i → ∀ v, C.read s i = some v →
    C.read s j = some v ∨ C.read s j = none ∧ s (C.dst j) = some v

omit [DecidableEq κ] in
theorem read_congr (h : s (C.src i) = t (C.src j)) : C.read s i = C.read t j := by
  rw [Copies.read, Copies.read, h]

omit [DecidableEq κ] in
theorem read_eq_some : C.read s i = some v ↔ s (C.src i) = some v ∧ C.ok v = true :=
  Option.filter_eq_some_iff

theorem step_key (s : κ → Option β) (i : ι) (n : κ) :
    C.step s i n = if n = C.dst i then (C.read s i).or (s n) else s n := by
  rw [Copies.step]
  cases C.read s i with
  | none => simp only [Option.none_or, ite_self]
  | some v => simp only [Function.update_apply, Option.some_or]

theorem step_dst (h : C.read s i = some v) : C.step s i (C.dst i) = some v := by
  rw [step_key, if_pos rfl, h, Option.some_or]

theorem step_of_ne (h : n ≠ C.dst i) : C.step s i n = s n := by
  rw [step_key, if_neg h]

omit [DecidableEq κ] in
theorem Simultaneous.nil : Simultaneous C [] s s := ⟨nofun, fun _ _ => rfl⟩

omit [DecidableEq κ] in
/-- The result of simultaneous copies is determined. -/
theorem Simultaneous.unique (h : Simultaneous C is s t) (h' : Simultaneous C is s t') :
    t = t' := by
  funext n
  by_cases hn : ∃ i ∈ is, C.dst i = n ∧ ∃ v, C.read s i = some v
  · obtain ⟨i, hi, rfl, v, hv⟩ := hn
    rw [h.copied i hi v hv, h'.copied i hi v hv]
  · have hnone : ∀ i ∈ is, C.dst i = n → C.read s i = none := by
      intro i hi hd
      cases hr : C.read s i with
      | none => rfl
      | some v => exact (hn ⟨i, hi, hd, v, hr⟩).elim
    rw [h.kept n hnone, h'.kept n hnone]

omit [DecidableEq κ] in
/-- A copy among settled ones reads what it would have read at first, or what is written
where it writes anyway. -/
theorem Settled.read (h : Settled C is s) (hs : Simultaneous C js s t) (hj : ∀ j ∈ js, j ∈ is)
    (hi : i ∈ is) : C.read t i = C.read s i ∨
      C.read s i = none ∧ ∃ v, C.read t i = some v ∧ s (C.dst i) = some v := by
  by_cases hw : ∃ j ∈ js, C.dst j = C.src i ∧ ∃ v, C.read s j = some v
  · obtain ⟨j, hjs, hd, v, hv⟩ := hw
    have ht : t (C.src i) = some v := hd ▸ hs.copied j hjs v hv
    have hr : C.read t i = some v := read_eq_some.2 ⟨ht, (read_eq_some.1 hv).2⟩
    rcases h j (hj j hjs) i hi hd.symm v hv with hsame | ⟨hnone, hdst⟩
    · exact .inl (hr.trans hsame.symm)
    · exact .inr ⟨hnone, v, hr, hdst⟩
  · apply Or.inl
    apply read_congr
    apply hs.kept
    intro j hjs hd
    cases hr : C.read s j with
    | none => rfl
    | some v => exact (hw ⟨j, hjs, hd, v, hr⟩).elim

theorem Settled.step (h : Settled C is s) (hs : Simultaneous C js s t) (hj : ∀ j ∈ js, j ∈ is)
    (hi : i ∈ is) : Simultaneous C (js ++ [i]) s (C.step t i) := by
  have hread := h.read hs hj hi
  apply Simultaneous.mk
  · intro j hm v hv
    by_cases hd : C.dst j = C.dst i
    · have hsi : C.read s i = some v :=
        (read_congr (congrArg s (C.src_of_dst hd).symm)).trans hv
      rcases hread with hr | ⟨hnone, _⟩
      · rw [hd]
        exact step_dst (hr.trans hsi)
      · rw [hsi] at hnone
        cases hnone
    · rw [step_of_ne hd]
      rcases List.mem_append.1 hm with hm | hm
      · exact hs.copied j hm v hv
      · rw [List.mem_singleton.1 hm] at hd
        exact (hd rfl).elim
  · intro n hn
    have hjs : t n = s n := hs.kept n fun j hm => hn j (List.mem_append_left _ hm)
    by_cases hd : n = C.dst i
    · subst hd
      have hsi : C.read s i = none := hn i (List.mem_append_right _ (List.mem_singleton_self i)) rfl
      rcases hread with hr | ⟨_, v, hr, hv⟩
      · rw [step_key, if_pos rfl, hr, hsi, Option.none_or, hjs]
      · rw [step_dst hr, hv]
    · rw [step_of_ne hd, hjs]

theorem Settled.run_from (h : Settled C is s) (hs : Simultaneous C js s t)
    (hj : ∀ j ∈ js, j ∈ is) (hk : ∀ j ∈ ks, j ∈ is) :
    Simultaneous C (js ++ ks) s (C.run ks t) := by
  induction ks generalizing js t with
  | nil =>
    rw [List.append_nil]
    exact hs
  | cons i ks ih =>
    rw [List.forall_mem_cons] at hk
    have hstep := h.step hs hj hk.1
    have hmem : ∀ j ∈ js ++ [i], j ∈ is := by
      intro j hm
      rcases List.mem_append.1 hm with hm | hm
      · exact hj j hm
      · exact List.mem_singleton.1 hm ▸ hk.1
    have hrun := ih hstep hmem hk.2
    rw [List.append_assoc] at hrun
    exact hrun

/-- Settled copies can be carried out one after the other, in any order. -/
theorem Settled.run (h : Settled C is s) (hp : js.Perm is) :
    Simultaneous C is s (C.run js s) := by
  have hrun : Simultaneous C ([] ++ js) s (C.run js s) :=
    h.run_from Simultaneous.nil nofun fun j hj => hp.mem_iff.1 hj
  rw [List.nil_append] at hrun
  apply Simultaneous.mk
  · exact fun i hi => hrun.copied i (hp.mem_iff.2 hi)
  · exact fun n hn => hrun.kept n fun i hi => hn i (hp.mem_iff.1 hi)

theorem run_append (is js : List ι) (s : κ → Option β) :
    C.run (is ++ js) s = C.run js (C.run is s) := by
  simp only [Copies.run, List.foldl_append]

theorem run_of_ne (h : ∀ i ∈ is, C.dst i ≠ n) : C.run is s n = s n := by
  induction is generalizing s with
  | nil => rfl
  | cons i is ih =>
    rw [List.forall_mem_cons] at h
    exact (ih h.2).trans (step_of_ne h.1.symm)

/-- Copies to one key, of which there is at least one and which can read a value, write it. -/
theorem run_same_dst (hr : C.read s i = some v) (hi : i ∈ is)
    (hd : ∀ j ∈ is, C.dst j = C.dst i) : C.run is s (C.dst i) = some v := by
  have hstep {t : κ → Option β} {j : ι} (hj : C.dst j = C.dst i)
      (ht : t (C.src i) = s (C.src i)) : C.step t j (C.dst i) = some v := by
    have hread : C.read t j = some v := (read_congr (by rw [C.src_of_dst hj, ht])).trans hr
    exact hj ▸ step_dst hread
  have hall : ∀ ks : List ι, (∀ j ∈ ks, C.dst j = C.dst i) → ∀ t : κ → Option β,
      t (C.src i) = s (C.src i) → (ks ≠ [] ∨ t (C.dst i) = some v) →
      C.run ks t (C.dst i) = some v := by
    intro ks
    induction ks with
    | nil =>
      intro _ t _ h
      exact h.resolve_left fun hn => hn rfl
    | cons j ks ih =>
      intro hk t ht _
      rw [List.forall_mem_cons] at hk
      have hsrc : C.step t j (C.src i) = s (C.src i) := by
        rw [step_of_ne (hk.1.symm ▸ C.src_ne_dst i), ht]
      exact ih hk.2 (C.step t j) hsrc (.inr (hstep hk.1 ht))
  exact hall is hd s rfl (.inl (List.ne_nil_of_mem hi))

/-- Only settled copies can be carried out one after the other in any order: a copy that
relays a value shows when it runs right after the one that wrote it. -/
theorem Settled.of_orders (h : ∀ js : List ι, js.Perm is → Simultaneous C is s (C.run js s)) :
    Settled C is s := by
  intro i hi j hj hsrc v hv
  have hne : C.dst j ≠ C.dst i := hsrc ▸ (C.src_ne_dst j).symm
  let first := is.filter fun k => C.dst k = C.dst i
  let others := is.filter fun k => !decide (C.dst k = C.dst i)
  let second := others.filter fun k => C.dst k = C.dst j
  let last := others.filter fun k => !decide (C.dst k = C.dst j)
  have hperm : (first ++ (second ++ last)).Perm is := by
    apply List.Perm.trans _ (List.filter_append_perm (fun k => decide (C.dst k = C.dst i)) is)
    exact (List.filter_append_perm (fun k => decide (C.dst k = C.dst j)) others).append_left first
  have hfirst : C.run first s (C.dst i) = some v := by
    apply run_same_dst hv
    · exact List.mem_filter.2 ⟨hi, decide_eq_true rfl⟩
    · exact fun k hk => of_decide_eq_true (List.mem_filter.1 hk).2
  have hread : C.read (C.run first s) j = some v :=
    read_eq_some.2 ⟨hsrc ▸ hfirst, (read_eq_some.1 hv).2⟩
  have hsecond : C.run second (C.run first s) (C.dst j) = some v := by
    apply run_same_dst hread
    · have hothers : j ∈ others := List.mem_filter.2 ⟨hj, by simpa using hne⟩
      exact List.mem_filter.2 ⟨hothers, decide_eq_true rfl⟩
    · exact fun k hk => of_decide_eq_true (List.mem_filter.1 hk).2
  have hlast : ∀ k ∈ last, C.dst k ≠ C.dst j := by
    intro k hk
    simpa using (List.mem_filter.1 hk).2
  have hrun : C.run (first ++ (second ++ last)) s (C.dst j) = some v := by
    rw [run_append, run_append, run_of_ne hlast, hsecond]
  have hspec := h _ hperm
  cases hr : C.read s j with
  | some u =>
    rw [hspec.copied j hj u hr] at hrun
    exact .inl hrun
  | none =>
    have hkept : C.run (first ++ (second ++ last)) s (C.dst j) = s (C.dst j) := by
      apply hspec.kept
      intro k hk hd
      exact (read_congr (congrArg s (C.src_of_dst hd))).trans hr
    rw [hkept] at hrun
    exact .inr ⟨rfl, hrun⟩

end KeyedCopy
