import Mathlib.Data.List.Forall2

namespace ShimSpin
set_option autoImplicit true

/-- A part of a message: text as it stands, or a string that `{:?}` writes. -/
inductive Fragment where
  | text (s : String)
  | debug (s : String)
  deriving DecidableEq

abbrev Message := List Fragment

instance : Coe String Message := ⟨fun s => [.text s]⟩

/-- The text of a message, for what Rust's `{:?}` makes of a string. -/
def Message.render (debug : String → String) (message : Message) : String :=
  String.join (message.map fun
    | .text s => s
    | .debug s => debug s)

/-- A list of strings that `{:?}` writes. -/
def debugList (items : List String) : Message :=
  .text "[" :: (items.map Fragment.debug).intersperse (.text ", ") ++ [.text "]"]

/-- An `anyhow` error: its messages, the outermost context first. -/
abbrev Error := List Message

inductive Failure where
  | error (e : Error)
  | panic (message : String)
  deriving DecidableEq

abbrev Outcome (α : Type) := Except Failure α

def bail (message : Message) : Outcome α := .error (.error [message])

def panicking (message : String) : Outcome α := .error (.panic message)

/-- The `?` operator on a call that reports errors and does not unwind. -/
def ofResult : Except Error α → Outcome α
  | .ok a => .ok a
  | .error e => .error (.error e)

/-- `with_context` adds a message to an error and lets a panic through. -/
def Outcome.context (x : Outcome α) (message : Message) : Outcome α :=
  match x with
  | .error (.error e) => .error (.error (message :: e))
  | x => x

def Outcome.Panics (x : Outcome α) : Prop := ∃ m, x = .error (.panic m)

def Outcome.Fails (x : Outcome α) : Prop := ∃ e, x = .error (.error e)

def Outcome.Succeeds (x : Outcome α) : Prop := ∃ a, x = .ok a

@[simp] theorem ofResult_eq_ok {x : Except Error α} {a : α} : ofResult x = .ok a ↔ x = .ok a := by
  cases x <;> simp [ofResult]

theorem ofResult_injective {x y : Except Error α} (h : ofResult x = ofResult y) : x = y := by
  cases x <;> cases y <;> cases h <;> rfl

@[simp] theorem context_eq_ok {x : Outcome α} {m : Message} {a : α} :
    x.context m = .ok a ↔ x = .ok a := by
  rcases x with (e | m) | a <;> simp [Outcome.context]

theorem bind_eq_ok {x : Outcome α} {f : α → Outcome β} {b : β} :
    (x >>= f) = .ok b ↔ ∃ a, x = .ok a ∧ f a = .ok b := by
  cases x with
  | error e => simp [bind, Except.bind]
  | ok a => simp [bind, Except.bind]

@[simp] theorem ok_bind (a : α) (f : α → Outcome β) :
    ((Except.ok a : Outcome α) >>= f) = f a := rfl

theorem pure_not_panics (a : α) : ¬ (pure a : Outcome α).Panics := by
  rintro ⟨m, h⟩
  cases h

theorem bail_not_panics (m : Message) : ¬ (bail m : Outcome α).Panics := by
  rintro ⟨m', h⟩
  cases h

theorem ofResult_not_panics (x : Except Error α) : ¬ (ofResult x).Panics := by
  rintro ⟨m, h⟩
  cases x <;> cases h

theorem context_panics {x : Outcome α} {m : Message} : (x.context m).Panics ↔ x.Panics := by
  rcases x with (e | p) | a <;> simp [Outcome.context, Outcome.Panics]

theorem bind_panics {x : Outcome α} {f : α → Outcome β} :
    (x >>= f).Panics ↔ x.Panics ∨ ∃ a, x = .ok a ∧ (f a).Panics := by
  cases x with
  | error e => simp [Outcome.Panics, bind, Except.bind]
  | ok a => simp [Outcome.Panics, bind, Except.bind]

theorem bind_fails {x : Outcome α} {f : α → Outcome β} :
    (x >>= f).Fails ↔ x.Fails ∨ ∃ a, x = .ok a ∧ (f a).Fails := by
  cases x with
  | error e => simp [Outcome.Fails, bind, Except.bind]
  | ok a => simp [Outcome.Fails, bind, Except.bind]

theorem pure_not_fails (a : α) : ¬ (pure a : Outcome α).Fails := by
  intro h
  obtain ⟨e, h⟩ := h
  cases h

/-- What does not panic fails unless it succeeds. -/
theorem not_fails_iff {x : Outcome α} (hp : ¬ x.Panics) : ¬ x.Fails ↔ ∃ a, x = .ok a := by
  apply Iff.intro
  · intro hf
    cases x with
    | ok a => exact ⟨a, rfl⟩
    | error f =>
      cases f with
      | error e => exact (hf ⟨e, rfl⟩).elim
      | panic m => exact (hp ⟨m, rfl⟩).elim
  · intro ⟨a, h⟩ ⟨e, he⟩
    rw [h] at he
    cases he

theorem forall₂_mem_left {R : α → β → Prop} (h : List.Forall₂ R as bs) (ha : a ∈ as) :
    ∃ b ∈ bs, R a b := by
  induction h with
  | nil => cases ha
  | cons hr _ ih =>
    rcases List.mem_cons.1 ha with rfl | ha
    · exact ⟨_, List.mem_cons_self, hr⟩
    · obtain ⟨b, hb, hr⟩ := ih ha
      exact ⟨b, List.mem_cons_of_mem _ hb, hr⟩

theorem forall₂_mem_right {R : α → β → Prop} (h : List.Forall₂ R as bs) (hb : b ∈ bs) :
    ∃ a ∈ as, R a b :=
  forall₂_mem_left h.flip hb

theorem forall₂_getElem? {R : α → β → Prop} {i : Nat} (h : List.Forall₂ R as bs)
    (ha : as[i]? = some a) : ∃ b, bs[i]? = some b ∧ R a b := by
  induction h generalizing i with
  | nil => cases ha
  | cons hr _ ih =>
    cases i with
    | zero =>
      cases ha
      exact ⟨_, rfl, hr⟩
    | succ i => exact ih ha

/-- A map over a list succeeds when it does so for every element, position by position. -/
theorem mapM_eq_ok {f : α → Outcome β} {as : List α} {bs : List β} :
    as.mapM f = .ok bs ↔ List.Forall₂ (fun a b => f a = .ok b) as bs := by
  induction as generalizing bs with
  | nil =>
    rw [List.mapM_nil, List.forall₂_nil_left_iff]
    exact ⟨fun h => (Except.ok.inj h).symm, fun h => h ▸ rfl⟩
  | cons a as ih =>
    rw [List.mapM_cons, bind_eq_ok, List.forall₂_cons_left_iff]
    apply Iff.intro
    · intro ⟨b, hb, h⟩
      obtain ⟨bs', hbs, h⟩ := bind_eq_ok.1 h
      cases h
      exact ⟨b, bs', hb, ih.1 hbs, rfl⟩
    · intro ⟨b, bs', hb, hbs, h⟩
      exact ⟨b, hb, bind_eq_ok.2 ⟨bs', ih.2 hbs, h ▸ rfl⟩⟩

theorem mapM_not_panics {f : α → Outcome β} {as : List α} (h : ∀ a ∈ as, ¬ (f a).Panics) :
    ¬ (as.mapM f).Panics := by
  induction as with
  | nil => exact pure_not_panics []
  | cons a as ih =>
    rw [List.forall_mem_cons] at h
    rw [List.mapM_cons, bind_panics]
    intro hp
    rcases hp with hp | ⟨b, _, hp⟩
    · exact h.1 hp
    · rcases bind_panics.1 hp with hp | ⟨bs, _, hp⟩
      · exact ih h.2 hp
      · exact pure_not_panics _ hp

theorem exists_error {x : Outcome α} (hs : ∀ a, x ≠ .ok a) (hp : ¬ x.Panics) :
    ∃ e, x = .error (.error e) := by
  by_contra hf
  obtain ⟨a, h⟩ := (not_fails_iff hp).1 hf
  exact hs a h

end ShimSpin
