import ShimSpin.Lib.Toml.Lines
import Mathlib.Logic.Function.Basic

namespace Toml
set_option autoImplicit true

inductive Step where
  | key (k : Key)
  | index (i : Nat)
  deriving DecidableEq

abbrev Path := List Step

def keysOf : Path → List Key
  | [] => []
  | .key k :: p => k :: keysOf p
  | .index _ :: p => keysOf p

/-- What stands at a path. An `implicit` table is there only because a header below it names it;
`tables` are the elements that headers with two brackets have added, up to the last one. -/
inductive Def where
  | implicit
  | header
  | dotted
  | inline
  | tables (last : Nat)
  | array
  | string
  | scalar (token : List Char)
  deriving DecidableEq

abbrev Defs := Path → Option Def

/-- The table in which a header finds the rest of its keys. -/
def superStep (D : Defs) (q : Path) (k : Key) : Option Path :=
  match D (q ++ [.key k]) with
  | none => some (q ++ [.key k])
  | some .implicit => some (q ++ [.key k])
  | some .header => some (q ++ [.key k])
  | some .dotted => some (q ++ [.key k])
  | some (.tables last) => some (q ++ [.key k, .index last])
  | _ => none

def superPath (D : Defs) (q : Path) : List Key → Option Path
  | [] => some q
  | k :: ks => (superStep D q k).bind fun q' => superPath D q' ks

/-- A header may name a table once, also when headers below it came before. -/
def isFree : Option Def → Bool
  | none => true
  | some .implicit => true
  | _ => false

/-- The path of the table that the header `[keys]` defines. -/
def tablePath (D : Defs) (keys : List Key) : Option Path :=
  match keys.getLast? with
  | some k => (superPath D [] keys.dropLast).bind fun q =>
      if isFree (D (q ++ [.key k])) then some (q ++ [.key k]) else none
  | none => none

def define (D : Defs) (p : Path) (d : Def) : Defs := fun r =>
  if r = p then some d else if r <+: p ∧ D r = none then some .implicit else D r

def arrayTable (D : Defs) (keys : List Key) : Option (Defs × Path) :=
  match keys.getLast? with
  | some k => (superPath D [] keys.dropLast).bind fun q =>
      match D (q ++ [.key k]) with
      | none => some (define (define D (q ++ [.key k]) (.tables 0))
          (q ++ [.key k, .index 0]) .header, q ++ [.key k, .index 0])
      | some (.tables last) => some (define (define D (q ++ [.key k]) (.tables (last + 1)))
          (q ++ [.key k, .index (last + 1)]) .header, q ++ [.key k, .index (last + 1)])
      | _ => none
  | none => none

/-- The path of the value of a key, which may have dots, in a table. -/
def valuePath (D : Defs) (q : Path) : List Key → Option Path
  | [] => none
  | [k] => if D (q ++ [.key k]) = none then some (q ++ [.key k]) else none
  | k :: ks =>
    match D (q ++ [.key k]) with
    | none => valuePath D (q ++ [.key k]) ks
    | some .implicit => valuePath D (q ++ [.key k]) ks
    | some .dotted => valuePath D (q ++ [.key k]) ks
    | _ => none

/-- The tables between a table and the value of a key with dots. -/
def defineDotted (D : Defs) (q p : Path) : Defs := fun r =>
  if q <+: r ∧ r ≠ q ∧ r <+: p ∧ r ≠ p then some .dotted else D r

/-- A value that is being read, with its path. -/
inductive Frame where
  | array (path : Path) (next : Nat)
  | inline (path : Path)

/-- What a reader knows: the definitions, the table of the last header, the open values from the
innermost one, and the path of the last key. -/
structure Doc where
  defs : Defs
  table : Path
  frames : List Frame
  key : Path

def Doc.empty : Doc := ⟨fun p => if p = [] then some .header else none, [], [], []⟩

def Doc.base (doc : Doc) : Path :=
  match doc.frames with
  | .inline path :: _ => path
  | _ => doc.table

def Doc.put (doc : Doc) (d : Def) : Doc × Path :=
  match doc.frames with
  | .array path next :: frames =>
    ({ doc with
        defs := Function.update doc.defs (path ++ [.index next]) (some d)
        frames := .array path (next + 1) :: frames }, path ++ [.index next])
  | _ => ({ doc with defs := Function.update doc.defs doc.key (some d) }, doc.key)

def Doc.open (doc : Doc) (d : Def) (frame : Path → Frame) : Doc :=
  let r := doc.put d
  { r.1 with frames := frame r.2 :: r.1.frames }

def Doc.event (doc : Doc) : Event → Option Doc
  | .table keys => (tablePath doc.defs keys).map fun p =>
      ⟨define doc.defs p .header, p, [], []⟩
  | .arrayTable keys => (arrayTable doc.defs keys).map fun r => ⟨r.1, r.2, [], []⟩
  | .key keys => (valuePath doc.defs doc.base keys).map fun p =>
      { doc with defs := defineDotted doc.defs doc.base p, key := p }
  | .string => some (doc.put .string).1
  | .scalar token => some (doc.put (.scalar token)).1
  | .openArray => some (doc.open .array fun p => .array p 0)
  | .openInline => some (doc.open .inline .inline)
  | .closeArray => some { doc with frames := doc.frames.tail }
  | .closeInline => some { doc with frames := doc.frames.tail }

/-- What a text defines, if it is a valid document: it follows the grammar and defines no key and
no table twice. -/
def read (text : List Char) : Option Defs :=
  (events text).bind fun es => (es.foldlM Doc.event Doc.empty).map Doc.defs

/-- A key is the same key in every spelling. -/
example : read "[a.spin]\n['a'.\"spin\"]".toList = none := by decide +kernel

example : read "['a'.\"sp\\u0069n\"]\n[a.spin.b]\nx = [ 1, '' ]".toList ≠ none := by
  decide +kernel

def withTable (D : Defs) (p : Path) (k : Key) (d : Def) : Defs :=
  Function.update (define D p .header) (p ++ [.key k]) (some d)

/-- The header `[keys]` defines the table at the path, and the table has no such key yet. -/
def Fits (D : Defs) (keys : List Key) (k : Key) (p : Path) : Prop :=
  tablePath D keys = some p ∧ D (p ++ [.key k]) = none

def addTable (D : Defs) (keys : List Key) (k : Key) (d : Def) : Option Defs :=
  (tablePath D keys).bind fun p =>
    if D (p ++ [.key k]) = none then some (withTable D p k d) else none

def isTable : Option Def → Bool
  | some .header => true
  | some .dotted => true
  | some .inline => true
  | _ => false

/-- The document itself defines the table, and not only a table below it. -/
def DefinesTable (D : Defs) (p : Path) : Prop := isTable (D p) = true

instance : Decidable (DefinesTable D p) := inferInstanceAs (Decidable (_ = _))

variable {D D' : Defs} {p q q' r : Path} {keys ks : List Key} {k : Key} {d : Def} {v : Event}
  {text blk : List Char} {out : List Event}

theorem not_prefix_concat (p : Path) (s : Step) : ¬ p ++ [s] <+: p := by
  intro h
  have hlength := h.length_le
  rw [List.length_append, List.length_singleton] at hlength
  omega

theorem define_self : define D p d p = some d := if_pos rfl

theorem define_of_not_prefix (h : ¬ r <+: p) : define D p d r = D r := by
  rw [define, if_neg, if_neg]
  · exact fun hr => h hr.1
  · rintro rfl
    exact h List.prefix_rfl

theorem defineDotted_single (s : Step) : defineDotted D q (q ++ [s]) = D := by
  funext r
  rw [defineDotted, if_neg]
  intro ⟨hq, hne, hr, hne'⟩
  rcases List.prefix_concat_iff.1 hr with he | hr
  · exact hne' he
  · exact hne (hr.eq_of_length_le hq.length_le)

theorem Doc.event_key {doc : Doc} (h : doc.frames = []) : doc.event (.key [k]) =
    if doc.defs (doc.table ++ [.key k]) = none then
      some { doc with key := doc.table ++ [.key k] }
    else none := by
  rw [Doc.event, Doc.base, h, valuePath]
  split_ifs with hfree
  · rw [Option.map_some, defineDotted_single]
  · rfl

theorem foldlM_table (doc : Doc) (hv : ∀ doc : Doc, doc.event v = some (doc.put d).1) :
    ([Event.table keys, .key [k], v].foldlM Doc.event doc).map Doc.defs =
      addTable doc.defs keys k d := by
  rw [List.foldlM_cons, Doc.event, addTable]
  cases tablePath doc.defs keys with
  | none => rfl
  | some p =>
    have hfree : define doc.defs p .header (p ++ [.key k]) = doc.defs (p ++ [.key k]) :=
      define_of_not_prefix (not_prefix_concat p _)
    rw [Option.map_some, Option.bind_eq_bind, Option.bind_some, Option.bind_some,
      List.foldlM_cons, Doc.event_key rfl]
    simp only [hfree]
    split_ifs with h
    · rw [Option.bind_eq_bind, Option.bind_some, List.foldlM_cons, hv]
      rfl
    · rfl

/-- What a text that is one table with one value adds to a document. -/
theorem read_append_table (h : read text = some D)
    (hblk : events blk = some [.table keys, .key [k], v])
    (hv : ∀ doc : Doc, doc.event v = some (doc.put d).1) :
    read (text ++ '\n' :: blk) = addTable D keys k d := by
  obtain ⟨es, hes, hmap⟩ := Option.bind_eq_some_iff.1 h
  obtain ⟨doc, hdoc, rfl⟩ := Option.map_eq_some_iff.1 hmap
  have hevents := (events_append hes).2 ⟨_, hblk, rfl⟩
  rw [read, hevents, Option.bind_some, List.foldlM_append, hdoc]
  exact foldlM_table doc hv

/-- What comes before a line of a document is a document, if it follows the grammar. -/
theorem read_before (hout : events text = some out) (h : read (text ++ '\n' :: blk) = some D') :
    ∃ D, read text = some D := by
  obtain ⟨es, hes, hmap⟩ := Option.bind_eq_some_iff.1 h
  obtain ⟨rest, _, rfl⟩ := (events_append hout).1 hes
  obtain ⟨doc, hdoc, rfl⟩ := Option.map_eq_some_iff.1 hmap
  rw [List.foldlM_append] at hdoc
  obtain ⟨doc', hdoc', _⟩ := Option.bind_eq_some_iff.1 hdoc
  exact ⟨doc'.defs, by rw [read, hout, Option.bind_some, hdoc', Option.map_some]⟩

/-- A line that no open value can go on with is read after a document only. -/
theorem read_of_append (h : read (text ++ '\n' :: blk) = some D')
    (hlast : text.getLast? ≠ some '\r')
    (hblk : ∀ mode, Inside mode → lexer.output ⟨mode, false⟩ blk = none) :
    ∃ D, read text = some D := by
  obtain ⟨es, hes, _⟩ := Option.bind_eq_some_iff.1 h
  obtain ⟨out, hout⟩ := events_of_append hes hlast hblk
  exact read_before hout h

theorem read_last (h : read text = some D) : text.getLast? ≠ some '\r' := by
  obtain ⟨es, hes, _⟩ := Option.bind_eq_some_iff.1 h
  exact events_last hes

theorem superStep_extends (h : superStep D q k = some q') : q ++ [.key k] <+: q' := by
  revert h
  fun_cases superStep D q k with
  | case5 last =>
    intro h
    cases h
    exact ⟨[.index last], by rw [List.append_assoc]; rfl⟩
  | case6 => nofun
  | _ =>
    intro h
    cases h
    exact List.prefix_rfl

theorem superPath_extends (h : superPath D q ks = some r) : q <+: r := by
  induction ks generalizing q with
  | nil =>
    cases h
    exact List.prefix_rfl
  | cons k ks ih =>
    obtain ⟨q', hq', hr⟩ := Option.bind_eq_some_iff.1 h
    exact ((List.prefix_append q _).trans (superStep_extends hq')).trans (ih hr)

theorem keysOf_append (p q : Path) : keysOf (p ++ q) = keysOf p ++ keysOf q := by
  induction p with
  | nil => rfl
  | cons s p ih =>
    cases s with
    | key k => rw [List.cons_append, keysOf, ih, keysOf, List.cons_append]
    | index i => rw [List.cons_append, keysOf, ih, keysOf]

theorem superStep_keys (h : superStep D q k = some q') : keysOf q' = keysOf q ++ [k] := by
  revert h
  fun_cases superStep D q k with
  | case6 => nofun
  | _ =>
    intro h
    cases h
    exact keysOf_append _ _

theorem superPath_keys (h : superPath D q ks = some r) : keysOf r = keysOf q ++ ks := by
  induction ks generalizing q with
  | nil =>
    cases h
    rw [List.append_nil]
  | cons k ks ih =>
    obtain ⟨q', hq', hr⟩ := Option.bind_eq_some_iff.1 h
    rw [ih hr, superStep_keys hq', List.append_assoc]
    rfl

theorem superPath_congr (h : superPath D q ks = some r)
    (hstep : ∀ q k, q ++ [.key k] <+: r → superStep D' q k = superStep D q k) :
    superPath D' q ks = some r := by
  induction ks generalizing q with
  | nil => exact h
  | cons k ks ih =>
    obtain ⟨q', hq', hr⟩ := Option.bind_eq_some_iff.1 h
    rw [superPath, hstep q k ((superStep_extends hq').trans (superPath_extends hr)), hq']
    exact ih hr

theorem superPath_concat :
    superPath D q (ks ++ [k]) = (superPath D q ks).bind fun q' => superStep D q' k := by
  induction ks generalizing q with
  | nil =>
    rw [List.nil_append, superPath, superPath, Option.bind_some]
    cases superStep D q k with
    | none => rfl
    | some q' => rfl
  | cons k' ks ih =>
    rw [List.cons_append, superPath, superPath, Option.bind_assoc]
    congr 1
    funext q'
    exact ih

theorem tablePath_concat : tablePath D (ks ++ [k]) = (superPath D [] ks).bind fun q =>
    if isFree (D (q ++ [.key k])) then some (q ++ [.key k]) else none := by
  rw [tablePath, List.getLast?_concat, List.dropLast_concat]

theorem tablePath_concat_eq_some : tablePath D (ks ++ [k]) = some p ↔
    ∃ q, superPath D [] ks = some q ∧ isFree (D (q ++ [.key k])) = true ∧ q ++ [.key k] = p := by
  rw [tablePath_concat, Option.bind_eq_some_iff]
  simp only [Option.ite_none_right_eq_some, Option.some.injEq]

theorem superStep_of_isFree (h : isFree (D (q ++ [.key k])) = true) :
    superStep D q k = some (q ++ [.key k]) := by
  rw [superStep]
  revert h
  cases D (q ++ [.key k]) with
  | none => exact fun _ => rfl
  | some d =>
    cases d with
    | implicit => exact fun _ => rfl
    | _ => nofun

theorem superPath_of_tablePath (h : tablePath D (ks ++ [k]) = some p) :
    superPath D [] (ks ++ [k]) = some p := by
  obtain ⟨q, hq, hfree, rfl⟩ := tablePath_concat_eq_some.1 h
  rw [superPath_concat, hq, Option.bind_some, superStep_of_isFree hfree]

theorem tablePath_isFree (h : tablePath D (ks ++ [k]) = some p) : isFree (D p) = true := by
  obtain ⟨q, _, hfree, rfl⟩ := tablePath_concat_eq_some.1 h
  exact hfree

theorem tablePath_keys (h : tablePath D (ks ++ [k]) = some p) : keysOf p = ks ++ [k] :=
  superPath_keys (superPath_of_tablePath h)

theorem tablePath_last (h : tablePath D (ks ++ [k]) = some p) : p.getLast? = some (.key k) := by
  obtain ⟨q, _, _, rfl⟩ := tablePath_concat_eq_some.1 h
  exact List.getLast?_concat

theorem not_definesTable (h : tablePath D (ks ++ [k]) = some p) : ¬ DefinesTable D p := by
  have hfree := tablePath_isFree h
  intro hp
  rw [DefinesTable] at hp
  revert hfree hp
  cases D p with
  | none => nofun
  | some d =>
    cases d with
    | implicit => nofun
    | _ => nofun

theorem superStep_define (h : isFree (D p) = true) :
    superStep (define D p .header) q k = superStep D q k := by
  by_cases hp : q ++ [.key k] = p
  · subst hp
    rw [superStep_of_isFree h, superStep, define_self]
  · by_cases hr : q ++ [.key k] <+: p ∧ D (q ++ [.key k]) = none
    · rw [superStep, superStep, define, if_neg hp, if_pos hr, hr.2]
    · rw [superStep, superStep, define, if_neg hp, if_neg hr]

theorem superStep_update {x : Option Def} (h : q ++ [.key k] ≠ r) :
    superStep (Function.update D r x) q k = superStep D q k := by
  rw [superStep, superStep, Function.update_of_ne h]

theorem addTable_eq_some : addTable D keys k d = some D' ↔
    ∃ p, Fits D keys k p ∧ D' = withTable D p k d := by
  simp only [addTable, Fits, and_assoc, Option.bind_eq_some_iff, Option.ite_none_right_eq_some,
    Option.some.injEq, @eq_comm _ D']

/-- A header below a new table finds it. -/
theorem superPath_withTable (h : tablePath D (ks ++ [k']) = some p) :
    superPath (withTable D p k d) [] (ks ++ [k']) = some p := by
  apply superPath_congr (superPath_of_tablePath h)
  intro q k₁ hq
  have hne : q ++ [.key k₁] ≠ p ++ [.key k] := by
    intro he
    rw [he] at hq
    exact not_prefix_concat p _ hq
  rw [withTable, superStep_update hne, superStep_define (tablePath_isFree h)]

theorem withTable_apply (hr : ¬ r <+: p) (hne : r ≠ p ++ [.key k]) :
    withTable D p k d r = D r := by
  rw [withTable, Function.update_of_ne hne, define_of_not_prefix hr]

/-- A header one key below a new table stands in that table, and fits if it did before. -/
theorem fits_withTable {k₁ k₂ : Key} (h : tablePath D (ks ++ [k']) = some p) (hne : k₁ ≠ k) :
    Fits (withTable D p k d) (ks ++ [k'] ++ [k₁]) k₂ r ↔
      r = p ++ [.key k₁] ∧ Fits D (ks ++ [k'] ++ [k₁]) k₂ r := by
  have hchild : withTable D p k d (p ++ [.key k₁]) = D (p ++ [.key k₁]) := by
    apply withTable_apply (not_prefix_concat p _)
    simp [hne]
  have hvalue : withTable D p k d (p ++ [.key k₁] ++ [.key k₂]) =
      D (p ++ [.key k₁] ++ [.key k₂]) := by
    apply withTable_apply
    · exact fun hr => not_prefix_concat p _ ((List.prefix_append _ _).trans hr)
    · simp
  rw [Fits, Fits, tablePath_concat, tablePath_concat, superPath_withTable h,
    superPath_of_tablePath h, Option.bind_some, Option.bind_some, hchild]
  simp only [Option.ite_none_right_eq_some, Option.some.injEq]
  apply Iff.intro
  · intro ⟨⟨hfree, hr⟩, hnone⟩
    subst hr
    exact ⟨rfl, ⟨hfree, rfl⟩, hvalue ▸ hnone⟩
  · intro ⟨_, ⟨hfree, hr⟩, hnone⟩
    subst hr
    exact ⟨⟨hfree, rfl⟩, hvalue ▸ hnone⟩

theorem definesTable_withTable (hnone : D (p ++ [.key k]) = none)
    (hd : isTable (some d) = false) :
    DefinesTable (withTable D p k d) r ↔ DefinesTable D r ∨ r = p := by
  rw [DefinesTable, DefinesTable, withTable]
  by_cases hvalue : r = p ++ [.key k]
  · subst hvalue
    rw [Function.update_self, hd, hnone]
    simp [isTable]
  · rw [Function.update_of_ne hvalue]
    by_cases hp : r = p
    · subst hp
      simp [define_self, isTable]
    · rw [define, if_neg hp]
      split_ifs with h
      · simp [h.2, isTable, hp]
      · simp [hp]

/-- What becomes of the definitions when headers with one value each are added: all of them stay,
apart from tables that the headers define themselves, and new ones stand only there, above, or
one key below. -/
structure Adds (D D' : Defs) (T : Path → Prop) : Prop where
  kept : ∀ q d, D q = some d →
    D' q = some d ∨ d = .implicit ∧ D' q = some .header ∧ T q
  added : ∀ q, D q = none → D' q ≠ none → ∃ p, T p ∧ (q <+: p ∨ ∃ k, q = p ++ [.key k])

theorem Adds.refl (D : Defs) (T : Path → Prop) : Adds D D T :=
  ⟨fun _ _ h => .inl h, fun _ h hne => (hne h).elim⟩

theorem Adds.trans {D'' : Defs} {T : Path → Prop} (h : Adds D D' T) (h' : Adds D' D'' T) :
    Adds D D'' T := by
  apply Adds.mk
  · intro q d hq
    rcases h.kept q d hq with hq' | ⟨rfl, hq', hT⟩
    · exact h'.kept q d hq'
    · rcases h'.kept q .header hq' with hq'' | ⟨he, _⟩
      · exact .inr ⟨rfl, hq'', hT⟩
      · cases he
  · intro q hq hne
    cases hmid : D' q with
    | none => exact h'.added q hmid hne
    | some d => exact h.added q hq (by rw [hmid]; exact nofun)

theorem adds_withTable {T : Path → Prop} (hfree : isFree (D p) = true)
    (hnone : D (p ++ [.key k]) = none) (hT : T p) : Adds D (withTable D p k d) T := by
  apply Adds.mk
  · intro q e hq
    have hne : q ≠ p ++ [.key k] := by
      rintro rfl
      rw [hnone] at hq
      cases hq
    rw [withTable, Function.update_of_ne hne]
    by_cases hp : q = p
    · subst hp
      rw [hq] at hfree
      cases e with
      | implicit => exact .inr ⟨rfl, define_self, hT⟩
      | _ => cases hfree
    · rw [define, if_neg hp, if_neg, hq]
      · exact .inl rfl
      · intro hr
        rw [hq] at hr
        cases hr.2
  · intro q hq hne
    refine ⟨p, hT, ?_⟩
    by_cases hvalue : q = p ++ [.key k]
    · exact .inr ⟨k, hvalue⟩
    · rw [withTable, Function.update_of_ne hvalue] at hne
      apply Or.inl
      by_contra hprefix
      rw [ define_of_not_prefix hprefix] at hne
      exact hne hq

end Toml
