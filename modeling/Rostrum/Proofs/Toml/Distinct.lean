import Rostrum.Proofs.Table
import Rostrum.Toml.Reader

/-!
# No name is defined twice

The lines of a document add to its tables in three ways, and each of them refuses to define a name that
is there. Main statement: no table of a document, however deep, has two values of one name.
-/

namespace Rostrum.Toml

namespace Value

/-- No table in a value has two values of one name. -/
inductive Distinct : Value → Prop where
  | string (s : String) : Distinct (.string s)
  | integer (n : Int) : Distinct (.integer n)
  | float : Distinct .float
  | boolean (b : Bool) : Distinct (.boolean b)
  | dateTime : Distinct .dateTime
  | array {items : List Value} : (∀ v ∈ items, Distinct v) → Distinct (.array items)
  | table {origin : Origin} {members : List (String × Value)} : (members.map Prod.fst).Nodup →
      (∀ m ∈ members, Distinct m.2) → Distinct (.table origin members)
  | tables {items : List (List (String × Value))} : (∀ members ∈ items, (members.map Prod.fst).Nodup) →
      (∀ members ∈ items, ∀ m ∈ members, Distinct m.2) → Distinct (.tables items)

end Value

/-- No name comes twice, here or in a table below. -/
structure Members.Distinct (members : Members) : Prop where
  nodup : (members.map Prod.fst).Nodup
  values : ∀ m ∈ members, m.2.Distinct

theorem Value.distinct_table_iff {origin : Origin} {members : Members} :
    (Value.table origin members).Distinct ↔ members.Distinct := by
  constructor
  · intro h
    cases h with
    | table hnodup hvalues => exact ⟨hnodup, hvalues⟩
  · intro h
    exact .table h.nodup h.values

theorem Value.distinct_tables_iff {items : List Members} :
    (Value.tables items).Distinct ↔ ∀ members ∈ items, members.Distinct := by
  constructor
  · intro h
    cases h with
    | tables hnodup hvalues => exact fun members hm => ⟨hnodup members hm, hvalues members hm⟩
  · intro h
    exact .tables (fun members hm => (h members hm).nodup) fun members hm => (h members hm).values

namespace Members
variable {members members' : Members} {name : String} {v : Value}

theorem distinct_nil : Distinct [] := ⟨List.nodup_nil, nofun⟩

theorem Distinct.of_get? (h : members.Distinct) (hv : members.get? name = some v) : v.Distinct :=
  h.values _ (Table.mem_of_find hv)

theorem Distinct.put (h : members.Distinct) (name : String) (hv : v.Distinct) :
    (members.put name v).Distinct where
  nodup := Table.distinct_put (t := ⟨members⟩) h.nodup name v
  values m hm := by
    rcases Table.mem_of_mem_store hm with rfl | hold
    · exact hv
    · exact h.values m hold

end Members

open Members

/-! ## What lines add -/

/-- A change that defines no name twice. -/
def Careful (change : Members → Option Members) : Prop :=
  ∀ {members members' : Members}, members.Distinct → change members = some members' → members'.Distinct

theorem changeLast_distinct {change : Members → Option Members} (hc : Careful change)
    {items items' : List Members} (h : ∀ members ∈ items, members.Distinct)
    (hchange : changeLast change items = some items') : ∀ members ∈ items', members.Distinct := by
  induction items generalizing items' with
  | nil => cases hchange
  | cons first rest ih =>
    obtain ⟨hfirst, hrest⟩ := List.forall_mem_cons.mp h
    cases rest with
    | nil =>
      obtain ⟨last, hlast, heq⟩ := Option.bind_eq_some_iff.mp hchange
      cases heq
      exact List.forall_mem_singleton.mpr (hc hfirst hlast)
    | cons second rest =>
      obtain ⟨rest', hrest', heq⟩ := Option.bind_eq_some_iff.mp hchange
      cases heq
      exact List.forall_mem_cons.mpr ⟨hfirst, ih hrest hrest'⟩

theorem careful_changeAt {change : Members → Option Members} (hc : Careful change) (path : List String) :
    Careful (changeAt change path) := by
  induction path with
  | nil => exact hc
  | cons name path ih =>
    intro members members' h hchange
    rw [changeAt] at hchange
    split at hchange
    · obtain ⟨inner, hinner, heq⟩ := Option.bind_eq_some_iff.mp hchange
      cases heq
      exact h.put name (Value.distinct_table_iff.mpr (ih distinct_nil hinner))
    · cases hchange
    · rename_i origin inner _ hget
      obtain ⟨inner', hinner, heq⟩ := Option.bind_eq_some_iff.mp hchange
      cases heq
      exact h.put name (Value.distinct_table_iff.mpr (ih (Value.distinct_table_iff.mp (h.of_get? hget)) hinner))
    · rename_i items hget
      obtain ⟨items', hitems, heq⟩ := Option.bind_eq_some_iff.mp hchange
      cases heq
      have hdistinct := Value.distinct_tables_iff.mp (h.of_get? hget)
      exact h.put name (Value.distinct_tables_iff.mpr (changeLast_distinct ih hdistinct hitems))
    · cases hchange

theorem careful_openTable (name : String) : Careful (openTable name) := by
  intro members members' h hopen
  unfold openTable at hopen
  split at hopen
  · cases hopen
    exact h.put name (Value.distinct_table_iff.mpr distinct_nil)
  · rename_i inner hget
    cases hopen
    exact h.put name (Value.distinct_table_iff.mpr (Value.distinct_table_iff.mp (h.of_get? hget)))
  · cases hopen

theorem careful_openItem (name : String) : Careful (openItem name) := by
  intro members members' h hopen
  unfold openItem at hopen
  split at hopen
  · cases hopen
    exact h.put name (Value.distinct_tables_iff.mpr (List.forall_mem_singleton.mpr distinct_nil))
  · rename_i items hget
    cases hopen
    refine h.put name (Value.distinct_tables_iff.mpr ?_)
    intro inner hinner
    rcases List.mem_append.mp hinner with hold | hnew
    · exact Value.distinct_tables_iff.mp (h.of_get? hget) inner hold
    · cases List.mem_singleton.mp hnew
      exact distinct_nil
  · cases hopen

theorem careful_addPair (name : String) {v : Value} (hv : v.Distinct) (path : List String) :
    Careful (addPair name v path) := by
  induction path with
  | nil =>
    intro members members' h hadd
    rw [addPair] at hadd
    split at hadd
    · cases hadd
      exact h.put name hv
    · cases hadd
  | cons next path ih =>
    intro members members' h hadd
    rw [addPair] at hadd
    split at hadd
    · obtain ⟨inner, hinner, heq⟩ := Option.bind_eq_some_iff.mp hadd
      cases heq
      exact h.put next (Value.distinct_table_iff.mpr (ih distinct_nil hinner))
    · rename_i origin inner hget
      split at hadd
      · cases hadd
      · obtain ⟨inner', hinner, heq⟩ := Option.bind_eq_some_iff.mp hadd
        cases heq
        exact h.put next (Value.distinct_table_iff.mpr (ih (Value.distinct_table_iff.mp (h.of_get? hget)) hinner))
    · rename_i items hget
      split at hadd
      · cases hadd
      · obtain ⟨items', hitems, heq⟩ := Option.bind_eq_some_iff.mp hadd
        cases heq
        have hdistinct := Value.distinct_tables_iff.mp (h.of_get? hget)
        exact h.put next (Value.distinct_tables_iff.mpr (changeLast_distinct ih hdistinct hitems))
    · cases hadd

theorem foldlM_keeps {α β : Type} {P : β → Prop} {add : β → α → Option β} {steps : List α}
    (hadd : ∀ step ∈ steps, ∀ {b b'}, P b → add b step = some b' → P b') {b b' : β} (hb : P b)
    (hfold : steps.foldlM add b = some b') : P b' := by
  induction steps generalizing b with
  | nil =>
    cases hfold
    exact hb
  | cons step steps ih =>
    obtain ⟨hstep, hsteps⟩ := List.forall_mem_cons.mp hadd
    rw [List.foldlM_cons] at hfold
    obtain ⟨next, hnext, hrest⟩ := Option.bind_eq_some_iff.mp hfold
    exact ih hsteps (hstep hb hnext) hrest

theorem ofPairs_distinct {pairs : List (List String × String × Value)} {v : Value}
    (h : ∀ p ∈ pairs, p.2.2.Distinct) (hv : ofPairs pairs = some v) : v.Distinct := by
  obtain ⟨members, hmembers, heq⟩ := Option.bind_eq_some_iff.mp hv
  cases heq
  exact Value.distinct_table_iff.mpr
    (foldlM_keeps (fun p hp => careful_addPair p.2.1 (h p hp) p.1) distinct_nil hmembers)

/-! ## Values and documents -/

namespace Reader

/-- A reader whose values define no name twice. -/
def Careful (read : Reader Value) : Prop := ∀ {cs rest v}, read cs = some (v, rest) → v.Distinct

theorem careful_dateTime : Careful dateTime := by
  intro cs rest v h
  unfold dateTime at h
  split at h
  · cases h
    exact .dateTime
  · obtain ⟨_, _, heq⟩ := Option.map_eq_some_iff.mp h
    cases heq
    exact .dateTime

theorem careful_decimal : Careful decimal := by
  intro cs rest v h
  obtain ⟨⟨whole, rest₁⟩, _, h⟩ := Option.bind_eq_some_iff.mp h
  dsimp only at h
  split at h
  · obtain ⟨⟨digits, e, rest₂⟩, _, h⟩ := Option.bind_eq_some_iff.mp h
    obtain ⟨_, _, heq⟩ := Option.bind_eq_some_iff.mp h
    cases heq
    exact .float
  · obtain ⟨⟨e, rest₂⟩, _, h⟩ := Option.bind_eq_some_iff.mp h
    obtain ⟨⟨digits, e, rest₃⟩, _, h⟩ := Option.bind_eq_some_iff.mp h
    obtain ⟨_, _, heq⟩ := Option.bind_eq_some_iff.mp h
    cases heq
    exact .float

theorem careful_specialFloat : Careful specialFloat := by
  intro cs rest v h
  obtain ⟨_, _, heq⟩ := Option.bind_eq_some_iff.mp h
  cases heq
  exact .float

theorem careful_integer : Careful integer := by
  intro cs rest v h
  obtain ⟨⟨n, rest₁⟩, _, h⟩ := Option.bind_eq_some_iff.mp h
  obtain ⟨_, _, heq⟩ := Option.bind_eq_some_iff.mp h
  cases heq
  exact .integer n

theorem careful_numeric : Careful numeric := by
  intro cs rest v h
  rcases Option.or_eq_some_iff.mp h with h | ⟨_, h⟩
  · exact careful_dateTime h
  rcases Option.or_eq_some_iff.mp h with h | ⟨_, h⟩
  · exact careful_decimal h
  rcases Option.or_eq_some_iff.mp h with h | ⟨_, h⟩
  · exact careful_specialFloat h
  · exact careful_integer h

theorem careful_scalar : Careful scalar := by
  intro cs rest v h
  unfold scalar at h
  split at h
  case h_5 => exact careful_numeric h
  all_goals
    obtain ⟨_, _, heq⟩ := Option.map_eq_some_iff.mp h
    cases heq
    constructor

variable {read : Reader Value}

theorem items_distinct (hread : Careful read) {fuel : Nat} {seen vs : List Value} {cs rest : List Char}
    (hseen : ∀ v ∈ seen, v.Distinct) (h : items read fuel seen cs = some (vs, rest)) :
    ∀ v ∈ vs, v.Distinct := by
  have hreverse : ∀ {vs : List Value}, (∀ v ∈ vs, v.Distinct) → ∀ v ∈ vs.reverse, v.Distinct :=
    fun hvs v hv => hvs v (List.mem_reverse.mp hv)
  induction fuel generalizing seen cs with
  | zero => cases h
  | succ fuel ih =>
    rw [items] at h
    split at h
    · cases h
      exact hreverse hseen
    · obtain ⟨⟨v, rest₁⟩, hv, h⟩ := Option.bind_eq_some_iff.mp h
      have hmore := List.forall_mem_cons.mpr ⟨hread hv, hseen⟩
      dsimp only at h
      split at h
      · exact ih hmore h
      · cases h
        exact hreverse hmore
      · cases h

theorem pair_distinct (hread : Careful read) {p : List String × String × Value} {cs rest : List Char}
    (h : pair read cs = some (p, rest)) : p.2.2.Distinct := by
  obtain ⟨⟨⟨path, name⟩, rest₁⟩, _, h⟩ := Option.bind_eq_some_iff.mp h
  obtain ⟨rest₂, _, h⟩ := Option.bind_eq_some_iff.mp h
  obtain ⟨⟨v, rest₃⟩, hv, heq⟩ := Option.bind_eq_some_iff.mp h
  cases heq
  exact hread hv

theorem pairs_distinct (hread : Careful read) {fuel : Nat} {ps : List (List String × String × Value)}
    {cs rest : List Char} (h : pairs read fuel cs = some (ps, rest)) : ∀ p ∈ ps, p.2.2.Distinct := by
  induction fuel generalizing ps cs with
  | zero => cases h
  | succ fuel ih =>
    obtain ⟨⟨p, rest₁⟩, hp, h⟩ := Option.bind_eq_some_iff.mp h
    have hfirst := pair_distinct hread hp
    dsimp only at h
    split at h
    · obtain ⟨⟨more, rest₂⟩, hmore, heq⟩ := Option.bind_eq_some_iff.mp h
      cases heq
      exact List.forall_mem_cons.mpr ⟨hfirst, ih hmore⟩
    · cases h
      exact List.forall_mem_singleton.mpr hfirst
    · cases h

theorem careful_braces (hread : Careful read) : Careful (braces read) := by
  intro cs rest v h
  unfold braces at h
  split at h
  · cases h
    exact Value.distinct_table_iff.mpr distinct_nil
  · obtain ⟨⟨ps, rest₁⟩, hps, h⟩ := Option.bind_eq_some_iff.mp h
    obtain ⟨v', hv, heq⟩ := Option.bind_eq_some_iff.mp h
    cases heq
    exact ofPairs_distinct (pairs_distinct hread hps) hv

theorem careful_value (levels : Nat) : Careful (value levels) := by
  induction levels with
  | zero => exact careful_scalar
  | succ levels ih =>
    intro cs rest v h
    unfold value at h
    split at h
    · obtain ⟨⟨vs, rest₁⟩, hvs, heq⟩ := Option.map_eq_some_iff.mp h
      cases heq
      exact .array (items_distinct ih (List.forall_mem_nil _) hvs)
    · exact careful_braces ih h
    · exact careful_scalar h

end Reader

/-- A statement whose value, if it has one, defines no name twice. -/
def Statement.Distinct : Statement → Prop
  | .header .. | .listHeader .. => True
  | .pair _ _ v => v.Distinct

namespace Reader

theorem statement_distinct {s : Statement} {cs rest : List Char}
    (h : statement cs = some (some s, rest)) : s.Distinct := by
  unfold statement at h
  split at h
  case h_3 =>
    split at h
    · cases h
    · obtain ⟨⟨⟨path, name, v⟩, rest₁⟩, hpair, h⟩ := Option.bind_eq_some_iff.mp h
      obtain ⟨rest₂, _, heq⟩ := Option.bind_eq_some_iff.mp h
      cases heq
      exact pair_distinct (careful_value _) hpair
  -- headers have no value
  all_goals
    obtain ⟨⟨⟨path, name⟩, rest₁⟩, _, h⟩ := Option.bind_eq_some_iff.mp h
    obtain ⟨rest₂, _, h⟩ := Option.bind_eq_some_iff.mp h
    obtain ⟨rest₃, _, heq⟩ := Option.bind_eq_some_iff.mp h
    cases heq
    trivial

theorem statements_distinct {fuel : Nat} {seen ss : List Statement} {cs : List Char}
    (hseen : ∀ s ∈ seen, s.Distinct) (h : statements fuel seen cs = some ss) : ∀ s ∈ ss, s.Distinct := by
  induction fuel generalizing seen cs with
  | zero =>
    cases cs with
    | nil =>
      cases h
      exact fun s hs => hseen s (List.mem_reverse.mp hs)
    | cons c cs => cases h
  | succ fuel ih =>
    cases cs with
    | nil =>
      cases h
      exact fun s hs => hseen s (List.mem_reverse.mp hs)
    | cons c cs =>
      obtain ⟨⟨line, rest⟩, hline, h⟩ := Option.bind_eq_some_iff.mp h
      refine ih ?_ h
      intro s hs
      rcases List.mem_append.mp hs with hnew | hold
      · cases Option.mem_toList.mp hnew
        exact statement_distinct hline
      · exact hseen s hold

end Reader

theorem Draft.add_distinct {d d' : Draft} {s : Statement} (hs : s.Distinct) (h : d.root.Distinct)
    (hadd : d.add s = some d') : d'.root.Distinct := by
  cases s with
  | header path name =>
    obtain ⟨root, hroot, heq⟩ := Option.bind_eq_some_iff.mp hadd
    cases heq
    exact careful_changeAt (careful_openTable name) path h hroot
  | listHeader path name =>
    obtain ⟨root, hroot, heq⟩ := Option.bind_eq_some_iff.mp hadd
    cases heq
    exact careful_changeAt (careful_openItem name) path h hroot
  | pair path name v =>
    obtain ⟨root, hroot, heq⟩ := Option.bind_eq_some_iff.mp hadd
    cases heq
    exact careful_changeAt (careful_addPair name hs path) d.current h hroot

theorem parse?_distinct {text : String} {ms : Members} (h : parse? text = some ms) : ms.Distinct := by
  obtain ⟨ss, hss, h⟩ := Option.bind_eq_some_iff.mp h
  obtain ⟨d, hd, heq⟩ := Option.bind_eq_some_iff.mp h
  cases heq
  have hlines := Reader.statements_distinct (List.forall_mem_nil _) hss
  exact foldlM_keeps (fun s hs _ _ => Draft.add_distinct (hlines s hs)) distinct_nil hd

end Rostrum.Toml
