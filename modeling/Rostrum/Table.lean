/-!
# Finite tables

A table holds at most one value under each key. Keys stand in the order in which they were first
put in, which is the order in which a table is walked through. The view of a table is `get?`: every
operation is described by what it does to `get?`.
-/

namespace Rostrum

/-- A finite table, as its entries in order. -/
structure Table (κ : Type) (α : Type) where
  entries : List (κ × α) := []
deriving Repr

namespace Table

variable {κ α : Type} [DecidableEq κ]

instance : Inhabited (Table κ α) := ⟨{}⟩

def empty : Table κ α := {}

/-- The value under a key, in a list of entries. -/
def find (k : κ) : List (κ × α) → Option α
  | [] => none
  | (k', v) :: rest => if k' = k then some v else find k rest

/-- The value under a key. -/
def get? (t : Table κ α) (k : κ) : Option α := find k t.entries

def contains (t : Table κ α) (k : κ) : Bool := (t.get? k).isSome

/-- Puts a value under a key, in a list of entries. -/
def store (k : κ) (v : α) : List (κ × α) → List (κ × α)
  | [] => [(k, v)]
  | (k', v') :: rest => if k' = k then (k, v) :: rest else (k', v') :: store k v rest

/-- Puts a value under a key, in place of the one there. -/
def put (t : Table κ α) (k : κ) (v : α) : Table κ α := ⟨store k v t.entries⟩

/-- Removes what is under a key. -/
def erase (t : Table κ α) (k : κ) : Table κ α := ⟨t.entries.filter fun e => e.1 ≠ k⟩

/-- Changes what is under a key, if anything is. -/
def modify (t : Table κ α) (k : κ) (f : α → α) : Table κ α :=
  match t.get? k with
  | some v => t.put k (f v)
  | none => t

def size (t : Table κ α) : Nat := t.entries.length

def keys (t : Table κ α) : List κ := t.entries.map Prod.fst

def values (t : Table κ α) : List α := t.entries.map Prod.snd

@[simp] theorem get?_empty (k : κ) : (empty : Table κ α).get? k = none := rfl

theorem find_store (k k' : κ) (v : α) (es : List (κ × α)) :
    find k' (store k v es) = if k = k' then some v else find k' es := by
  induction es with
  | nil => simp [store, find]
  | cons e rest ih =>
    obtain ⟨k₁, v₁⟩ := e
    by_cases h : k₁ = k
    · subst h
      by_cases h' : k₁ = k' <;> simp [store, find, h']
    · by_cases h' : k₁ = k'
      · subst h'
        simp [store, find, h, Ne.symm h]
      · simp [store, find, h, h', ih]

theorem get?_put (t : Table κ α) (k k' : κ) (v : α) :
    (t.put k v).get? k' = if k = k' then some v else t.get? k' :=
  find_store k k' v t.entries

@[simp] theorem get?_put_self (t : Table κ α) (k : κ) (v : α) :
    (t.put k v).get? k = some v := by simp [get?_put]

theorem get?_put_of_ne (t : Table κ α) {k k' : κ} (v : α) (h : k ≠ k') :
    (t.put k v).get? k' = t.get? k' := by simp [get?_put, h]

theorem get?_modify (t : Table κ α) (k k' : κ) (f : α → α) :
    (t.modify k f).get? k' = if k = k' then (t.get? k).map f else t.get? k' := by
  unfold modify
  cases h : t.get? k with
  | none => by_cases hk : k = k' <;> simp_all
  | some v => simp [get?_put]

theorem find_filter (k k' : κ) (es : List (κ × α)) :
    find k' (es.filter fun e => e.1 ≠ k) = if k = k' then none else find k' es := by
  induction es with
  | nil => simp [find]
  | cons e rest ih =>
    obtain ⟨k₁, v₁⟩ := e
    by_cases h : k₁ = k
    · subst h
      by_cases h' : k₁ = k'
      · subst h'
        simpa [find] using ih
      · simpa [find, h'] using ih
    · by_cases h' : k₁ = k'
      · subst h'
        simp [find, h, Ne.symm h]
      · simpa [find, h, h'] using ih

theorem get?_erase (t : Table κ α) (k k' : κ) :
    (t.erase k).get? k' = if k = k' then none else t.get? k' :=
  find_filter k k' t.entries

@[simp] theorem get?_erase_self (t : Table κ α) (k : κ) : (t.erase k).get? k = none := by
  simp [get?_erase]

theorem get?_erase_of_ne (t : Table κ α) {k k' : κ} (h : k ≠ k') :
    (t.erase k).get? k' = t.get? k' := by simp [get?_erase, h]

end Table

end Rostrum
