/-!
# Tables

Finite maps as lists of entries with distinct keys. A new key goes to the end and a known key keeps
its place, so a table remembers the order in which its keys came.
-/

namespace Saboteur

/-- A finite map. -/
structure Table (κ ν : Type) where
  entries : List (κ × ν)
  deriving DecidableEq

namespace Table

variable {κ ν : Type} [DecidableEq κ]

/-- The map without keys. -/
def empty : Table κ ν := ⟨[]⟩

instance : Inhabited (Table κ ν) := ⟨empty⟩

/-- The first value of a key in a list of entries. -/
def find? (k : κ) : List (κ × ν) → Option ν
  | [] => none
  | (k', v) :: rest => if k' = k then some v else find? k rest

/-- The value of a key. -/
def get? (t : Table κ ν) (k : κ) : Option ν := find? k t.entries

/-- Whether a key has a value. -/
def contains (t : Table κ ν) (k : κ) : Bool := (t.get? k).isSome

/-- Gives a key a value in a list of entries. -/
def put (k : κ) (v : ν) : List (κ × ν) → List (κ × ν)
  | [] => [(k, v)]
  | (k', v') :: rest => if k' = k then (k, v) :: rest else (k', v') :: put k v rest

/-- Gives a key a value. -/
def set (t : Table κ ν) (k : κ) (v : ν) : Table κ ν := ⟨put k v t.entries⟩

/-- Takes a key out. -/
def erase (t : Table κ ν) (k : κ) : Table κ ν := ⟨t.entries.filter fun e => !decide (e.1 = k)⟩

/-- Keeps the entries that satisfy a condition. -/
def filter (t : Table κ ν) (p : κ → ν → Bool) : Table κ ν := ⟨t.entries.filter fun e => p e.1 e.2⟩

/-- Changes the value of a key, or adds the default changed. -/
def alter (t : Table κ ν) (k : κ) (default : ν) (f : ν → ν) : Table κ ν :=
  t.set k (f ((t.get? k).getD default))

/-- Changes every value. -/
def mapValues (t : Table κ ν) (f : ν → ν) : Table κ ν :=
  ⟨t.entries.map fun e => (e.1, f e.2)⟩

/-- The keys in the order in which they came. -/
def keys (t : Table κ ν) : List κ := t.entries.map Prod.fst

/-- The values in the order of their keys. -/
def values (t : Table κ ν) : List ν := t.entries.map Prod.snd

/-- How many keys there are. -/
def size (t : Table κ ν) : Nat := t.entries.length

omit [DecidableEq κ] in
@[simp] theorem entries_empty : (empty : Table κ ν).entries = [] := rfl

@[simp] theorem get?_empty (k : κ) : (empty : Table κ ν).get? k = none := rfl

theorem find?_put (k k' : κ) (v : ν) (es : List (κ × ν)) :
    find? k' (put k v es) = if k = k' then some v else find? k' es := by
  induction es with
  | nil => simp [put, find?]
  | cons e rest ih =>
    obtain ⟨a, b⟩ := e
    by_cases h : a = k
    · subst h
      simp only [put, find?, if_pos]
      split <;> rfl
    · simp only [put, if_neg h, find?, ih]
      by_cases h' : a = k'
      · subst h'
        simp [Ne.symm h]
      · simp [h']

/-- **A key that was given a value has it, and every other key keeps its own.** -/
@[simp] theorem get?_set (t : Table κ ν) (k k' : κ) (v : ν) :
    (t.set k v).get? k' = if k = k' then some v else t.get? k' := find?_put k k' v t.entries

theorem find?_filter_ne (k k' : κ) (es : List (κ × ν)) :
    find? k' (es.filter fun e => !decide (e.1 = k)) = if k = k' then none else find? k' es := by
  induction es with
  | nil => simp [find?]
  | cons e rest ih =>
    obtain ⟨a, b⟩ := e
    by_cases h : a = k
    · subst h
      simp only [decide_true, Bool.not_true, Bool.false_eq_true, not_false_eq_true,
        List.filter_cons_of_neg, ih, find?]
      split <;> rfl
    · by_cases h' : a = k'
      · subst h'
        simp [find?, h, Ne.symm h]
      · simp [find?, h, h', ih]

/-- **A key that was taken out has no value, and every other key keeps its own.** -/
@[simp] theorem get?_erase (t : Table κ ν) (k k' : κ) :
    (t.erase k).get? k' = if k = k' then none else t.get? k' := find?_filter_ne k k' t.entries

omit [DecidableEq κ] in
@[simp] theorem entries_mapValues (t : Table κ ν) (f : ν → ν) :
    (t.mapValues f).entries = t.entries.map fun e => (e.1, f e.2) := rfl

theorem find?_map (k : κ) (f : ν → ν) (es : List (κ × ν)) :
    find? k (es.map fun e => (e.1, f e.2)) = (find? k es).map f := by
  induction es with
  | nil => rfl
  | cons e rest ih =>
    by_cases h : e.1 = k <;> simp [find?, h, ih]

/-- **Changing every value changes the value of each key.** -/
@[simp] theorem get?_mapValues (t : Table κ ν) (f : ν → ν) (k : κ) :
    (t.mapValues f).get? k = (t.get? k).map f := find?_map k f t.entries

end Table

end Saboteur
