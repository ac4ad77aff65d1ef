/-!
# Finite tables in key order

A table is a list of entries kept in increasing order of their keys.  Iteration order is
therefore part of the type: two tables with the same entries list them alike, whatever
the history of insertions.  The two look-up lemmas hold of any list of entries, so they
need no side condition.
-/

namespace EditorLisp

/-- A finite map that lists its entries in key order. -/
structure Table (κ : Type) (α : Type) where
  /-- The entries, in increasing order of their keys. -/
  entries : List (κ × α)
deriving Repr

namespace Table

variable {κ α β : Type} [DecidableEq κ] [LT κ] [DecidableLT κ]

/-- The table without entries. -/
def empty : Table κ α := ⟨[]⟩

instance : EmptyCollection (Table κ α) := ⟨empty⟩
instance : Inhabited (Table κ α) := ⟨empty⟩

def getList? (key : κ) : List (κ × α) → Option α
  | [] => none
  | (k, a) :: rest => if k = key then some a else getList? key rest

def insertList (key : κ) (a : α) : List (κ × α) → List (κ × α)
  | [] => [(key, a)]
  | (k, b) :: rest =>
    if k = key then (key, a) :: rest
    else if key < k then (key, a) :: (k, b) :: rest
    else (k, b) :: insertList key a rest

def get? (t : Table κ α) (key : κ) : Option α := getList? key t.entries

def contains (t : Table κ α) (key : κ) : Bool := (t.get? key).isSome

def insert (t : Table κ α) (key : κ) (a : α) : Table κ α := ⟨insertList key a t.entries⟩

def erase (t : Table κ α) (key : κ) : Table κ α := ⟨t.entries.filter (fun e => ¬ e.1 = key)⟩

/-- Change the value under a key, if it has one. -/
def modify (t : Table κ α) (key : κ) (f : α → α) : Table κ α :=
  ⟨t.entries.map fun e => if e.1 = key then (e.1, f e.2) else e⟩

def set? (t : Table κ α) (key : κ) : Option α → Table κ α
  | some a => t.insert key a
  | none => t.erase key

/-- The keys in order. -/
def keys (t : Table κ α) : List κ := t.entries.map Prod.fst

def values (t : Table κ α) : List α := t.entries.map Prod.snd

def size (t : Table κ α) : Nat := t.entries.length

/-- Whether there are no entries. -/
def isEmpty (t : Table κ α) : Bool := t.entries.isEmpty

/-- Change every value. -/
def mapValues (t : Table κ α) (f : α → β) : Table κ β := ⟨t.entries.map fun e => (e.1, f e.2)⟩

/-- A table from a list of entries; of two entries with one key the later one stays. -/
def ofList (entries : List (κ × α)) : Table κ α :=
  entries.foldl (fun t e => t.insert e.1 e.2) empty

omit [LT κ] [DecidableLT κ] in
@[simp]
theorem get?_empty (key : κ) : (empty : Table κ α).get? key = none := rfl

theorem getList?_insertList (key other : κ) (a : α) (entries : List (κ × α)) :
    getList? other (insertList key a entries) =
      if key = other then some a else getList? other entries := by
  induction entries with
  | nil => simp [insertList, getList?]
  | cons entry rest ih =>
    obtain ⟨k, b⟩ := entry
    by_cases hk : k = key
    · subst hk
      by_cases ho : k = other <;> simp [insertList, getList?, ho]
    · by_cases hlt : key < k
      · by_cases ho : key = other
        · subst ho
          simp [insertList, getList?, hk, hlt]
        · simp [insertList, getList?, hk, hlt, ho]
      · simp only [insertList, hk, hlt, if_false, getList?, ih]
        by_cases ho : k = other
        · have : ¬ key = other := fun h => hk (ho.trans h.symm)
          simp [ho, this]
        · simp [ho]

/-- Look-up after insertion. -/
@[simp]
theorem get?_insert (t : Table κ α) (key other : κ) (a : α) :
    (t.insert key a).get? other = if key = other then some a else t.get? other :=
  getList?_insertList key other a t.entries

omit [LT κ] [DecidableLT κ] in
theorem getList?_filter (key other : κ) (entries : List (κ × α)) :
    getList? other (entries.filter (fun e => ¬ e.1 = key)) =
      if key = other then none else getList? other entries := by
  induction entries with
  | nil => simp [getList?]
  | cons entry rest ih =>
    obtain ⟨k, b⟩ := entry
    by_cases hk : k = key
    · subst hk
      simp only [List.filter_cons, getList?]
      by_cases ho : k = other
      · simpa [ho] using ih
      · simpa [ho] using ih
    · simp only [List.filter_cons, hk, not_false_eq_true, decide_true, if_true, getList?]
      by_cases ho : k = other
      · have : ¬ key = other := fun h => hk (ho.trans h.symm)
        simp [ho, this]
      · simpa [ho] using ih

omit [LT κ] [DecidableLT κ] in
/-- Look-up after removal. -/
@[simp]
theorem get?_erase (t : Table κ α) (key other : κ) :
    (t.erase key).get? other = if key = other then none else t.get? other :=
  getList?_filter key other t.entries

end Table

end EditorLisp
