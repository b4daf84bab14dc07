/-!
# Keyed lists

Definitions, automata and dictionaries are given as lists of named entries. A name counts once:
giving it again replaces what it stands for but leaves it where it was first given, so the order
of the entries is the order in which the names first appeared.
-/

namespace AmbiLex

/-- Entries under names, looked up by name and listed in order. -/
abbrev Keyed (α : Type) := List (String × α)

namespace Keyed

variable {α : Type}

/-- **Give `key` the value `value`**: in its old place if the key is there, else at the end. -/
def put (entries : Keyed α) (key : String) (value : α) : Keyed α :=
  match entries with
  | [] => [(key, value)]
  | (k, v) :: rest => if k = key then (key, value) :: rest else (k, v) :: put rest key value

/-- The value under a key. -/
def get? (entries : Keyed α) (key : String) : Option α :=
  List.lookup key entries

/-- **The keyed list of a list of entries** in which names may be repeated. -/
def ofList (entries : List (String × α)) : Keyed α :=
  entries.foldl (fun done entry => done.put entry.1 entry.2) []

/-- The names, in order. -/
def keys (entries : Keyed α) : List String :=
  entries.map Prod.fst

@[simp] theorem get?_nil (key : String) : get? ([] : Keyed α) key = none := rfl

theorem get?_cons (k : String) (v : α) (entries : Keyed α) (key : String) :
    get? ((k, v) :: entries) key = if k = key then some v else get? entries key := by
  rw [get?, List.lookup_cons]
  by_cases h : k = key
  · simp [h]
  · simp [beq_false_of_ne (Ne.symm h), h, get?]

@[simp] theorem get?_put (entries : Keyed α) (key key' : String) (value : α) :
    (entries.put key value).get? key' = if key = key' then some value else entries.get? key' := by
  fun_induction put entries key value with
  | case1 => simp [get?_cons]
  | case2 v rest => simp only [get?_cons]; grind
  | case3 k v rest hk ih => simp only [get?_cons, ih]; grind

end Keyed

end AmbiLex
