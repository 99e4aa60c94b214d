/-!
Finite maps from names, written as lists in increasing order of distinct names. The order is the
one of `String`, by code points.
-/

namespace Switchboard.Keyed

variable {α : Type}

def insert (name : String) (a : α) : List (String × α) → List (String × α)
  | [] => [(name, a)]
  | (k, b) :: rest =>
      if name < k then (name, a) :: (k, b) :: rest
      else if k = name then (name, a) :: rest
      else (k, b) :: insert name a rest

def find? (name : String) : List (String × α) → Option α
  | [] => none
  | (k, a) :: rest => if k = name then some a else find? name rest

def erase (name : String) : List (String × α) → List (String × α)
  | [] => []
  | (k, a) :: rest => if k = name then rest else (k, a) :: erase name rest

def modify (name : String) (f : α → α) : List (String × α) → List (String × α)
  | [] => []
  | (k, a) :: rest => if k = name then (k, f a) :: rest else (k, a) :: modify name f rest

def contains (name : String) (entries : List (String × α)) : Bool :=
  (find? name entries).isSome

def names (entries : List (String × α)) : List String := entries.map (·.1)

def values (entries : List (String × α)) : List α := entries.map (·.2)

def ofList (entries : List (String × α)) : List (String × α) :=
  entries.foldl (fun m e => insert e.1 e.2 m) []

theorem find?_insert_self (name : String) (a : α) (entries : List (String × α)) :
    find? name (insert name a entries) = some a := by
  induction entries with
  | nil => simp [insert, find?]
  | cons e rest ih =>
      simp only [insert]
      split
      · simp [find?]
      · split
        · simp [find?]
        · next h => simp [find?, h, ih]

theorem find?_insert_of_ne {name other : String} (h : other ≠ name) (a : α)
    (entries : List (String × α)) :
    find? other (insert name a entries) = find? other entries := by
  induction entries with
  | nil => simp [insert, find?, Ne.symm h]
  | cons e rest ih =>
      simp only [insert]
      split
      · simp [find?, Ne.symm h]
      · split
        · next hk => simp [find?, hk, Ne.symm h]
        · simp [find?, ih]

theorem find?_modify_self (name : String) (f : α → α) (entries : List (String × α)) :
    find? name (modify name f entries) = (find? name entries).map f := by
  induction entries with
  | nil => rfl
  | cons e rest ih =>
      by_cases h : e.1 = name
      · simp [modify, find?, h]
      · simp [modify, find?, h, ih]

theorem names_modify (name : String) (f : α → α) (entries : List (String × α)) :
    names (modify name f entries) = names entries := by
  induction entries with
  | nil => rfl
  | cons e rest ih =>
      by_cases h : e.1 = name
      · simp [modify, names, h]
      · simpa [modify, names, h] using ih

end Switchboard.Keyed
