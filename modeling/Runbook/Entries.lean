/-! Ordered entries.

A mapping keeps its keys in the order in which they first came: a later value for a key
takes the place of the earlier one. -/
namespace Runbook.Entries

variable {κ α : Type} [BEq κ]

def get? (key : κ) : List (κ × α) → Option α
  | [] => none
  | (k, a) :: rest => if k == key then some a else get? key rest

def has (key : κ) (entries : List (κ × α)) : Bool := (get? key entries).isSome

def insert (key : κ) (a : α) : List (κ × α) → List (κ × α)
  | [] => [(key, a)]
  | (k, b) :: rest => if k == key then (k, a) :: rest else (k, b) :: insert key a rest

def erase (key : κ) : List (κ × α) → List (κ × α)
  | [] => []
  | (k, a) :: rest => if k == key then rest else (k, a) :: erase key rest

/-- All of `more` inserted, in order. -/
def merge (entries more : List (κ × α)) : List (κ × α) :=
  more.foldl (fun acc (k, a) => insert k a acc) entries

/-- The mapping that a list of pairs builds up. -/
def ofList (pairs : List (κ × α)) : List (κ × α) := merge [] pairs

def keys (entries : List (κ × α)) : List κ := entries.map (·.1)

section Lawful
variable [LawfulBEq κ]

theorem get?_insert_self (key : κ) (a : α) (entries : List (κ × α)) :
    get? key (insert key a entries) = some a := by
  induction entries with
  | nil => simp [insert, get?]
  | cons e rest ih =>
    by_cases h : e.1 == key
    · simp [insert, get?, h]
    · simp [insert, get?, h, ih]

theorem get?_insert_of_ne {key other : κ} (a : α) (entries : List (κ × α)) (h : other ≠ key) :
    get? other (insert key a entries) = get? other entries := by
  induction entries with
  | nil => simp [insert, get?, Ne.symm h]
  | cons e rest ih =>
    by_cases hk : e.1 == key
    · have : (e.1 == other) = false := by
        rw [eq_of_beq hk]; simpa using Ne.symm h
      simp [insert, get?, hk, this]
    · by_cases ho : e.1 == other
      · simp [insert, get?, hk, ho]
      · simp [insert, get?, hk, ho, ih]

end Lawful
end Runbook.Entries
