/-!
Association lists by name in insertion order: writing to a name that is present keeps its place, a new
name goes to the end.
-/

namespace TagScript

abbrev Assoc (α : Type u) := List (String × α)

namespace Assoc

variable {α : Type u}

def get? (name : String) : Assoc α → Option α
  | [] => none
  | (key, value) :: rest => if key = name then some value else get? name rest

def has (name : String) (entries : Assoc α) : Bool :=
  (get? name entries).isSome

def set (name : String) (value : α) : Assoc α → Assoc α
  | [] => [(name, value)]
  | (key, old) :: rest =>
    if key = name then (key, value) :: rest else (key, old) :: set name value rest

def erase (name : String) : Assoc α → Assoc α
  | [] => []
  | (key, value) :: rest => if key = name then rest else (key, value) :: erase name rest

def merge (entries : Assoc α) : Assoc α → Assoc α
  | [] => entries
  | (key, value) :: rest => merge (set key value entries) rest

/-- Entries written one after the other, so that a repeated name keeps its first place and its last
value. -/
def ofList (entries : List (String × α)) : Assoc α :=
  merge [] entries

def names (entries : Assoc α) : List String :=
  entries.map Prod.fst

theorem get?_set_self (name : String) (value : α) (entries : Assoc α) :
    get? name (set name value entries) = some value := by
  induction entries with
  | nil => simp [set, get?]
  | cons entry rest ih =>
    obtain ⟨key, old⟩ := entry
    by_cases same : key = name <;> simp [set, get?, same, ih]

theorem get?_set_other {name other : String} (different : other ≠ name) (value : α)
    (entries : Assoc α) : get? other (set name value entries) = get? other entries := by
  induction entries with
  | nil => simp [set, get?, Ne.symm different]
  | cons entry rest ih =>
    obtain ⟨key, old⟩ := entry
    by_cases same : key = name
    · subst same
      simp [set, get?, Ne.symm different]
    · by_cases here : key = other
      · subst here
        simp [set, get?, same]
      · simp [set, get?, same, here, ih]

theorem mem_of_get? {name : String} {value : α} {entries : Assoc α} (found : get? name entries = some value) :
    (name, value) ∈ entries := by
  induction entries with
  | nil => cases found
  | cons entry rest ih =>
    obtain ⟨key, old⟩ := entry
    unfold get? at found
    split at found
    · rename_i same
      cases found
      subst same
      exact List.mem_cons_self
    · exact List.mem_cons_of_mem _ (ih found)

theorem mem_of_mem_erase {name : String} {entry : String × α} {entries : Assoc α}
    (member : entry ∈ erase name entries) : entry ∈ entries := by
  induction entries with
  | nil => cases member
  | cons first rest ih =>
    obtain ⟨key, old⟩ := first
    unfold erase at member
    split at member
    · exact List.mem_cons_of_mem _ member
    · rcases List.mem_cons.1 member with here | further
      · exact here ▸ List.mem_cons_self
      · exact List.mem_cons_of_mem _ (ih further)

theorem mem_set {name : String} {value : α} {entry : String × α} {entries : Assoc α}
    (member : entry ∈ set name value entries) : entry ∈ entries ∨ entry = (name, value) := by
  induction entries with
  | nil => exact .inr (List.mem_singleton.1 member)
  | cons first rest ih =>
    obtain ⟨key, old⟩ := first
    unfold set at member
    split at member
    · rename_i same
      subst same
      rcases List.mem_cons.1 member with here | further
      · exact .inr here
      · exact .inl (List.mem_cons_of_mem _ further)
    · rcases List.mem_cons.1 member with here | further
      · exact .inl (here ▸ List.mem_cons_self)
      · exact (ih further).imp (List.mem_cons_of_mem _) id

end Assoc

end TagScript
