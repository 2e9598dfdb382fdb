/-!
# Bindings

A finite table from keys to values, in which a key stands at most once: binding a key again
replaces its value. `get?` is the view through which everything else is stated; two tables with the
same view differ in their order alone, which nothing looks at.
-/

namespace DescriptionLookup

/-- A finite table from keys to values. -/
structure Bindings (κ α : Type) where
  entries : List (κ × α)
  distinct : (entries.map Prod.fst).Nodup

namespace Bindings

variable {κ α : Type}

/-- The table that binds nothing. -/
def empty : Bindings κ α := ⟨[], List.nodup_nil⟩

instance : Inhabited (Bindings κ α) := ⟨empty⟩

/-- The values that keys are bound to. -/
def values (b : Bindings κ α) : List α := b.entries.map Prod.snd

variable [DecidableEq κ]

/-- The value that a key is bound to. -/
def get? (b : Bindings κ α) (key : κ) : Option α :=
  (b.entries.find? fun entry => entry.1 = key).map Prod.snd

/-- Whether a key is bound. -/
def contains (b : Bindings κ α) (key : κ) : Bool := (b.get? key).isSome

/-- The table in which a key is bound to a value, whatever it was bound to before. -/
def insert (b : Bindings κ α) (key : κ) (value : α) : Bindings κ α where
  entries := (key, value) :: b.entries.filter fun entry => entry.1 ≠ key
  distinct := by
    refine List.nodup_cons.2 ⟨?_, (List.filter_sublist.map Prod.fst).nodup b.distinct⟩
    simp

/-- The table in which a key is not bound. -/
def erase (b : Bindings κ α) (key : κ) : Bindings κ α where
  entries := b.entries.filter fun entry => entry.1 ≠ key
  distinct := (List.filter_sublist.map Prod.fst).nodup b.distinct

/-- The table in which a key that is bound keeps its value, and any other is bound to this one. -/
def insertIfNew (b : Bindings κ α) (key : κ) (value : α) : Bindings κ α :=
  if b.contains key then b else b.insert key value

/-! ### The view -/

@[simp] theorem get?_empty (key : κ) : (empty : Bindings κ α).get? key = none := rfl

@[simp] theorem get?_insert_self (b : Bindings κ α) (key : κ) (value : α) :
    (b.insert key value).get? key = some value := by
  simp [get?, insert]

theorem get?_insert_of_ne (b : Bindings κ α) {key other : κ} (h : other ≠ key) (value : α) :
    (b.insert key value).get? other = b.get? other := by
  have h' : key ≠ other := fun e => h e.symm
  simp only [get?, insert, List.find?_cons, h', decide_false]
  congr 1
  rw [List.find?_filter]
  congr 1
  funext entry
  by_cases e : entry.1 = other <;> simp [e, h]

theorem get?_insert (b : Bindings κ α) (key other : κ) (value : α) :
    (b.insert key value).get? other = if other = key then some value else b.get? other := by
  split
  · next h => rw [h, get?_insert_self]
  · next h => exact get?_insert_of_ne b h value

theorem mem_values_of_get? {b : Bindings κ α} {key : κ} {value : α} (h : b.get? key = some value) :
    value ∈ b.values := by
  obtain ⟨entry, hentry, rfl⟩ := Option.map_eq_some_iff.1 h
  exact List.mem_map_of_mem (List.mem_of_find?_eq_some hentry)

end Bindings

end DescriptionLookup
