/-!
Finite maps as lists of entries with one entry per key. Everything a caller needs is said through
`get?`: what each operation does to the look-up of every key.
-/

namespace Emm

/-- A finite map: its entries, no key twice. -/
structure Table (κ : Type u) (ν : Type v) where
  entries : List (κ × ν) := []
  nodup_keys : (entries.map Prod.fst).Nodup := by simp

namespace Table

variable {κ : Type u} {ν : Type v}

def empty : Table κ ν := {}

instance : Inhabited (Table κ ν) := ⟨empty⟩

def size (t : Table κ ν) : Nat := t.entries.length

def isEmpty (t : Table κ ν) : Bool := t.entries.isEmpty

/-- Keeps the entries whose value satisfies `p`. -/
def filterValues (t : Table κ ν) (p : ν → Bool) : Table κ ν where
  entries := t.entries.filter fun e => p e.2
  nodup_keys := (List.filter_sublist.map Prod.fst).nodup t.nodup_keys

def anyValue (t : Table κ ν) (p : ν → Bool) : Bool := t.entries.any fun e => p e.2

section Lookup

variable [DecidableEq κ]

def get? (t : Table κ ν) (k : κ) : Option ν :=
  (t.entries.find? fun e => e.1 = k).map Prod.snd

def contains (t : Table κ ν) (k : κ) : Bool := (t.get? k).isSome

def erase (t : Table κ ν) (k : κ) : Table κ ν where
  entries := t.entries.filter fun e => e.1 ≠ k
  nodup_keys := (List.filter_sublist.map Prod.fst).nodup t.nodup_keys

def insert (t : Table κ ν) (k : κ) (v : ν) : Table κ ν where
  entries := (k, v) :: (t.erase k).entries
  nodup_keys := by
    refine List.nodup_cons.2 ⟨?_, (t.erase k).nodup_keys⟩
    simp [erase]

/-- Changes the value stored under `k`, if there is one. -/
def modify (t : Table κ ν) (k : κ) (f : ν → ν) : Table κ ν where
  entries := t.entries.map fun e => if e.1 = k then (e.1, f e.2) else e
  nodup_keys := by
    have h : (t.entries.map fun e => if e.1 = k then (e.1, f e.2) else e).map Prod.fst =
        t.entries.map Prod.fst := by
      rw [List.map_map]
      refine List.map_congr_left fun e _ => ?_
      simp only [Function.comp_apply]
      split <;> rfl
    rw [h]
    exact t.nodup_keys

@[simp, grind =]
theorem get?_empty (k : κ) : (empty : Table κ ν).get? k = none := rfl

@[simp, grind =]
theorem get?_erase (t : Table κ ν) (k k' : κ) :
    (t.erase k).get? k' = if k' = k then none else t.get? k' := by
  simp only [get?, erase, List.find?_filter]
  split
  · rename_i h
    subst h
    simp
  · rename_i h
    congr 2
    funext e
    by_cases he : e.1 = k'
    · simp [he, h]
    · simp [he]

@[simp, grind =]
theorem get?_insert (t : Table κ ν) (k k' : κ) (v : ν) :
    (t.insert k v).get? k' = if k' = k then some v else t.get? k' := by
  by_cases h : k' = k
  · subst h
    simp [get?, insert]
  · have he := get?_erase t k k'
    rw [if_neg h] at he ⊢
    rw [← he]
    simp only [get?, insert]
    rw [List.find?_cons_of_neg (by simpa using fun e => h e.symm)]

@[simp, grind =]
theorem get?_modify (t : Table κ ν) (k k' : κ) (f : ν → ν) :
    (t.modify k f).get? k' = if k' = k then (t.get? k').map f else t.get? k' := by
  simp only [get?, modify]
  induction t.entries with
  | nil => simp
  | cons e es ih =>
      obtain ⟨a, v⟩ := e
      by_cases ha : a = k
      · by_cases hk : k' = k
        · simp_all
        · have hk' : k ≠ k' := fun h => hk h.symm
          simp_all
      · by_cases hk : a = k' <;> simp_all

theorem get?_eq_some_iff_mem (t : Table κ ν) (k : κ) (v : ν) :
    t.get? k = some v ↔ (k, v) ∈ t.entries := by
  obtain ⟨entries, hnd⟩ := t
  simp only [get?]
  induction entries with
  | nil => simp
  | cons e es ih =>
      obtain ⟨a, w⟩ := e
      rw [List.map_cons, List.nodup_cons] at hnd
      have ih := ih hnd.2
      by_cases ha : a = k
      · subst ha
        have hout : (a, v) ∉ es := fun h => hnd.1 (List.mem_map.2 ⟨_, h, rfl⟩)
        simp [hout, eq_comm]
      · rw [List.find?_cons_of_neg (by simpa using ha), ih]
        simp [Ne.symm ha]

@[grind =]
theorem get?_filterValues (t : Table κ ν) (p : ν → Bool) (k : κ) :
    (t.filterValues p).get? k = (t.get? k).filter p := by
  apply Option.ext
  intro v
  rw [get?_eq_some_iff_mem]
  simp [filterValues, Option.filter_eq_some_iff, ← get?_eq_some_iff_mem]

theorem anyValue_eq_true_iff (t : Table κ ν) (p : ν → Bool) :
    t.anyValue p = true ↔ ∃ k v, t.get? k = some v ∧ p v = true := by
  simp [anyValue, get?_eq_some_iff_mem]

end Lookup

end Table

end Emm
