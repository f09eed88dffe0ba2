import Mathlib.Data.List.Perm.Basic
import Mathlib.Data.List.Nodup

/-!
# Rust hash maps as association lists

`std::collections::HashMap` is modelled by its entries in iteration order, with
distinct keys carried as a field. Rust leaves that order unspecified. Here an
update in place keeps it, a removal keeps the order of the other entries, and a
new key is appended; what must hold for every order is stated up to permutation.
-/

namespace Parseable

/-- A hash map given by its entries in iteration order; no key occurs twice. -/
structure HashMap (κ α : Type) where
  /-- Key-value pairs in the order `iter()` visits them. -/
  entries : List (κ × α)
  /-- Keys are distinct. -/
  nodup : (entries.map Prod.fst).Nodup

namespace HashMap

variable {κ α : Type} [DecidableEq κ]

/-- Updating values in place keeps the keys, in order. -/
theorem map_fst_modify (l : List (κ × α)) (k : κ) (f : α → α) :
    (l.map fun e => if e.1 = k then (e.1, f e.2) else e).map Prod.fst = l.map Prod.fst := by
  induction l with
  | nil => rfl
  | cons e l ih => by_cases h : e.1 = k <;> simp [h, ih]

/-- Looking up a key at a head entry, under any lawful equality test: its value if the keys
agree, the rest's otherwise. -/
theorem lookup_cons_ite [BEq κ] [LawfulBEq κ] (l : List (κ × α)) (k k₀ : κ) (a₀ : α) :
    ((k₀, a₀) :: l).lookup k = if k = k₀ then some a₀ else l.lookup k := by
  by_cases h : k = k₀ <;> simp [List.lookup_cons, h, beq_false_of_ne]

/-- Updating the value of one key changes only what that key looks up. -/
theorem lookup_map_modify (l : List (κ × α)) (k k' : κ) (f : α → α) :
    (l.map fun e => if e.1 = k then (e.1, f e.2) else e).lookup k' =
      if k' = k then (l.lookup k').map f else l.lookup k' := by
  induction l with
  | nil => simp
  | cons e l ih =>
    obtain ⟨k₀, a₀⟩ := e
    by_cases he : k₀ = k
    · subst he
      by_cases hk : k' = k₀ <;> simp_all [lookup_cons_ite]
    · by_cases hk : k' = k₀
      · subst hk; simp [he, lookup_cons_ite]
      · simp [he, hk, lookup_cons_ite, ih]

/-- Dropping the entries of one key leaves it with nothing and every other key as it was. -/
theorem lookup_filter_ne (l : List (κ × α)) (k k' : κ) :
    (l.filter fun e => !decide (e.1 = k)).lookup k' = if k' = k then none else l.lookup k' := by
  split
  · subst k'
    simp only [List.lookup_eq_none_iff, List.mem_filter]
    intro p hp
    have h2 := hp.2
    simp only [Bool.not_eq_true', decide_eq_false_iff_not] at h2
    simpa using Ne.symm h2
  · induction l with
    | nil => rfl
    | cons e l ih =>
      obtain ⟨k₀, a₀⟩ := e
      by_cases he : k₀ = k
      · simp [he, ih, lookup_cons_ite, ‹k' ≠ k›]
      · simp [he, ih, lookup_cons_ite]

/-- `HashMap::new()`. -/
def empty : HashMap κ α := ⟨[], List.nodup_nil⟩

/-- `keys()`, in iteration order. -/
def keys (m : HashMap κ α) : List κ := m.entries.map Prod.fst

/-- `get(k)`. -/
def get? (m : HashMap κ α) (k : κ) : Option α := m.entries.lookup k

/-- `is_empty()`. -/
def isEmpty (m : HashMap κ α) : Bool := m.entries.isEmpty

/-- `if let Some(v) = get_mut(k) { *v = f(v) }`: the entry keeps its place. -/
def modify (m : HashMap κ α) (k : κ) (f : α → α) : HashMap κ α :=
  ⟨m.entries.map fun e => if e.1 = k then (e.1, f e.2) else e, by
    rw [map_fst_modify]; exact m.nodup⟩

/-- `remove(k)`. -/
def remove (m : HashMap κ α) (k : κ) : HashMap κ α :=
  ⟨m.entries.filter fun e => !decide (e.1 = k), ((List.filter_sublist _).map _).nodup m.nodup⟩

/-- `entry(k).and_modify(f).or_insert(v)`: a new key goes last. -/
def upsert (m : HashMap κ α) (k : κ) (v : α) (f : α → α) : HashMap κ α :=
  if h : k ∈ m.keys then m.modify k f
  else ⟨m.entries ++ [(k, v)], by
    simpa [List.nodup_append] using And.intro m.nodup fun x hx => h (List.mem_map.mpr ⟨_, hx, rfl⟩)⟩

/-- `insert(k, v)`. -/
def insert (m : HashMap κ α) (k : κ) (v : α) : HashMap κ α := m.upsert k v fun _ => v

variable {m m' : HashMap κ α} {k k' : κ} {a v : α} {f : α → α}

omit [DecidableEq κ] in
/-- The empty map has no keys. -/
@[simp] theorem keys_empty : (empty : HashMap κ α).keys = [] := rfl

/-- The empty map holds no key. -/
@[simp] theorem get?_empty : (empty : HashMap κ α).get? k = none := rfl

omit [DecidableEq κ] in
/-- `is_empty` holds exactly when there are no keys. -/
@[simp] theorem isEmpty_iff : m.isEmpty = true ↔ m.keys = [] := by
  simp [isEmpty, keys]

/-- `modify` keeps the keys and their order. -/
@[simp] theorem keys_modify : (m.modify k f).keys = m.keys := map_fst_modify _ _ _

/-- `modify` applies its function to the value of its key only. -/
@[simp] theorem get?_modify :
    (m.modify k f).get? k' = if k' = k then (m.get? k').map f else m.get? k' :=
  lookup_map_modify _ _ _ _

/-- `remove` drops its key and keeps the order of the others. -/
theorem keys_remove : (m.remove k).keys = m.keys.filter (· ≠ k) := by
  simp [remove, keys, List.filter_map, Function.comp_def]

/-- `remove` leaves its key with nothing and the others as they were. -/
@[simp] theorem get?_remove : (m.remove k).get? k' = if k' = k then none else m.get? k' :=
  lookup_filter_ne _ _ _

/-- A key is present exactly when it holds a value. -/
theorem mem_keys : k ∈ m.keys ↔ (m.get? k).isSome := by
  simp only [keys, get?, List.mem_map, List.lookup_isSome_iff, beq_iff_eq]
  exact exists_congr fun _ => and_congr_right fun _ => eq_comm

/-- `upsert` keeps the keys when its key is present and appends it otherwise. -/
theorem keys_upsert :
    (m.upsert k v f).keys = if k ∈ m.keys then m.keys else m.keys ++ [k] := by
  unfold upsert
  split
  · simp [*]
  · simp [keys, *]

/-- `upsert` updates the value of a present key and inserts the default for a new one. -/
@[simp] theorem get?_upsert :
    (m.upsert k v f).get? k' = if k' = k then some ((m.get? k).elim v f) else m.get? k' := by
  unfold upsert
  split
  · rename_i h
    obtain ⟨a, ha⟩ := Option.isSome_iff_exists.mp (mem_keys.mp h)
    by_cases hk : k' = k
    · subst hk; simp [ha]
    · simp [hk]
  · rename_i h
    have hn : m.get? k = none := Option.not_isSome_iff_eq_none.mp (mt mem_keys.mpr h)
    show (m.entries ++ [(k, v)]).lookup k' = _
    rw [List.lookup_append, lookup_cons_ite]
    by_cases hk : k' = k
    · subst hk
      rw [hn]
      simp only [get?] at hn
      simp [hn]
    · simp [hk, get?]

/-- `insert` sets the value of its key and keeps the others. -/
@[simp] theorem get?_insert : (m.insert k v).get? k' = if k' = k then some v else m.get? k' := by
  simp only [insert, get?_upsert]
  cases m.get? k <;> rfl

/-- A key holds a value exactly when their pair is an entry. -/
theorem get?_eq_some_iff : m.get? k = some a ↔ (k, a) ∈ m.entries := by
  obtain ⟨l, hl⟩ := m
  simp only [get?]
  induction l with
  | nil => simp
  | cons e l ih =>
    obtain ⟨k₀, a₀⟩ := e
    obtain ⟨hne, hl⟩ := List.nodup_cons.mp hl
    rw [lookup_cons_ite, List.mem_cons]
    by_cases hk : k = k₀
    · subst hk
      have : (k, a) ∉ l := fun h => hne (List.mem_map.mpr ⟨_, h, rfl⟩)
      simp only [if_pos, Option.some.injEq, Prod.mk.injEq, true_and, this, or_false]
      exact eq_comm
    · simp [hk, ih hl]

/-- Lookups do not depend on the iteration order. -/
theorem get?_eq_of_perm (h : m.entries.Perm m'.entries) : m.get? k = m'.get? k := by
  cases hm : m'.get? k with
  | none =>
    rw [get?, List.lookup_eq_none_iff]
    intro p hp
    have := List.lookup_eq_none_iff.mp hm p (h.subset hp)
    exact this
  | some a => exact get?_eq_some_iff.mpr (h.symm.subset (get?_eq_some_iff.mp hm))

end HashMap

end Parseable
