import Mathlib.Algebra.Order.Ring.Nat
import Mathlib.Data.Int.Defs
import Mathlib.Data.List.Basic
import Parseable.Modal

/-!
# Merging the rows of a COUNT query

flatten_objects_for_count takes the rows of a query result. When every key of every
row starts with COUNT and is the first row's first key, the rows are partial counts
of one aggregate, and it returns a single row holding their sum under that key. Any
other list of rows comes back as it was.

On rows whose keys are distinct, as in a serde_json map, it panics in two cases only:
every key starts with COUNT but the first row is empty, or a merged value is not a
u64. The sum is a u64 and wraps, as in a release build; a debug build would panic on
the overflow instead. Merging is idempotent: a merged row merges to itself.

A row is listed in its map's iteration order, and a JSON number is an integer. The
source marks the function unused.
-/

namespace Parseable.CountFlatten

/-- `str::starts_with`. -/
def startsWith (s pre : String) : Bool := pre.toList.isPrefixOf s.toList

/-- The first `all`: for each row in turn, `obj.as_object().unwrap().keys().all(|key|
key.starts_with("COUNT"))`, stopping at the first false; `none` is the panic of
`unwrap` on a value that is not an object. -/
def allCountKeys : List JsonValue → Option Bool
  | [] => some true
  | obj :: objects =>
    match obj.asObject with
    | none => none
    | some fields =>
      if fields.all (fun field => startsWith field.1 "COUNT") then allCountKeys objects else some false

/-- `objects[0].as_object().unwrap().keys().next()`, read once the first `all` has
unwrapped every row. -/
def firstKey : List JsonValue → Option String
  | .object ((key, _) :: _) :: _ => some key
  | _ => none

/-- The inner `all` of the second: `key == first` for each key of a row, where
`first` is `objects[0]....keys().next().unwrap()` and panics when the first row has
no key. -/
def keysAllFirst (first : Option String) : List String → Option Bool
  | [] => some true
  | key :: keys =>
    match first with
    | none => none
    | some first' => if key = first' then keysAllFirst first keys else some false

/-- The second `all`, over the rows. -/
def allFirstKey (first : Option String) : List JsonValue → Option Bool
  | [] => some true
  | obj :: objects =>
    match obj.asObject with
    | none => none
    | some fields =>
      match keysAllFirst first (fields.map (·.1)) with
      | none => none
      | some true => allFirstKey first objects
      | some false => some false

/-- The fold over a row's keys: `acc + obj.get(key).unwrap().as_u64().unwrap()`. -/
def countKeys (fields : List (String × JsonValue)) (acc : Nat) : List String → Option Nat
  | [] => some acc
  | key :: keys =>
    match (fields.lookup key).bind JsonValue.asU64 with
    | none => none
    | some value => countKeys fields ((acc + value) % 2 ^ 64) keys

/-- The loop `accum += count` over the rows. -/
def accumulate (accum : Nat) : List JsonValue → Option Nat
  | [] => some accum
  | obj :: objects =>
    match obj.asObject with
    | none => none
    | some fields =>
      match countKeys fields 0 (fields.map (·.1)) with
      | none => none
      | some count => accumulate ((accum + count) % 2 ^ 64) objects

/-- `flatten_objects_for_count`; `none` is a panic. -/
def flattenObjectsForCount (objects : List JsonValue) : Option (List JsonValue) :=
  if objects.isEmpty then some objects
  else
    match allCountKeys objects with
    | none => none
    | some false => some objects
    | some true =>
      match allFirstKey (firstKey objects) objects with
      | none => none
      | some false => some objects
      | some true =>
        match firstKey objects with
        | none => none
        | some key => (accumulate 0 objects).map fun (accum : Nat) => [.object [(key, .number (accum : Int))]]

/-! ## The two `all`s on rows -/

/-- Over rows of objects, the COUNT test on every field name always has an answer. -/
theorem allCountKeys_objects (rows : List (List (String × JsonValue))) :
    allCountKeys (rows.map .object) =
      some (rows.all fun row => row.all fun field => startsWith field.1 "COUNT") := by
  induction rows with
  | nil => rfl
  | cons row rows ih =>
    cases h : row.all (fun field => startsWith field.1 "COUNT") <;>
      simp [allCountKeys, JsonValue.asObject, h, ih]

/-- Given a first key, the key test says whether every key is that one. -/
theorem keysAllFirst_some (key : String) (keys : List String) :
    keysAllFirst (some key) keys = some (keys.all (· = key)) := by
  induction keys with
  | nil => rfl
  | cons k keys ih => by_cases hk : k = key <;> simp [keysAllFirst, hk, ih]

/-- A test on the names of a row is a test on its fields. -/
theorem all_map_fst (row : List (String × JsonValue)) (p : String → Bool) :
    (row.map (·.1)).all p = row.all fun field => p field.1 := by
  induction row with
  | nil => rfl
  | cons field row ih => simp [ih]

/-- Given a first key, the row test says whether every field is named by it. -/
theorem allFirstKey_some (key : String) (rows : List (List (String × JsonValue))) :
    allFirstKey (some key) (rows.map .object) = some (rows.all fun row => row.all fun field => field.1 = key) := by
  induction rows with
  | nil => rfl
  | cons row rows ih =>
    cases h : row.all (fun field => field.1 = key) <;>
      simp [allFirstKey, JsonValue.asObject, keysAllFirst_some, all_map_fst, h, ih]

/-- Without a first key the second `all` panics at the first key it meets. -/
theorem allFirstKey_none (rows : List (List (String × JsonValue))) :
    allFirstKey none (rows.map .object) ≠ some false := by
  induction rows with
  | nil => simp [allFirstKey]
  | cons row rows ih =>
    cases row with
    | nil => simpa [allFirstKey, JsonValue.asObject, keysAllFirst] using ih
    | cons field row => simp [allFirstKey, JsonValue.asObject, keysAllFirst]

/-- A first key comes from the first field of the first object. -/
theorem firstKey_eq_some {objects : List JsonValue} {key : String} (h : firstKey objects = some key) :
    ∃ value fields rest, objects = .object ((key, value) :: fields) :: rest := by
  match objects, h with
  | .object ((k, value) :: fields) :: rest, h =>
    obtain rfl : k = key := Option.some.inj h
    exact ⟨value, fields, rest, rfl⟩

/-- The first key of rows that all passed the first `all` starts with COUNT. -/
theorem startsWith_firstKey {objects : List JsonValue} {key : String}
    (h : allCountKeys objects = some true) (hk : firstKey objects = some key) : startsWith key "COUNT" := by
  obtain ⟨value, fields, rest, rfl⟩ := firstKey_eq_some hk
  simp only [allCountKeys, JsonValue.asObject] at h
  split at h
  · rename_i hall
    exact (List.all_eq_true.mp hall _ (List.mem_cons_self _ _))
  · cases h

/-! ## The sum -/

/-- The wrapping sum stays a u64. -/
theorem accumulate_lt {acc a : Nat} (hacc : acc < 2 ^ 64) :
    ∀ objects, accumulate acc objects = some a → a < 2 ^ 64 := by
  intro objects h
  induction objects generalizing acc with
  | nil => cases h; exact hacc
  | cons obj objects ih =>
    simp only [accumulate] at h
    split at h
    · cases h
    · split at h
      · cases h
      · exact ih (Nat.mod_lt _ (Nat.two_pow_pos 64)) h

/-- A row whose keys are distinct and all equal to `key` has at most one entry. -/
theorem row_eq_of_keys {key : String} {row : List (String × JsonValue)} (hnd : (row.map (·.1)).Nodup)
    (hkey : ∀ field ∈ row, field.1 = key) : row = [] ∨ ∃ value, row = [(key, value)] := by
  match row, hnd with
  | [], _ => exact .inl rfl
  | [(k, value)], _ =>
    obtain rfl : k = key := hkey (k, value) (List.mem_singleton_self _)
    exact .inr ⟨value, rfl⟩
  | f :: g :: row, hnd =>
    simp only [List.map_cons, List.nodup_cons, List.mem_cons] at hnd
    exact (hnd.1 (.inl ((hkey f (by simp)).trans (hkey g (by simp)).symm))).elim

/-- Over rows of one key, the loop adds up every value modulo 2^64. -/
theorem accumulate_merge {key : String} :
    ∀ (rows : List (List (String × JsonValue))) {acc : Nat}, acc < 2 ^ 64 →
      (∀ row ∈ rows, (row.map (·.1)).Nodup) → (∀ row ∈ rows, ∀ field ∈ row, field.1 = key) →
      accumulate acc (rows.map .object) =
        (rows.flatten.mapM fun field : String × JsonValue => field.2.asU64).map fun values => (acc + values.sum) % 2 ^ 64
  | [], acc, hacc, _, _ => by
    show some acc = some ((acc + 0) % 2 ^ 64)
    rw [Nat.add_zero, Nat.mod_eq_of_lt hacc]
  | row :: rows, acc, hacc, hnd, hkey => by
    have ih := fun count => accumulate_merge rows (Nat.mod_lt (acc + count) (Nat.two_pow_pos 64))
      (fun r hr => hnd r (List.mem_cons_of_mem _ hr)) (fun r hr => hkey r (List.mem_cons_of_mem _ hr))
    rcases row_eq_of_keys (hnd row (List.mem_cons_self _ _)) (hkey row (List.mem_cons_self _ _)) with
      rfl | ⟨value, rfl⟩
    · -- an empty row adds nothing
      have h0 : (acc + 0) % 2 ^ 64 = acc := by rw [Nat.add_zero, Nat.mod_eq_of_lt hacc]
      simp only [List.map_cons, accumulate, JsonValue.asObject, List.map_nil, countKeys, List.flatten_cons,
        List.nil_append]
      rw [ih 0, h0]
    · -- a row `key: value` adds its value, or panics if it is not a u64
      simp only [List.map_cons, accumulate, JsonValue.asObject, countKeys, List.map_nil, List.lookup_cons_self,
        Option.some_bind, List.flatten_cons, List.singleton_append, List.mapM_cons,
        Option.bind_eq_bind]
      cases hv : value.asU64 with
      | none => simp only [Option.none_bind, Option.map_none']
      | some x =>
        simp only [ih, Option.some_bind]
        cases (rows.flatten.mapM fun field : String × JsonValue => field.2.asU64) with
        | none => rfl
        | some values =>
          simp only [Option.some_bind, Option.pure_def, Option.map_some', List.sum_cons, Nat.zero_add,
            Nat.add_mod_mod, Nat.mod_add_mod, Nat.add_assoc]

/-- A test passes on every row exactly when it passes on every field of every row. -/
theorem all_all_eq_true {p : String × JsonValue → Bool} {rows : List (List (String × JsonValue))} :
    (rows.all fun row => row.all p) = true ↔ ∀ row ∈ rows, ∀ field ∈ row, p field = true := by
  simp only [List.all_eq_true]

/-! ## What it returns -/

/-- On rows whose keys are distinct, flatten_objects_for_count returns the rows as they
were when a key does not start with COUNT, or when every key does and some key is not
the first row's first key. When every key is that first key, it returns one row under
it holding the sum of all values modulo 2^64, or panics if a value is not a u64. When
every key starts with COUNT and the first row is empty, it panics. -/
theorem flattenObjectsForCount_rows (rows : List (List (String × JsonValue))) :
    ((∃ row ∈ rows, ∃ field ∈ row, startsWith field.1 "COUNT" = false) →
        flattenObjectsForCount (rows.map .object) = some (rows.map .object)) ∧
      ((∀ row ∈ rows, ∀ field ∈ row, startsWith field.1 "COUNT" = true) →
        (rows.head? = some [] → flattenObjectsForCount (rows.map .object) = none) ∧
        ∀ key value first rest, rows = ((key, value) :: first) :: rest →
          ((∃ row ∈ rows, ∃ field ∈ row, field.1 ≠ key) →
            flattenObjectsForCount (rows.map .object) = some (rows.map .object)) ∧
          ((∀ row ∈ rows, (row.map (·.1)).Nodup) → (∀ row ∈ rows, ∀ field ∈ row, field.1 = key) →
            flattenObjectsForCount (rows.map .object) =
              (rows.flatten.mapM fun field : String × JsonValue => field.2.asU64).map fun values =>
                [.object [(key, .number (values.sum % 2 ^ 64 : Nat))]])) := by
  have hne : ∀ {row : List (String × JsonValue)}, row ∈ rows → (rows.map JsonValue.object).isEmpty = false :=
    fun hr => by cases rows <;> simp_all
  refine ⟨fun ⟨row, hr, field, hf, hs⟩ => ?_, fun hall => ⟨fun hhead => ?_, fun key value first rest hrows => ?_⟩⟩
  · -- the first all finds a key that does not start with COUNT
    have hfalse : (rows.all fun row => row.all fun field => startsWith field.1 "COUNT") = false :=
      Bool.eq_false_iff.mpr fun h => by simpa [hs] using all_all_eq_true.mp h row hr field hf
    have hc : allCountKeys (rows.map .object) = some false := by rw [allCountKeys_objects, hfalse]
    rw [flattenObjectsForCount, hne hr, hc]
    rfl
  · -- the second all, or the key read after it, panics on the empty first row
    obtain ⟨rest, rfl⟩ : ∃ rest, rows = [] :: rest := by
      cases rows with
      | nil => cases hhead
      | cons row rest => exact ⟨rest, by simpa using hhead⟩
    have hc : allCountKeys (([] :: rest).map .object) = some true := by
      rw [allCountKeys_objects, all_all_eq_true.mpr hall]
    have hf := allFirstKey_none ([] :: rest)
    rw [flattenObjectsForCount, hne (List.mem_cons_self _ _), hc]
    simp only [firstKey, List.map_cons, Bool.false_eq_true, if_false] at hf ⊢
    split <;> simp_all
  · subst hrows
    have hc : allCountKeys ((((key, value) :: first) :: rest).map .object) = some true := by
      rw [allCountKeys_objects, all_all_eq_true.mpr hall]
    have hk : firstKey ((((key, value) :: first) :: rest).map .object) = some key := rfl
    constructor
    · -- another key makes the second all false
      rintro ⟨row, hr, field, hf, hfk⟩
      have hfalse : ((((key, value) :: first) :: rest).all fun row => row.all fun field => field.1 = key) = false :=
        Bool.eq_false_iff.mpr fun h => hfk (of_decide_eq_true (all_all_eq_true.mp h row hr field hf))
      have ha : allFirstKey (some key) ((((key, value) :: first) :: rest).map .object) = some false := by
        rw [allFirstKey_some, hfalse]
      rw [flattenObjectsForCount, hne (List.mem_cons_self _ _), hc, hk, ha]
      rfl
    · -- rows of one key merge into their sum
      intro hnd hkey
      have ha : allFirstKey (some key) ((((key, value) :: first) :: rest).map .object) = some true := by
        rw [allFirstKey_some, all_all_eq_true.mpr fun row hr field hf => by simpa using hkey row hr field hf]
      rw [flattenObjectsForCount, hne (List.mem_cons_self _ _), hc, hk, ha]
      simp only [Bool.false_eq_true, if_false, accumulate_merge _ (Nat.two_pow_pos 64) hnd hkey, Option.map_map,
        Nat.zero_add]
      rfl

/-- Whatever it returns is its input, or one row under a COUNT key holding a u64. -/
theorem flattenObjectsForCount_cases {objects out : List JsonValue} (h : flattenObjectsForCount objects = some out) :
    out = objects ∨ ∃ key, ∃ accum : Nat, startsWith key "COUNT" = true ∧ accum < 2 ^ 64 ∧
      out = [.object [(key, .number accum)]] := by
  unfold flattenObjectsForCount at h
  split at h
  · exact .inl (Option.some.inj h).symm
  split at h
  · cases h
  · exact .inl (Option.some.inj h).symm
  · rename_i hc
    split at h
    · cases h
    · exact .inl (Option.some.inj h).symm
    · split at h
      · cases h
      · rename_i key hk
        obtain ⟨accum, ha, rfl⟩ := Option.map_eq_some'.mp h
        exact .inr ⟨key, accum, startsWith_firstKey hc hk, accumulate_lt (Nat.two_pow_pos 64) objects ha, rfl⟩

/-- A single-field object holds its field. -/
theorem lookup_single (key : String) (value : JsonValue) : [(key, value)].lookup key = some value :=
  List.lookup_cons_self

/-- A merged row merges to itself. -/
theorem flattenObjectsForCount_merged {key : String} {accum : Nat} (hk : startsWith key "COUNT" = true)
    (ha : accum < 2 ^ 64) :
    flattenObjectsForCount [.object [(key, .number accum)]] = some [.object [(key, .number accum)]] := by
  have hu : (JsonValue.number accum).asU64 = some accum := by
    rw [JsonValue.asU64, if_pos ⟨Int.natCast_nonneg accum, by omega⟩, Int.toNat_natCast]
  have hsum : accumulate 0 [.object [(key, .number accum)]] = some accum := by
    rw [accumulate, JsonValue.asObject]
    dsimp only
    rw [List.map_cons, List.map_nil, countKeys, lookup_single, Option.some_bind, hu]
    dsimp only
    rw [countKeys]
    dsimp only
    rw [accumulate, Nat.zero_add, Nat.zero_add, Nat.mod_mod, Nat.mod_eq_of_lt ha]
  have hc : allCountKeys [.object [(key, .number accum)]] = some true := by
    simp [allCountKeys, JsonValue.asObject, hk]
  have hf : allFirstKey (some key) [.object [(key, .number accum)]] = some true := by
    simp [allFirstKey, JsonValue.asObject, keysAllFirst_some]
  simp [flattenObjectsForCount, hc, firstKey, hf, hsum]

/-- flatten_objects_for_count is idempotent: on what it returns, it returns the same. -/
theorem flattenObjectsForCount_idempotent {objects out : List JsonValue}
    (h : flattenObjectsForCount objects = some out) : flattenObjectsForCount out = some out := by
  rcases flattenObjectsForCount_cases h with rfl | ⟨key, accum, hk, ha, rfl⟩
  · exact h
  · exact flattenObjectsForCount_merged hk ha

/-- The partial counts of the source's test_flat_simple. -/
def threeCounts : List JsonValue :=
  [.object [("COUNT(*)", .number 1)], .object [("COUNT(*)", .number 2)], .object [("COUNT(*)", .number 3)]]

/-- They merge into their sum, which merges to itself. -/
theorem flattenObjectsForCount_idempotent_three_counts :
    flattenObjectsForCount threeCounts = some [.object [("COUNT(*)", .number 6)]] ∧
      flattenObjectsForCount [.object [("COUNT(*)", .number 6)]] = some [.object [("COUNT(*)", .number 6)]] :=
  have h : flattenObjectsForCount threeCounts = some [.object [("COUNT(*)", .number 6)]] := rfl
  ⟨h, flattenObjectsForCount_idempotent h⟩

end Parseable.CountFlatten
