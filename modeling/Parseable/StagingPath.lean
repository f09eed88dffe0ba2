import Mathlib.Data.List.Basic
import Mathlib.Tactic.Ring
import Parseable.Chrono
import Parseable.HashMap
import Parseable.Utf8

/-!
# Staging file names and their minute

`time_from_path` reads the minute a staging file belongs to from its name,
`date=YYYY-MM-DD.hour=HH.minute=MM` and whatever follows, by fixed byte offsets into the
first three dot-separated pieces; it checks none of the labels. A path is its bytes, as a
Unix `Path` is, and `to_str` checks that the file name is UTF-8 before the pieces are cut. `path_intersects_query`
and `get_staging_prefixes` keep the groups whose minute lies in a query window. Every panic
of the source (an `expect`, an `unwrap`, a string slice out of bounds) is an error here.

The main results: every path of the staging layout reads back the minute written into it,
the four `expect`s fire exactly for a missing file name, a file name that is not UTF-8 and
a name with fewer than two dots, and `get_staging_prefixes` keeps exactly the groups of the
window.
-/

namespace Parseable.StagingPath

open Chrono

/-- How `time_from_path` panics: an `expect` with its message, an `unwrap` of a failed
`parse` or of `LocalResult::None`, or a `str` slice out of bounds or inside a char. -/
inductive Panic
  | expect (msg : String)
  | unwrap
  | sliceIndex
  deriving DecidableEq, Repr

/-! ## The `str` and `Path` operations -/

/-- The char index at byte offset `n` of a `str`, if `n` is a char boundary (the end
included). -/
def charIndexOfByte : List Char → Nat → Option Nat
  | _, 0 => some 0
  | [], _ + 1 => none
  | c :: cs, n + 1 =>
    if c.utf8Size ≤ n + 1 then (charIndexOfByte cs (n + 1 - c.utf8Size)).map (· + 1) else none

/-- `&s[a..b]`; none where Rust panics: `a > b`, `b` past the end, or an offset inside a
char. -/
def slice (s : List Char) (a b : Nat) : Option (List Char) := do
  let i ← charIndexOfByte s a
  let j ← charIndexOfByte s b
  if a ≤ b then some ((s.drop i).take (j - i)) else none

/-- The decimal digits of `from_str_radix`, accumulated most significant first. -/
def digitsValue (acc : Nat) : List Char → Option Nat
  | [] => some acc
  | c :: cs => if c.isDigit then digitsValue (acc * 10 + (c.toNat - '0'.toNat)) cs else none

/-- `str::parse::<u32>`: an optional `+`, then decimal digits, below `2 ^ 32`. -/
def parseU32 : List Char → Option Nat
  | [] | ['+'] | ['-'] => none
  | '+' :: digits | digits => (digitsValue 0 digits).filter (· < 2 ^ 32)

/-- `str::parse::<i32>`: an optional sign, then decimal digits, inside `i32`. -/
def parseI32 : List Char → Option Int
  | [] | ['+'] | ['-'] => none
  | '-' :: digits => (digitsValue 0 digits).bind fun n => if n ≤ 2 ^ 31 then some (-(n : Int)) else none
  | '+' :: digits | digits => (digitsValue 0 digits).bind fun n => if n < 2 ^ 31 then some (n : Int) else none

/-- The text before the first `sep` and the text after it. -/
def splitOnce (sep : Char) : List Char → Option (List Char × List Char)
  | [] => none
  | c :: cs => if c = sep then some ([], cs) else (splitOnce sep cs).map fun p => (c :: p.1, p.2)

/-- `str::splitn(n, sep)`: at most `n` pieces, the last holding the rest of the text. -/
def splitn : Nat → Char → List Char → List (List Char)
  | 0, _, _ => []
  | 1, _, s => [s]
  | n + 2, sep, s =>
    match splitOnce sep s with
    | none => [s]
    | some (piece, rest) => piece :: splitn (n + 1) sep rest

/-- `Path::file_name` of a Unix path, its bytes split at `/` (47): its last component,
unless that is `..` or there is none. `Path::components` drops empty and `.` (46)
components. -/
def fileName (path : List UInt8) : Option (List UInt8) :=
  match ((path.splitOn 47).filter fun c => !(c.isEmpty || c == [46])).getLast? with
  | some c => if c = [46, 46] then none else some c
  | none => none

/-! ## `time_from_path` -/

/-- `Option::expect`. -/
def expect {α : Type} (msg : String) : Option α → Except Panic α
  | some a => .ok a
  | none => .error (.expect msg)

/-- One numeric field: a byte slice of a piece, then `parse().unwrap()`. -/
def field {α : Type} (parse : List Char → Option α) (s : List Char) (a b : Nat) : Except Panic α :=
  match slice s a b with
  | none => .error .sliceIndex
  | some text => (parse text).elim (.error .unwrap) .ok

/-- The fixed-offset reads of `time_from_path` and `Utc.with_ymd_and_hms(..).unwrap()`. -/
def readTime (date hour minute : List Char) : Except Panic DateTime := do
  let year ← field parseI32 date 5 9
  let month ← field parseU32 date 10 12
  let day ← field parseU32 date 13 15
  let hour ← field parseU32 hour 5 7
  let minute ← field parseU32 minute 7 9
  match withYmdAndHms year month day hour minute 0 with
  | some time => pure time
  | none => throw .unwrap

/-- `time_from_path`: the minute a staging file belongs to, read from its name. -/
def timeFromPath (path : List UInt8) : Except Panic DateTime := do
  let name ← expect "all given path are file" (fileName path)
  let text ← expect "filename is valid" (Utf8.toStr name)
  let components := splitn 3 '.' text
  let date ← expect "date=xxxx-xx-xx" components[0]?
  let hour ← expect "hour=xx" components[1]?
  let minute ← expect "minute=xx" components[2]?
  readTime date hour minute

/-- `path_intersects_query`: the file's minute lies in the window, both ends included. -/
def pathIntersectsQuery (path : List UInt8) (starttime endtime : DateTime) : Except Panic Bool := do
  let time ← timeFromPath path
  pure (decide (starttime ≤ time ∧ time ≤ endtime))

/-- `HashMap::retain` with a closure that may panic: the entries kept, in iteration order,
or the panic of the first entry whose test panics. -/
def retainEntries {κ α ε : Type} (p : κ → α → Except ε Bool) : List (κ × α) → Except ε (List (κ × α))
  | [] => .ok []
  | e :: es => do
    let keep ← p e.1 e.2
    let kept ← retainEntries p es
    pure (if keep then e :: kept else kept)

/-- The kept entries are a sublist of the map's entries. -/
theorem retainEntries_sublist {κ α ε : Type} (p : κ → α → Except ε Bool) :
    ∀ {es kept : List (κ × α)}, retainEntries p es = .ok kept → kept.Sublist es
  | [], _, h => by cases h; exact .slnil
  | e :: es, kept, h => by
    cases hp : p e.1 e.2 with
    | error err => simp only [retainEntries, hp, bind, Except.bind] at h; cases h
    | ok keep =>
      cases hr : retainEntries p es with
      | error err => simp only [retainEntries, hp, hr, bind, Except.bind] at h; cases h
      | ok kept' =>
        simp only [retainEntries, hp, hr, bind, Except.bind, pure, Except.pure, Except.ok.injEq] at h
        subst h
        have hs := retainEntries_sublist p hr
        cases keep
        · exact hs.cons e
        · exact hs.cons₂ e

/-- `get_staging_prefixes` over the groups `arrow_files_grouped_by_time` returns: retain the
groups whose minute lies in the window. -/
def getStagingPrefixes (files : HashMap (List UInt8) (List (List UInt8))) (start «end» : DateTime) :
    Except Panic (HashMap (List UInt8) (List (List UInt8))) :=
  match h : retainEntries (fun path _ => pathIntersectsQuery path start «end») files.entries with
  | .error e => .error e
  | .ok kept => .ok ⟨kept, ((retainEntries_sublist _ h).map _).nodup files.nodup⟩

/-! ## Reading fixed-offset fields -/

/-- Byte offset zero is character index zero. -/
theorem charIndexOfByte_zero (s : List Char) : charIndexOfByte s 0 = some 0 := by
  cases s <;> rfl

/-- Within an ASCII prefix a byte offset is the character index. -/
theorem charIndexOfByte_ascii {pre : List Char} (rest : List Char) (hpre : ∀ c ∈ pre, c.utf8Size = 1) :
    ∀ {n : Nat}, n ≤ pre.length → charIndexOfByte (pre ++ rest) n = some n := by
  induction pre with
  | nil => intro n hn; rw [Nat.le_zero.mp hn, charIndexOfByte_zero]
  | cons c cs ih =>
    intro n hn
    cases n with
    | zero => rfl
    | succ n =>
      have hc := hpre c (List.mem_cons_self c cs)
      rw [List.cons_append, charIndexOfByte, hc, if_pos (Nat.le_add_left 1 n), Nat.add_sub_cancel,
        ih (fun x hx => hpre x (List.mem_cons_of_mem c hx)) (Nat.le_of_succ_le_succ hn)]
      rfl

/-- A field inside a prefix of one-byte chars is the text between its offsets. -/
theorem field_ascii {α : Type} (parse : List Char → Option α) {pre : List Char} (rest : List Char)
    (hpre : ∀ c ∈ pre, c.utf8Size = 1) {a b : Nat} (hab : a ≤ b) (hb : b ≤ pre.length) :
    field parse (pre ++ rest) a b = (parse ((pre.drop a).take (b - a))).elim (.error .unwrap) .ok := by
  have hs : slice (pre ++ rest) a b = some ((pre.drop a).take (b - a)) := by
    rw [slice, charIndexOfByte_ascii rest hpre (Nat.le_trans hab hb), charIndexOfByte_ascii rest hpre hb]
    show (if a ≤ b then some _ else none) = _
    rw [if_pos hab, List.drop_append_of_le_length (Nat.le_trans hab hb),
      List.take_append_of_le_length (by simp only [List.length_drop]; omega)]
  rw [field, hs]

/-- Reading back the digits of `n` appends `n` modulo the width to the accumulator. -/
theorem digitsValue_digits (w n : Nat) :
    ∀ acc, digitsValue acc (digits w n) = some (acc * 10 ^ w + n % 10 ^ w) := by
  induction w with
  | zero => intro acc; simp [digits, digitsValue, Nat.mod_one]
  | succ w ih =>
    intro acc
    obtain ⟨hd, hv, -⟩ := digitChar_spec (n / 10 ^ w % 10) (Nat.mod_lt _ (by decide))
    rw [digits, digitsValue, if_pos hd, hv, ih, Nat.pow_succ, Nat.mod_mul]
    congr 1
    ring

/-- A digit is no sign. -/
theorem ne_sign_of_isDigit {c : Char} (hc : c.isDigit = true) : c ≠ '+' ∧ c ≠ '-' := by
  constructor <;> rintro rfl <;> exact absurd hc (by decide)

/-- A u32 parse that starts with a digit reads the digits, bounded by u32. -/
theorem parseU32_of_isDigit {c : Char} (cs : List Char) (hc : c.isDigit = true) :
    parseU32 (c :: cs) = (digitsValue 0 (c :: cs)).filter (· < 2 ^ 32) := by
  obtain ⟨hp, hm⟩ := ne_sign_of_isDigit hc
  unfold parseU32
  split <;> simp_all

/-- An i32 parse that starts with a digit reads the digits, bounded by i32. -/
theorem parseI32_of_isDigit {c : Char} (cs : List Char) (hc : c.isDigit = true) :
    parseI32 (c :: cs) =
      (digitsValue 0 (c :: cs)).bind fun n => if n < 2 ^ 31 then some (n : Int) else none := by
  obtain ⟨hp, hm⟩ := ne_sign_of_isDigit hc
  unfold parseI32
  split <;> simp_all

/-- Two printed digits parse back as a u32. -/
theorem parseU32_digits_two (n : Nat) : parseU32 (digits 2 n) = some (n % 100) := by
  rw [digits, parseU32_of_isDigit _ (digitChar_spec _ (Nat.mod_lt _ (by decide))).1, ← digits,
    digitsValue_digits, Nat.zero_mul, Nat.zero_add]
  rw [show n % 10 ^ Nat.succ 1 = n % 100 from rfl, Option.filter, if_pos (decide_eq_true (by omega))]

/-- Four printed digits parse back as an i32. -/
theorem parseI32_digits_four (n : Nat) : parseI32 (digits 4 n) = some ((n % 10000 : Nat) : Int) := by
  rw [digits, parseI32_of_isDigit _ (digitChar_spec _ (Nat.mod_lt _ (by decide))).1, ← digits,
    digitsValue_digits, Nat.zero_mul, Nat.zero_add]
  show (if n % 10000 < 2 ^ 31 then some ((n % 10000 : Nat) : Int) else none) = _
  exact if_pos (by omega)

/-! ## Pieces of a name -/

/-- Splitting once at the first separator. -/
theorem splitOnce_append {sep : Char} {xs : List Char} (ys : List Char) (h : sep ∉ xs) :
    splitOnce sep (xs ++ sep :: ys) = some (xs, ys) := by
  induction xs with
  | nil => simp [splitOnce]
  | cons c cs ih =>
    have hc : c ≠ sep := fun hc => h (hc ▸ List.mem_cons_self c cs)
    rw [List.cons_append, splitOnce, if_neg hc, ih (fun hm => h (List.mem_cons_of_mem c hm))]
    rfl

/-- Splitting once fails exactly when the separator is absent. -/
theorem splitOnce_eq_none {sep : Char} {s : List Char} : splitOnce sep s = none ↔ sep ∉ s := by
  induction s with
  | nil => simp [splitOnce]
  | cons c cs ih =>
    by_cases hc : c = sep
    · simp [splitOnce, hc]
    · simp [splitOnce, hc, ih, Ne.symm hc]

/-- A split once is at the first separator. -/
theorem splitOnce_eq_some {sep : Char} {s piece rest : List Char} (h : splitOnce sep s = some (piece, rest)) :
    s = piece ++ sep :: rest ∧ sep ∉ piece := by
  induction s generalizing piece with
  | nil => cases h
  | cons c cs ih =>
    by_cases hc : c = sep
    · rw [splitOnce, if_pos hc] at h
      cases h
      simp [hc]
    · rw [splitOnce, if_neg hc] at h
      obtain ⟨⟨piece', rest'⟩, hs, hp⟩ := Option.map_eq_some'.mp h
      cases hp
      obtain ⟨rfl, hn⟩ := ih hs
      simp [hn, Ne.symm hc]

/-- `splitn(n + 1, sep)` cuts at the first `n` separators, so it yields one piece more than
there are separators, up to `n + 1`. -/
theorem length_splitn (sep : Char) (n : Nat) :
    ∀ s : List Char, (splitn (n + 1) sep s).length = min (n + 1) (s.count sep + 1) := by
  induction n with
  | zero => intro s; simp [splitn]
  | succ n ih =>
    intro s
    rw [splitn]
    split
    · rename_i hs
      rw [List.count_eq_zero.mpr (splitOnce_eq_none.mp hs)]
      simp
    · rename_i piece rest hs
      obtain ⟨rfl, hp⟩ := splitOnce_eq_some hs
      rw [List.length_cons, ih, List.count_append, List.count_cons_self, List.count_eq_zero.mpr hp]
      omega

/-- Splitting at dots into three pieces keeps the dots of the last piece. -/
theorem splitn_three {a b : List Char} (c : List Char) (ha : '.' ∉ a) (hb : '.' ∉ b) :
    splitn 3 '.' (a ++ '.' :: (b ++ '.' :: c)) = [a, b, c] := by
  simp only [splitn, splitOnce_append _ ha, splitOnce_append _ hb]

/-- A name below directories, none holding a `/`, is the path's file name, unless it is
empty, `.` or `..`. -/
theorem fileName_intercalate {dirs : List (List UInt8)} {name : List UInt8} (hdirs : ∀ dir ∈ dirs, 47 ∉ dir)
    (hname : 47 ∉ name) (hne : name ≠ []) (hdot : name ≠ [46]) (hdots : name ≠ [46, 46]) :
    fileName ([47].intercalate (dirs ++ [name])) = some name := by
  have hsplit : ([47].intercalate (dirs ++ [name])).splitOn 47 = dirs ++ [name] :=
    List.splitOn_intercalate _ _ (by simpa [or_imp, forall_and] using And.intro hdirs hname) (by simp)
  have hkeep : (!(name.isEmpty || name == [46])) = true := by
    simp [List.isEmpty_iff, hne, hdot]
  simp only [fileName, hsplit, List.filter_append, List.filter_cons, hkeep, if_true, List.filter_nil,
    List.getLast?_concat]
  exact if_neg hdots

/-! ## The staging layout -/

/-- The date piece of a staging file name, `date=YYYY-MM-DD`. -/
def datePiece (time : DateTime) : List Char :=
  "date=".data ++ digits 4 time.year.toNat ++ '-' :: digits 2 time.month ++ '-' :: digits 2 time.day

/-- A staging file name of the minute `time`: `date=YYYY-MM-DD.hour=HH.minute=MM`, then any
further text. -/
def stagingName (time : DateTime) (rest : List Char) : List Char :=
  datePiece time ++ '.' :: ("hour=".data ++ digits 2 time.hour ++ '.' :: ("minute=".data ++ digits 2 time.minute ++ rest))

/-- `path` names a staging file of the minute `time`, written in UTF-8, below any
directories. A four-digit year is what the layout holds. -/
def IsStagingPath (path : List UInt8) (time : DateTime) : Prop :=
  0 ≤ time.year ∧ time.year < 10000 ∧ time.second = 0 ∧
    ∃ dirs rest, (∀ dir ∈ dirs, 47 ∉ dir) ∧ '/' ∉ rest ∧
      path = [47].intercalate (dirs ++ [Utf8.encode (stagingName time rest)])

/-- A one-byte char that separates neither path components nor name pieces. -/
abbrev PlainChar (c : Char) : Prop := c.utf8Size = 1 ∧ c ≠ '.' ∧ c ≠ '/'

/-- Printed digits are plain characters. -/
theorem plainChar_of_mem_digits {w n : Nat} {c : Char} (h : c ∈ digits w n) : PlainChar c := by
  obtain ⟨d, hd, rfl⟩ := mem_digits h
  obtain ⟨hdigit, -, hsize⟩ := digitChar_spec d hd
  refine ⟨hsize, ?_, ?_⟩ <;> intro he <;> rw [he] at hdigit <;> exact absurd hdigit (by decide)

/-- A plain label followed by digits is plain. -/
theorem plainChar_of_mem_label {label : String} (hlabel : ∀ c ∈ label.data, PlainChar c) {w n : Nat} :
    ∀ c ∈ label.data ++ digits w n, PlainChar c := by
  intro c hc
  rcases List.mem_append.mp hc with hc | hc
  · exact hlabel c hc
  · exact plainChar_of_mem_digits hc

/-- A dash followed by digits is plain. -/
theorem plainChar_of_mem_dash {w n : Nat} : ∀ c ∈ '-' :: digits w n, PlainChar c :=
  List.forall_mem_cons.mpr ⟨by decide, fun _ => plainChar_of_mem_digits⟩

/-- The printed date is plain. -/
theorem plainChar_datePiece (time : DateTime) : ∀ c ∈ datePiece time, PlainChar c :=
  List.forall_mem_append.mpr ⟨List.forall_mem_append.mpr ⟨plainChar_of_mem_label (by decide),
    plainChar_of_mem_dash⟩, plainChar_of_mem_dash⟩

/-- The fields of the three pieces read back the minute they were written from. -/
theorem readTime_staging (time : DateTime) (rest : List Char) (hyear : 0 ≤ time.year ∧ time.year < 10000)
    (hsecond : time.second = 0) :
    readTime (datePiece time) ("hour=".data ++ digits 2 time.hour)
      ("minute=".data ++ digits 2 time.minute ++ rest) = .ok time := by
  obtain ⟨-, hmonth, -, hday, hhour, hminute, -⟩ := time.bounds
  have hdate : ∀ c ∈ datePiece time, c.utf8Size = 1 := fun c hc => (plainChar_datePiece time c hc).1
  have hhourPiece : ∀ c ∈ "hour=".data ++ digits 2 time.hour, c.utf8Size = 1 :=
    fun c hc => (plainChar_of_mem_label (by decide) c hc).1
  have hminutePiece : ∀ c ∈ "minute=".data ++ digits 2 time.minute, c.utf8Size = 1 :=
    fun c hc => (plainChar_of_mem_label (by decide) c hc).1
  have hfield := fun {α : Type} (parse : List Char → Option α) (a b : Nat) (hab : a ≤ b) (hb : b ≤ 15) =>
    List.append_nil (datePiece time) ▸ field_ascii parse [] hdate hab (by simpa [datePiece] using hb)
  rw [readTime, hfield parseI32 5 9 (by decide) (by decide), hfield parseU32 10 12 (by decide) (by decide),
    hfield parseU32 13 15 (by decide) (by decide)]
  rw [← List.append_nil ("hour=".data ++ digits 2 time.hour), field_ascii parseU32 [] hhourPiece (by decide)
    (by simp), field_ascii parseU32 rest hminutePiece (by decide) (by simp)]
  have hy : ((time.year.toNat % 10000 : Nat) : Int) = time.year := by omega
  have hyearText : ((datePiece time).drop 5).take (9 - 5) = digits 4 time.year.toNat := rfl
  have hmonthText : ((datePiece time).drop 10).take (12 - 10) = digits 2 time.month := rfl
  have hdayText : ((datePiece time).drop 13).take (15 - 13) = digits 2 time.day := rfl
  have hhourText : (("hour=".data ++ digits 2 time.hour).drop 5).take (7 - 5) = digits 2 time.hour := rfl
  have hminuteText : (("minute=".data ++ digits 2 time.minute).drop 7).take (9 - 7) = digits 2 time.minute := rfl
  rw [hyearText, hmonthText, hdayText, hhourText, hminuteText]
  rw [parseI32_digits_four, parseU32_digits_two, parseU32_digits_two, parseU32_digits_two, parseU32_digits_two,
    hy, Nat.mod_eq_of_lt (by omega : time.month < 100), Nat.mod_eq_of_lt (by omega : time.day < 100),
    Nat.mod_eq_of_lt (by omega : time.hour < 100), Nat.mod_eq_of_lt (by omega : time.minute < 100), ← hsecond]
  simp only [Option.elim, bind, Except.bind, withYmdAndHms_fields]
  rfl

/-- Plain text holds neither a dot nor a slash. -/
theorem not_mem_of_plain {l : List Char} (h : ∀ c ∈ l, PlainChar c) : '.' ∉ l ∧ '/' ∉ l :=
  ⟨fun hc => (h _ hc).2.1 rfl, fun hc => (h _ hc).2.2 rfl⟩

/-- The UTF-8 bytes of a staging name start with the byte of `d`. -/
theorem encode_stagingName_head (time : DateTime) (rest : List Char) :
    ∃ tail, Utf8.encode (stagingName time rest) = 100 :: tail := ⟨_, rfl⟩

/-- A staging path parses back to its time. -/
theorem timeFromPath_of_isStagingPath {path : List UInt8} {time : DateTime} (h : IsStagingPath path time) :
    timeFromPath path = .ok time := by
  obtain ⟨hyear0, hyear, hsecond, dirs, rest, hdirs, hrest, hpath⟩ := h
  have hdate := not_mem_of_plain (plainChar_datePiece time)
  have hhour : '.' ∉ "hour=".data ++ digits 2 time.hour ∧ '/' ∉ "hour=".data ++ digits 2 time.hour :=
    not_mem_of_plain (plainChar_of_mem_label (by decide))
  have hminute : '.' ∉ "minute=".data ++ digits 2 time.minute ∧ '/' ∉ "minute=".data ++ digits 2 time.minute :=
    not_mem_of_plain (plainChar_of_mem_label (by decide))
  have hname : '/' ∉ stagingName time rest := by
    unfold stagingName
    generalize "hour=".data ++ digits 2 time.hour = hourPiece at hhour
    generalize "minute=".data ++ digits 2 time.minute = minutePiece at hminute
    simp only [List.mem_append, List.mem_cons, not_or]
    exact ⟨hdate.2, by decide, hhour.2, by decide, hminute.2, hrest⟩
  -- the name's bytes hold no `/` and are none of the empty name, `.` and `..`
  have hslash : 47 ∉ Utf8.encode (stagingName time rest) :=
    fun hm => hname ((Utf8.mem_encode_of_lt (by decide) _).mp hm)
  obtain ⟨tail, htail⟩ := encode_stagingName_head time rest
  have hhead : ∀ l : List UInt8, l.head? ≠ some 100 → Utf8.encode (stagingName time rest) ≠ l :=
    fun l hl h => hl (by rw [← h, htail]; rfl)
  rw [timeFromPath, hpath, fileName_intercalate hdirs hslash (hhead [] (by decide)) (hhead [46] (by decide))
    (hhead [46, 46] (by decide))]
  simp only [expect, bind, Except.bind, Utf8.toStr_encode, stagingName, splitn_three _ hdate.1 hhour.1]
  exact readTime_staging time rest ⟨hyear0, hyear⟩ hsecond

/-- Every path of the staging layout, its name written in UTF-8 below any directories and
with any text after the minute, reads back the minute its name was written from. -/
theorem timeFromPath_round_trip (dirs : List (List UInt8)) (time : DateTime) (rest : List Char)
    (hyear : 0 ≤ time.year ∧ time.year < 10000) (hsecond : time.second = 0)
    (hdirs : ∀ dir ∈ dirs, 47 ∉ dir) (hrest : '/' ∉ rest) :
    timeFromPath ([47].intercalate (dirs ++ [Utf8.encode (stagingName time rest)])) = .ok time :=
  timeFromPath_of_isStagingPath ⟨hyear.1, hyear.2, hsecond, dirs, rest, hdirs, hrest, rfl⟩

/-- The minute of the source's parquet test. -/
def parquetTestTime : DateTime := ⟨2022, 1, 1, 0, 0, 0, rfl⟩

/-- The name of the source's test reads back its minute. -/
theorem timeFromPath_round_trip_parquet_test :
    stagingName parquetTestTime ".hostname.data.parquet".data =
        "date=2022-01-01.hour=00.minute=00.hostname.data.parquet".data ∧
      (0 ≤ parquetTestTime.year ∧ parquetTestTime.year < 10000) ∧ parquetTestTime.second = 0 ∧
      (∀ dir ∈ ([] : List (List UInt8)), 47 ∉ dir) ∧ '/' ∉ ".hostname.data.parquet".data ∧
      timeFromPath ([47].intercalate ([] ++ [Utf8.encode (stagingName parquetTestTime ".hostname.data.parquet".data)])) =
        .ok parquetTestTime :=
  ⟨rfl, by decide, rfl, List.forall_mem_nil _, by decide,
    timeFromPath_round_trip [] parquetTestTime _ (by decide) rfl (List.forall_mem_nil _) (by decide)⟩

/-! ## The panics of `time_from_path` -/

/-- A field read fails with an error, never with an expect. -/
theorem field_ne_expect {α : Type} (parse : List Char → Option α) (s : List Char) (a b : Nat) (msg : String) :
    field parse s a b ≠ .error (.expect msg) := by
  unfold field
  split
  · exact fun h => nomatch h
  · cases parse _ <;> exact fun h => nomatch h

/-- A bind of two steps that never fail with an expect never does. -/
theorem bind_ne_expect {α β : Type} {r : Except Panic α} {f : α → Except Panic β}
    (hr : ∀ msg, r ≠ .error (.expect msg)) (hf : ∀ a msg, f a ≠ .error (.expect msg)) (msg : String) :
    r >>= f ≠ .error (.expect msg) := by
  cases r with
  | error e => exact fun h => hr msg (congrArg Except.error (Except.error.inj h))
  | ok a => exact hf a msg

/-- The reads after the three pieces panic only by an `unwrap` or a slice. -/
theorem readTime_ne_expect (date hour minute : List Char) (msg : String) :
    readTime date hour minute ≠ .error (.expect msg) := by
  refine bind_ne_expect (field_ne_expect _ _ _ _) (fun _ => bind_ne_expect (field_ne_expect _ _ _ _)
    fun _ => bind_ne_expect (field_ne_expect _ _ _ _) fun _ => bind_ne_expect (field_ne_expect _ _ _ _)
    fun _ => bind_ne_expect (field_ne_expect _ _ _ _) fun _ _ => ?_) msg
  split <;> exact fun h => nomatch h

/-- `time_from_path` after the file name and its UTF-8 text: the three pieces are taken in
turn. -/
theorem timeFromPath_of_toStr {path name : List UInt8} {text : List Char} (hf : fileName path = some name)
    (ht : Utf8.toStr name = some text) :
    timeFromPath path =
      match splitn 3 '.' text with
      | [] => .error (.expect "date=xxxx-xx-xx")
      | [_] => .error (.expect "hour=xx")
      | [_, _] => .error (.expect "minute=xx")
      | date :: hour :: minute :: _ => readTime date hour minute := by
  simp only [timeFromPath, hf, ht, expect, bind, Except.bind]
  rcases splitn 3 '.' text with _ | ⟨date, _ | ⟨hour, _ | ⟨minute, _⟩⟩⟩ <;>
    simp only [List.getElem?_cons_zero, List.getElem?_cons_succ] <;> rfl

/-- The `expect`s of `time_from_path` fire exactly for a path with no file name, for a file
name that is not the UTF-8 encoding of any text, and for a text with no dot or with one; the
one on the date piece never fires, since `splitn` always yields a first piece. -/
theorem timeFromPath_expect_panics (path : List UInt8) (msg : String) :
    timeFromPath path = .error (.expect msg) ↔
      fileName path = none ∧ msg = "all given path are file" ∨
        ∃ name, fileName path = some name ∧
          ((∀ text, name ≠ Utf8.encode text) ∧ msg = "filename is valid" ∨
            ∃ text, name = Utf8.encode text ∧
              (text.count '.' = 0 ∧ msg = "hour=xx" ∨ text.count '.' = 1 ∧ msg = "minute=xx")) := by
  cases hf : fileName path with
  | none =>
    rw [timeFromPath, hf]
    simp [expect, bind, Except.bind, eq_comm]
  | some name =>
    cases ht : Utf8.toStr name with
    | none =>
      -- a name to_str rejects is the encoding of no text
      have hno : ∀ text, name ≠ Utf8.encode text := fun text he => by
        rw [he, Utf8.toStr_encode] at ht
        cases ht
      rw [timeFromPath, hf]
      simp [expect, bind, Except.bind, ht, eq_comm, hno]
    | some text =>
      obtain rfl := Utf8.eq_encode_of_toStr ht
      have hlen : (splitn 3 '.' text).length = min 3 (text.count '.' + 1) := length_splitn '.' 2 text
      have hread : ¬∀ text' : List Char, ¬text = text' := fun h => h text rfl
      rw [timeFromPath_of_toStr hf ht]
      simp only [Option.some.injEq, exists_eq_left', reduceCtorEq, false_and, false_or, Utf8.encode_inj, ne_eq,
        hread]
      rcases hc : splitn 3 '.' text with _ | ⟨date, _ | ⟨hour, _ | ⟨minute, _⟩⟩⟩ <;>
        rw [hc] at hlen <;> simp only [List.length_cons, List.length_nil] at hlen
      · omega
      · simp [eq_comm, show text.count '.' = 0 by omega]
      · simp [eq_comm, show text.count '.' = 1 by omega]
      · simp [readTime_ne_expect, show text.count '.' ≠ 0 by omega, show text.count '.' ≠ 1 by omega]

/-! ## Selecting the groups of a query window -/

/-- When the check of each entry succeeds, the retain keeps the entries the check accepts. -/
theorem retainEntries_eq_ok {κ α ε : Type} (p : κ → α → Except ε Bool) (q : κ × α → Bool) :
    ∀ es : List (κ × α), (∀ e ∈ es, p e.1 e.2 = .ok (q e)) → retainEntries p es = .ok (es.filter q)
  | [], _ => rfl
  | e :: es, h => by
    have hrest := retainEntries_eq_ok p q es fun e' he' => h e' (List.mem_cons_of_mem e he')
    simp only [retainEntries, h e (List.mem_cons_self e es), hrest, bind, Except.bind, pure, Except.pure,
      List.filter_cons]

/-- Over groups keyed by staging paths, `get_staging_prefixes` panics for none and keeps
exactly the groups whose minute lies in the window, both ends included, in their order. -/
theorem getStagingPrefixes_window (files : HashMap (List UInt8) (List (List UInt8))) (start «end» : DateTime)
    (times : List UInt8 → DateTime) (h : ∀ path ∈ files.keys, IsStagingPath path (times path)) :
    (getStagingPrefixes files start «end»).map HashMap.entries =
      .ok (files.entries.filter fun e => decide (start ≤ times e.1 ∧ times e.1 ≤ «end»)) := by
  have hkept := retainEntries_eq_ok (fun path _ => pathIntersectsQuery path start «end»)
    (fun e => decide (start ≤ times e.1 ∧ times e.1 ≤ «end»)) files.entries fun e he => by
      simp only [pathIntersectsQuery, timeFromPath_of_isStagingPath (h e.1 (List.mem_map_of_mem _ he))]
      rfl
  unfold getStagingPrefixes
  split <;> rename_i heq <;> rw [hkept] at heq <;> cases heq
  rfl

/-- Two staged minutes, an hour apart. -/
def stagedMinutes : List (List UInt8 × List (List UInt8)) :=
  [(Utf8.encode "date=2022-01-01.hour=00.minute=00.host.data.arrows".data, []),
    (Utf8.encode "date=2022-01-01.hour=01.minute=00.host.data.arrows".data, [])]

/-- The staged groups of the two minutes. -/
def stagedGroups : HashMap (List UInt8) (List (List UInt8)) := ⟨stagedMinutes, by decide⟩

/-- The minute each staged group's name was written from. -/
def stagedTime (path : List UInt8) : DateTime :=
  if path = Utf8.encode "date=2022-01-01.hour=00.minute=00.host.data.arrows".data then ⟨2022, 1, 1, 0, 0, 0, rfl⟩
  else ⟨2022, 1, 1, 1, 0, 0, rfl⟩

/-- A window of the first half hour keeps the first group only. -/
theorem getStagingPrefixes_window_first_half_hour :
    (∀ path ∈ stagedGroups.keys, IsStagingPath path (stagedTime path)) ∧
      (getStagingPrefixes stagedGroups ⟨2022, 1, 1, 0, 0, 0, rfl⟩ ⟨2022, 1, 1, 0, 30, 0, rfl⟩).map HashMap.entries =
        .ok [(Utf8.encode "date=2022-01-01.hour=00.minute=00.host.data.arrows".data, [])] :=
  have h : ∀ path ∈ stagedGroups.keys, IsStagingPath path (stagedTime path) := by
    simp only [stagedGroups, stagedMinutes, HashMap.keys, List.map_cons, List.map_nil, List.forall_mem_cons]
    exact ⟨⟨by decide, by decide, rfl, [], ".host.data.arrows".data, List.forall_mem_nil _, by decide, rfl⟩,
      ⟨by decide, by decide, rfl, [], ".host.data.arrows".data, List.forall_mem_nil _, by decide, rfl⟩,
      List.forall_mem_nil _⟩
  ⟨h, (getStagingPrefixes_window stagedGroups _ _ stagedTime h).trans rfl⟩

end Parseable.StagingPath
