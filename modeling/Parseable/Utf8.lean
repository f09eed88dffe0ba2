import Mathlib.Data.List.Basic

/-!
# UTF-8 validation of file names

On Unix `OsStr::to_str` is `str::from_utf8(bytes).ok()`, and `str::from_utf8` runs
`run_utf8_validation` over the bytes. A leading byte gives the width of its char by
`UTF8_CHAR_WIDTH`; the second byte of a three- or four-byte char is matched against a
narrower range that leaves out overlong forms, surrogates and code points past U+10FFFF;
every other byte of a char must be a continuation byte `10xxxxxx`. The model returns the
chars the bytes carry, which is the text the later `str` operations see.

The main results: the UTF-8 encoding of any text passes and reads back that text, and the
bytes that pass are exactly the encodings, so a name that passes has one reading.
-/

namespace Parseable.Utf8

/-! ## `run_utf8_validation` -/

/-- `UTF8_CHAR_WIDTH[b]`: the width of the char a leading byte starts, 0 for a byte that
starts none (a continuation byte, the overlong leads 0xC0 and 0xC1, and 0xF5 on). -/
def utf8CharWidth (b : UInt8) : Nat :=
  if b.toNat < 0x80 then 1
  else if b.toNat < 0xC2 then 0
  else if b.toNat < 0xE0 then 2
  else if b.toNat < 0xF0 then 3
  else if b.toNat < 0xF5 then 4
  else 0

/-- The byte passes `next!() as i8 >= -64`'s negation: a continuation byte `10xxxxxx`. -/
def isCont (b : UInt8) : Bool := 0x80 ≤ b.toNat && b.toNat < 0xC0

/-- The second byte of a three-byte char, matched against the first: after 0xE0 the range
leaves out overlong forms, after 0xED the surrogates. -/
def secondOf3 (first second : UInt8) : Bool :=
  if first.toNat = 0xE0 then 0xA0 ≤ second.toNat && second.toNat < 0xC0
  else if first.toNat = 0xED then 0x80 ≤ second.toNat && second.toNat < 0xA0
  else isCont second

/-- The second byte of a four-byte char, matched against the first: after 0xF0 the range
leaves out overlong forms, after 0xF4 the code points past U+10FFFF. -/
def secondOf4 (first second : UInt8) : Bool :=
  if first.toNat = 0xF0 then 0x90 ≤ second.toNat && second.toNat < 0xC0
  else if first.toNat = 0xF4 then 0x80 ≤ second.toNat && second.toNat < 0x90
  else isCont second

/-- The code point of a two-byte char: five bits of the leading byte, six of the next. -/
def decode2 (b0 b1 : UInt8) : Nat := b0.toNat % 32 * 64 + b1.toNat % 64

/-- The code point of a three-byte char: four bits of the leading byte, six of each next. -/
def decode3 (b0 b1 b2 : UInt8) : Nat := (b0.toNat % 16 * 64 + b1.toNat % 64) * 64 + b2.toNat % 64

/-- The code point of a four-byte char: three bits of the leading byte, six of each next. -/
def decode4 (b0 b1 b2 b3 : UInt8) : Nat :=
  ((b0.toNat % 8 * 64 + b1.toNat % 64) * 64 + b2.toNat % 64) * 64 + b3.toNat % 64

/-- `str::from_utf8(bytes).ok()`, which `OsStr::to_str` is on Unix: run_utf8_validation
walks the bytes char by char, each read off its bytes here, and fails at the first char
that is not well formed. -/
def toStr : List UInt8 → Option (List Char)
  | [] => some []
  | b0 :: rest =>
    match utf8CharWidth b0, rest with
    | 1, rest => (toStr rest).map (Char.ofNat b0.toNat :: ·)
    | 2, b1 :: rest => if isCont b1 then (toStr rest).map (Char.ofNat (decode2 b0 b1) :: ·) else none
    | 3, b1 :: b2 :: rest =>
      if secondOf3 b0 b1 && isCont b2 then (toStr rest).map (Char.ofNat (decode3 b0 b1 b2) :: ·) else none
    | 4, b1 :: b2 :: b3 :: rest =>
      if secondOf4 b0 b1 && isCont b2 && isCont b3 then
        (toStr rest).map (Char.ofNat (decode4 b0 b1 b2 b3) :: ·)
      else none
    | _, _ => none

/-! ## The encoding -/

/-- The UTF-8 encoding of a char: one byte below U+0080, otherwise a leading byte that
holds the width and the high bits, then continuation bytes of six bits each. -/
def encodeChar (c : Char) : List UInt8 :=
  let n := c.toNat
  if n < 0x80 then [.ofNat n]
  else if n < 0x800 then [.ofNat (0xC0 + n / 64), .ofNat (0x80 + n % 64)]
  else if n < 0x10000 then [.ofNat (0xE0 + n / 4096), .ofNat (0x80 + n / 64 % 64), .ofNat (0x80 + n % 64)]
  else
    [.ofNat (0xF0 + n / 262144), .ofNat (0x80 + n / 4096 % 64), .ofNat (0x80 + n / 64 % 64),
      .ofNat (0x80 + n % 64)]

/-- The UTF-8 encoding of a text: the bytes of a Rust `str`. -/
def encode (cs : List Char) : List UInt8 := cs.flatMap encodeChar

/-- The empty text has no bytes. -/
@[simp] theorem encode_nil : encode [] = [] := rfl

/-- The bytes of a text are those of its first character, then the rest. -/
@[simp] theorem encode_cons (c : Char) (cs : List Char) : encode (c :: cs) = encodeChar c ++ encode cs := rfl

/-! ## Bytes as numbers -/

/-- A byte built from a number below 256 has that number. -/
theorem toNat_ofNat {x : Nat} (h : x < 256) : (UInt8.ofNat x).toNat = x := UInt8.toNat_ofNat_of_lt h

/-- A byte is the byte of its number. -/
theorem ofNat_eq {x : Nat} {b : UInt8} (h : x = b.toNat) : UInt8.ofNat x = b :=
  UInt8.toNat.inj (h ▸ toNat_ofNat (h ▸ b.toNat_lt_size))

/-- A char's code point is a Unicode scalar value. -/
theorem toNat_valid (c : Char) : c.toNat < 0xD800 ∨ 0xDFFF < c.toNat ∧ c.toNat < 0x110000 := c.valid

/-- `Char.ofNat` keeps a Unicode scalar value. -/
theorem toNat_charOfNat {n : Nat} (h : n < 0xD800 ∨ 0xDFFF < n ∧ n < 0x110000) : (Char.ofNat n).toNat = n := by
  rw [Char.ofNat, dif_pos h]
  rfl

/-- The width table by ranges of the leading byte. -/
theorem utf8CharWidth_eq (b : UInt8) :
    (utf8CharWidth b = 1 ↔ b.toNat < 0x80) ∧ (utf8CharWidth b = 2 ↔ 0xC2 ≤ b.toNat ∧ b.toNat < 0xE0) ∧
      (utf8CharWidth b = 3 ↔ 0xE0 ≤ b.toNat ∧ b.toNat < 0xF0) ∧
      (utf8CharWidth b = 4 ↔ 0xF0 ≤ b.toNat ∧ b.toNat < 0xF5) := by
  unfold utf8CharWidth
  split_ifs <;> simp <;> omega

/-- A continuation byte is one from 0x80 to 0xBF. -/
theorem isCont_iff {b : UInt8} : isCont b = true ↔ 0x80 ≤ b.toNat ∧ b.toNat < 0xC0 := by
  simp [isCont]

/-- The second byte of a three-byte char by ranges. -/
theorem secondOf3_iff {b0 b1 : UInt8} :
    secondOf3 b0 b1 = true ↔ (b0.toNat = 0xE0 → 0xA0 ≤ b1.toNat) ∧ (b0.toNat = 0xED → b1.toNat < 0xA0) ∧
      0x80 ≤ b1.toNat ∧ b1.toNat < 0xC0 := by
  unfold secondOf3
  split_ifs <;> simp [isCont] <;> omega

/-- The second byte of a four-byte char by ranges. -/
theorem secondOf4_iff {b0 b1 : UInt8} :
    secondOf4 b0 b1 = true ↔ (b0.toNat = 0xF0 → 0x90 ≤ b1.toNat) ∧ (b0.toNat = 0xF4 → b1.toNat < 0x90) ∧
      0x80 ≤ b1.toNat ∧ b1.toNat < 0xC0 := by
  unfold secondOf4
  split_ifs <;> simp [isCont] <;> omega

/-! ## The bytes of a char's encoding -/

/-- A continuation byte built from six bits has its number. -/
theorem toNat_cont (n : Nat) : (UInt8.ofNat (0x80 + n % 64)).toNat = 0x80 + n % 64 := toNat_ofNat (by omega)

/-- A byte built as 0x80 plus six bits is a continuation byte. -/
theorem isCont_cont (n : Nat) : isCont (.ofNat (0x80 + n % 64)) = true :=
  isCont_iff.mpr (by rw [toNat_cont]; omega)

/-- A continuation byte is 0x80 plus its six low bits. -/
theorem ofNat_cont {b : UInt8} (h : isCont b = true) : UInt8.ofNat (0x80 + b.toNat % 64) = b :=
  ofNat_eq (by have := isCont_iff.mp h; omega)

/-- The six low bits of a decoded two-byte char are those of its second byte, the rest
those of its leading byte. -/
theorem decode2_digits (b0 b1 : UInt8) :
    decode2 b0 b1 % 64 = b1.toNat % 64 ∧ decode2 b0 b1 / 64 = b0.toNat % 32 := by
  unfold decode2; omega

/-- The groups of six bits of a decoded three-byte char are those of its bytes. -/
theorem decode3_digits (b0 b1 b2 : UInt8) :
    decode3 b0 b1 b2 % 64 = b2.toNat % 64 ∧ decode3 b0 b1 b2 / 64 % 64 = b1.toNat % 64 ∧
      decode3 b0 b1 b2 / 4096 = b0.toNat % 16 := by
  unfold decode3; omega

/-- The groups of six bits of a decoded four-byte char are those of its bytes. -/
theorem decode4_digits (b0 b1 b2 b3 : UInt8) :
    decode4 b0 b1 b2 b3 % 64 = b3.toNat % 64 ∧ decode4 b0 b1 b2 b3 / 64 % 64 = b2.toNat % 64 ∧
      decode4 b0 b1 b2 b3 / 4096 % 64 = b1.toNat % 64 ∧ decode4 b0 b1 b2 b3 / 262144 = b0.toNat % 8 := by
  unfold decode4; omega

/-! ## Encoded text passes and reads back -/

/-- The bytes of one char pass the validation and read back that char. -/
theorem toStr_encodeChar_append (c : Char) (rest : List UInt8) :
    toStr (encodeChar c ++ rest) = (toStr rest).map (c :: ·) := by
  have hc := toNat_valid c
  simp only [encodeChar]
  split_ifs with h1 h2 h3
  · -- one byte
    have hw : utf8CharWidth (.ofNat c.toNat) = 1 := (utf8CharWidth_eq _).1.mpr (by rw [toNat_ofNat (by omega)]; omega)
    rw [List.singleton_append, toStr.eq_2 _ _ hw, toNat_ofNat (by omega), Char.ofNat_toNat]
  · -- two bytes
    have hlead : (UInt8.ofNat (0xC0 + c.toNat / 64)).toNat = 0xC0 + c.toNat / 64 := toNat_ofNat (by omega)
    have hw : utf8CharWidth (.ofNat (0xC0 + c.toNat / 64)) = 2 := (utf8CharWidth_eq _).2.1.mpr (by omega)
    have hdec : decode2 (.ofNat (0xC0 + c.toNat / 64)) (.ofNat (0x80 + c.toNat % 64)) = c.toNat := by
      rw [decode2, hlead, toNat_cont]; omega
    rw [List.cons_append, List.singleton_append, toStr.eq_3 _ _ _ hw, if_pos (isCont_cont _), hdec, Char.ofNat_toNat]
  · -- three bytes
    have hlead : (UInt8.ofNat (0xE0 + c.toNat / 4096)).toNat = 0xE0 + c.toNat / 4096 := toNat_ofNat (by omega)
    have hw : utf8CharWidth (.ofNat (0xE0 + c.toNat / 4096)) = 3 := (utf8CharWidth_eq _).2.2.1.mpr (by omega)
    have hsecond : secondOf3 (.ofNat (0xE0 + c.toNat / 4096)) (.ofNat (0x80 + c.toNat / 64 % 64)) = true :=
      secondOf3_iff.mpr (by rw [hlead, toNat_cont]; omega)
    have hdec : decode3 (.ofNat (0xE0 + c.toNat / 4096)) (.ofNat (0x80 + c.toNat / 64 % 64))
        (.ofNat (0x80 + c.toNat % 64)) = c.toNat := by
      rw [decode3, hlead, toNat_cont, toNat_cont]; omega
    rw [List.cons_append, List.cons_append, List.singleton_append, toStr.eq_4 _ _ _ _ hw, hsecond, isCont_cont,
      Bool.and_self, if_pos rfl, hdec, Char.ofNat_toNat]
  · -- four bytes
    have hlead : (UInt8.ofNat (0xF0 + c.toNat / 262144)).toNat = 0xF0 + c.toNat / 262144 := toNat_ofNat (by omega)
    have hw : utf8CharWidth (.ofNat (0xF0 + c.toNat / 262144)) = 4 := (utf8CharWidth_eq _).2.2.2.mpr (by omega)
    have hsecond : secondOf4 (.ofNat (0xF0 + c.toNat / 262144)) (.ofNat (0x80 + c.toNat / 4096 % 64)) = true :=
      secondOf4_iff.mpr (by rw [hlead, toNat_cont]; omega)
    have hdec : decode4 (.ofNat (0xF0 + c.toNat / 262144)) (.ofNat (0x80 + c.toNat / 4096 % 64))
        (.ofNat (0x80 + c.toNat / 64 % 64)) (.ofNat (0x80 + c.toNat % 64)) = c.toNat := by
      rw [decode4, hlead, toNat_cont, toNat_cont, toNat_cont]; omega
    rw [List.cons_append, List.cons_append, List.cons_append, List.singleton_append, toStr.eq_5 _ _ _ _ _ hw, hsecond,
      isCont_cont, isCont_cont, Bool.and_self, Bool.and_self, if_pos rfl, hdec, Char.ofNat_toNat]

/-- The encoding of a text passes the validation and reads back that text. -/
theorem toStr_encode (cs : List Char) : toStr (encode cs) = some cs := by
  induction cs with
  | nil => rfl
  | cons c cs ih => rw [encode_cons, toStr_encodeChar_append, ih]; rfl

/-! ## What passes is an encoding -/

/-- A char's encoding is never empty. -/
theorem encodeChar_ne_nil (c : Char) : encodeChar c ≠ [] := by
  simp only [encodeChar]
  split_ifs <;> exact List.cons_ne_nil _ _

/-- The bytes that pass start with the encoding of the first char read, and the rest passes. -/
theorem toStr_cons_eq_some {b0 : UInt8} {rest : List UInt8} {cs : List Char} (h : toStr (b0 :: rest) = some cs) :
    ∃ c tail post, b0 :: rest = encodeChar c ++ post ∧ cs = c :: tail ∧ toStr post = some tail := by
  rw [toStr.eq_def] at h
  dsimp only at h
  split at h
  · -- one byte
    rename_i hw
    obtain ⟨tail, htail, rfl⟩ := Option.map_eq_some'.mp h
    have h80 := (utf8CharWidth_eq b0).1.mp hw
    refine ⟨_, tail, _, ?_, rfl, htail⟩
    rw [encodeChar, toNat_charOfNat (.inl (by omega)), if_pos h80, List.singleton_append, ofNat_eq rfl]
  · -- two bytes
    rename_i b1 rest hw
    obtain ⟨hcont, h⟩ := Option.ite_none_right_eq_some.mp h
    obtain ⟨tail, htail, rfl⟩ := Option.map_eq_some'.mp h
    have hlead := (utf8CharWidth_eq b0).2.1.mp hw
    obtain ⟨d0, d1⟩ := decode2_digits b0 b1
    have hn : 0x80 ≤ decode2 b0 b1 ∧ decode2 b0 b1 < 0x800 := by omega
    refine ⟨_, tail, _, ?_, rfl, htail⟩
    rw [encodeChar, toNat_charOfNat (.inl (by omega)), if_neg (by omega), if_pos hn.2, d0, d1, ofNat_cont hcont,
      ofNat_eq (by omega : 0xC0 + b0.toNat % 32 = b0.toNat)]
    rfl
  · -- three bytes
    rename_i b1 b2 rest hw
    obtain ⟨hok, h⟩ := Option.ite_none_right_eq_some.mp h
    obtain ⟨tail, htail, rfl⟩ := Option.map_eq_some'.mp h
    obtain ⟨hsecond, hcont⟩ := Bool.and_eq_true _ _ ▸ hok
    have hlead := (utf8CharWidth_eq b0).2.2.1.mp hw
    have h1 := secondOf3_iff.mp hsecond
    obtain ⟨d0, d1, d2⟩ := decode3_digits b0 b1 b2
    have hv : decode3 b0 b1 b2 < 0xD800 ∨ 0xDFFF < decode3 b0 b1 b2 ∧ decode3 b0 b1 b2 < 0x110000 := by omega
    refine ⟨_, tail, _, ?_, rfl, htail⟩
    rw [encodeChar, toNat_charOfNat hv, if_neg (by omega), if_neg (by omega), if_pos (by omega), d0, d1, d2,
      ofNat_cont hcont, ofNat_cont (isCont_iff.mpr h1.2.2), ofNat_eq (by omega : 0xE0 + b0.toNat % 16 = b0.toNat)]
    rfl
  · -- four bytes
    rename_i b1 b2 b3 rest hw
    obtain ⟨hok, h⟩ := Option.ite_none_right_eq_some.mp h
    obtain ⟨tail, htail, rfl⟩ := Option.map_eq_some'.mp h
    obtain ⟨⟨hsecond, hcont2⟩, hcont3⟩ := Bool.and_eq_true _ _ ▸ Bool.and_eq_true _ _ ▸ hok
    have hlead := (utf8CharWidth_eq b0).2.2.2.mp hw
    have h1 := secondOf4_iff.mp hsecond
    obtain ⟨d0, d1, d2, d3⟩ := decode4_digits b0 b1 b2 b3
    have hv : decode4 b0 b1 b2 b3 < 0xD800 ∨ 0xDFFF < decode4 b0 b1 b2 b3 ∧ decode4 b0 b1 b2 b3 < 0x110000 := by
      omega
    refine ⟨_, tail, _, ?_, rfl, htail⟩
    rw [encodeChar, toNat_charOfNat hv, if_neg (by omega), if_neg (by omega), if_neg (by omega), d0, d1, d2, d3,
      ofNat_cont hcont3, ofNat_cont hcont2, ofNat_cont (isCont_iff.mpr h1.2.2),
      ofNat_eq (by omega : 0xF0 + b0.toNat % 8 = b0.toNat)]
    rfl
  · cases h

/-- Bytes that pass are the encoding of the text they read as. -/
theorem eq_encode_of_toStr {bytes : List UInt8} {cs : List Char} (h : toStr bytes = some cs) : bytes = encode cs :=
  match bytes, h with
  | [], h => by cases h; rfl
  | b0 :: rest, h => by
    obtain ⟨c, tail, post, hbytes, rfl, hpost⟩ := toStr_cons_eq_some h
    have : post.length < rest.length + 1 := by
      have hlen := congrArg List.length hbytes
      have := List.length_pos.mpr (encodeChar_ne_nil c)
      simp only [List.length_cons, List.length_append] at hlen
      omega
    rw [hbytes, eq_encode_of_toStr hpost, encode_cons]
termination_by bytes.length

/-- The bytes that pass are exactly the encodings: `to_str` reads a name as a text exactly
when the name is that text's UTF-8 encoding. -/
theorem toStr_eq_some_iff {bytes : List UInt8} {cs : List Char} : toStr bytes = some cs ↔ bytes = encode cs :=
  ⟨eq_encode_of_toStr, fun h => h ▸ toStr_encode cs⟩

/-- Distinct texts have distinct encodings. -/
theorem encode_inj {cs cs' : List Char} : encode cs = encode cs' ↔ cs = cs' :=
  ⟨fun h => Option.some.inj ((toStr_encode cs).symm.trans (h ▸ toStr_encode cs')), congrArg encode⟩

/-! ## ASCII bytes -/

/-- An ASCII byte occurs in a char's encoding only as the encoding of that ASCII char:
every byte of a longer encoding is 0x80 or above. -/
theorem mem_encodeChar_of_lt {b : UInt8} (hb : b.toNat < 0x80) (c : Char) :
    b ∈ encodeChar c ↔ c.toNat = b.toNat := by
  have hc := toNat_valid c
  simp only [encodeChar]
  split_ifs with h1 h2 h3
  · rw [List.mem_singleton]
    exact ⟨fun h => h ▸ (toNat_ofNat (by omega)).symm, fun h => (ofNat_eq h).symm⟩
  all_goals
    refine ⟨fun hm => ?_, fun h => by omega⟩
    simp only [List.mem_cons, List.mem_singleton, List.not_mem_nil, or_false] at hm
    rcases hm with rfl | rfl | rfl | rfl <;> rw [toNat_ofNat (by omega)] at hb <;> omega

/-- An ASCII byte occurs in the encoding of a text exactly where the text has that char. -/
theorem mem_encode_of_lt {b : UInt8} (hb : b.toNat < 0x80) (cs : List Char) :
    b ∈ encode cs ↔ Char.ofNat b.toNat ∈ cs := by
  simp only [encode, List.mem_flatMap, mem_encodeChar_of_lt hb]
  exact ⟨fun ⟨c, hc, he⟩ => by rwa [← he, Char.ofNat_toNat], fun h => ⟨_, h, toNat_charOfNat (.inl (by omega))⟩⟩

end Parseable.Utf8
