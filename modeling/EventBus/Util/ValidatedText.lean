import Mathlib.Data.List.Basic
import Mathlib.Tactic.Ring

/-!
# The text validator (`util/validated_text.rs`)

Names and identifiers are checked by a `const fn`, which cannot use `str::chars` and therefore
decodes UTF-8 by hand. An index out of bounds panics, so the functions return `Option`.

* `decodeUtf8CodePoint_encode`: at the start of an encoded character the decoder returns the
  character and its width, for each of the four widths.
* `codePoints_asBytes`: applied again and again it visits the characters of the string in order.
* `validateLoop_later`, `validateLoop_zero`: the loop computes its answer from the code points it
  visits.
* `isNonblankWithoutControls_accepts`: what is accepted, over the characters of the string.
-/

namespace EventBus.Util

/-! ## The code -/

/-- `decode_utf8_code_point`: the code point at `index` and its width in bytes. -/
def decodeUtf8CodePoint (bytes : List UInt8) (index : Nat) : Option (UInt32 × Nat) := do
  let first ← bytes[index]?
  if first < 0x80 then
    return (first.toUInt32, 1)
  else if first < 0xE0 then
    let second ← bytes[index + 1]?
    return (((first &&& 0x1F).toUInt32 <<< 6) ||| (second &&& 0x3F).toUInt32, 2)
  else if first < 0xF0 then
    let second ← bytes[index + 1]?
    let third ← bytes[index + 2]?
    return (((first &&& 0x0F).toUInt32 <<< 12) ||| ((second &&& 0x3F).toUInt32 <<< 6) |||
      (third &&& 0x3F).toUInt32, 3)
  else
    let second ← bytes[index + 1]?
    let third ← bytes[index + 2]?
    let fourth ← bytes[index + 3]?
    return (((first &&& 0x07).toUInt32 <<< 18) ||| ((second &&& 0x3F).toUInt32 <<< 12) |||
      ((third &&& 0x3F).toUInt32 <<< 6) ||| (fourth &&& 0x3F).toUInt32, 4)

/-- `is_unicode_whitespace`. -/
def isUnicodeWhitespace (codePoint : UInt32) : Bool :=
  (0x0009 ≤ codePoint && codePoint ≤ 0x000D) || codePoint == 0x0020 || codePoint == 0x0085 ||
    codePoint == 0x00A0 || codePoint == 0x1680 || (0x2000 ≤ codePoint && codePoint ≤ 0x200A) ||
    codePoint == 0x2028 || codePoint == 0x2029 || codePoint == 0x202F || codePoint == 0x205F ||
    codePoint == 0x3000

/-- `is_unicode_control`. -/
def isUnicodeControl (codePoint : UInt32) : Bool :=
  codePoint ≤ 0x001F || (0x007F ≤ codePoint && codePoint ≤ 0x009F)

/-- The loop of the validator. Every round consumes a byte, so as many rounds as there are bytes are
enough; with too few the answer is `none`, as for a panic. -/
def validateLoop (bytes : List UInt8) (rounds index : Nat) (first last : UInt32) : Option Bool :=
  if index < bytes.length then
    match rounds with
    | 0 => none
    | rounds + 1 => do
      let (codePoint, width) ← decodeUtf8CodePoint bytes index
      if isUnicodeControl codePoint then
        return false
      validateLoop bytes rounds (index + width) (if index = 0 then codePoint else first) codePoint
  else some (!isUnicodeWhitespace first && !isUnicodeWhitespace last)

/-- The bytes of a string, `str::as_bytes`. -/
def asBytes (value : String) : List UInt8 := value.toUTF8.data.toList

/-- `is_nonblank_without_controls`. -/
def isNonblankWithoutControls (value : String) : Option Bool :=
  let bytes := asBytes value
  if bytes.isEmpty then some false else validateLoop bytes bytes.length 0 0 0

/-- `is_valid_topic_name`. -/
def isValidTopicName (value : String) : Option Bool :=
  let length := (asBytes value).length
  if 1 ≤ length ∧ length ≤ 255 then isNonblankWithoutControls value else some false

/-! ## What it is for -/

/-- The code points with the Unicode property White_Space. -/
def whiteSpace : List Nat :=
  [0x0009, 0x000A, 0x000B, 0x000C, 0x000D, 0x0020, 0x0085, 0x00A0, 0x1680, 0x2000, 0x2001, 0x2002,
    0x2003, 0x2004, 0x2005, 0x2006, 0x2007, 0x2008, 0x2009, 0x200A, 0x2028, 0x2029, 0x202F, 0x205F,
    0x3000]

/-- A control character, of the general category Cc. -/
def IsControl (c : Char) : Prop := c.toNat ≤ 0x1F ∨ 0x7F ≤ c.toNat ∧ c.toNat ≤ 0x9F

/-- Text with no control character and with no white space at either end. -/
structure NonblankWithoutControls (value : List Char) : Prop where
  nonempty : value ≠ []
  controls : ∀ c ∈ value, ¬ IsControl c
  first : ∀ c, value.head? = some c → c.toNat ∉ whiteSpace
  last : ∀ c, value.getLast? = some c → c.toNat ∉ whiteSpace

/-- The code points that the decoder visits from `index` to the end. -/
def codePoints (bytes : List UInt8) (rounds index : Nat) : Option (List UInt32) :=
  if index < bytes.length then
    match rounds with
    | 0 => none
    | rounds + 1 => do
      let (codePoint, width) ← decodeUtf8CodePoint bytes index
      let rest ← codePoints bytes rounds (index + width)
      return codePoint :: rest
  else some []

/-! ## Decoding one character -/

theorem ofNat_lt_iff {x : Nat} (hx : x < 256) (b : UInt8) : UInt8.ofNat x < b ↔ x < b.toNat := by
  rw [UInt8.lt_iff_toNat_lt, UInt8.toNat_ofNat', Nat.mod_eq_of_lt hx]

/-- A byte of the encoding is a tag over some bits of the character; the mask removes the tag. -/
theorem toNat_masked (x tag n : Nat) (mask : UInt8) (hmask : mask.toNat = 2 ^ n - 1)
    (hx : x < 2 ^ n) (htag : tag % 2 ^ n = 0) (hbyte : x + tag < 256) :
    (UInt8.ofNat (x + tag) &&& mask).toUInt32.toNat = x := by
  have hof : (UInt8.ofNat (x + tag)).toNat = x + tag := by
    rw [UInt8.toNat_ofNat']
    omega
  rw [UInt8.toNat_toUInt32, UInt8.toNat_and, hof, hmask, Nat.and_two_pow_sub_one_eq_mod,
    Nat.add_mod, htag, Nat.add_zero, Nat.mod_mod, Nat.mod_eq_of_lt hx]

theorem toNat_continuation (x : Nat) :
    (UInt8.ofNat (x % 64 + 128) &&& 0x3F).toUInt32.toNat = x % 64 :=
  toNat_masked (x % 64) 128 6 0x3F rfl (by omega) rfl (by omega)

/-- Bits that are joined above lower ones add up. -/
theorem toNat_joined {a b k : UInt32} (n : Nat) (hk : k.toNat = n) (hn : n < 32)
    (ha : 2 ^ n * a.toNat < 2 ^ 32) (hb : b.toNat < 2 ^ n) :
    (a <<< k ||| b).toNat = 2 ^ n * a.toNat + b.toNat := by
  rw [UInt32.toNat_or, UInt32.toNat_shiftLeft, hk, Nat.mod_eq_of_lt hn, Nat.shiftLeft_eq,
    Nat.mul_comm, Nat.mod_eq_of_lt ha, Nat.two_pow_add_eq_or_of_lt hb]

/-- Two continuation bytes at the end, the common part of the longer encodings. -/
theorem toNat_joined_continuation (x y : Nat) :
    ((UInt8.ofNat (x % 64 + 128) &&& 0x3F).toUInt32 <<< 6 |||
      (UInt8.ofNat (y % 64 + 128) &&& 0x3F).toUInt32).toNat = 64 * (x % 64) + y % 64 := by
  have hx := toNat_continuation x
  have hy := toNat_continuation y
  rw [toNat_joined 6 rfl (by omega) (by omega) (by omega), hx, hy]
  rfl

theorem getElem?_append_length_add (pre rest : List UInt8) (i : Nat) :
    (pre ++ rest)[pre.length + i]? = rest[i]? := by
  rw [List.getElem?_append_right (Nat.le_add_right _ _), Nat.add_sub_cancel_left]

/-- The decoder reads nothing before its index. -/
theorem decodeUtf8CodePoint_append (pre rest : List UInt8) :
    decodeUtf8CodePoint (pre ++ rest) pre.length = decodeUtf8CodePoint rest 0 := by
  have hzero := getElem?_append_length_add pre rest 0
  rw [Nat.add_zero] at hzero
  simp only [decodeUtf8CodePoint, getElem?_append_length_add, hzero, Nat.zero_add]

section
variable (rest : List UInt8) {v : Nat}

theorem decodeUtf8CodePoint_one (hv : v ≤ 0x7F) :
    decodeUtf8CodePoint (UInt8.ofNat v :: rest) 0 = some (UInt32.ofNat v, 1) := by
  have h1 : UInt8.ofNat v < 0x80 := by
    rw [ofNat_lt_iff (by omega)]
    exact Nat.lt_succ_of_le hv
  have hfirst : (UInt8.ofNat v).toUInt32 = UInt32.ofNat v := by
    rw [← UInt32.toNat_inj, UInt8.toNat_toUInt32, UInt8.toNat_ofNat', UInt32.toNat_ofNat']
    omega
  simp [decodeUtf8CodePoint, h1, hfirst]

theorem decodeUtf8CodePoint_two (hv : v ≤ 0x7FF) :
    decodeUtf8CodePoint
        (UInt8.ofNat (v / 64 % 32 + 192) :: UInt8.ofNat (v % 64 + 128) :: rest) 0 =
      some (UInt32.ofNat v, 2) := by
  have h1 : ¬ UInt8.ofNat (v / 64 % 32 + 192) < 0x80 := by
    rw [ofNat_lt_iff (by omega)]
    show ¬ v / 64 % 32 + 192 < 128
    omega
  have h2 : UInt8.ofNat (v / 64 % 32 + 192) < 0xE0 := by
    rw [ofNat_lt_iff (by omega)]
    show v / 64 % 32 + 192 < 224
    omega
  have ha := toNat_masked (v / 64 % 32) 192 5 0x1F rfl (by omega) rfl (by omega)
  have hb := toNat_continuation v
  have hcode : (UInt8.ofNat (v / 64 % 32 + 192) &&& 0x1F).toUInt32 <<< 6 |||
      (UInt8.ofNat (v % 64 + 128) &&& 0x3F).toUInt32 = UInt32.ofNat v := by
    rw [← UInt32.toNat_inj, toNat_joined 6 rfl (by omega) (by omega) (by omega), ha, hb,
      UInt32.toNat_ofNat']
    omega
  simp only [decodeUtf8CodePoint, List.getElem?_cons_zero, List.getElem?_cons_succ, Nat.zero_add,
    Option.bind_eq_bind, Option.bind_some, Option.pure_def, h1, h2, hcode, if_true, if_false]

theorem decodeUtf8CodePoint_three (hv : v ≤ 0xFFFF) :
    decodeUtf8CodePoint (UInt8.ofNat (v / 4096 % 16 + 224) :: UInt8.ofNat (v / 64 % 64 + 128) ::
        UInt8.ofNat (v % 64 + 128) :: rest) 0 = some (UInt32.ofNat v, 3) := by
  have h1 : ¬ UInt8.ofNat (v / 4096 % 16 + 224) < 0x80 := by
    rw [ofNat_lt_iff (by omega)]
    show ¬ v / 4096 % 16 + 224 < 128
    omega
  have h2 : ¬ UInt8.ofNat (v / 4096 % 16 + 224) < 0xE0 := by
    rw [ofNat_lt_iff (by omega)]
    show ¬ v / 4096 % 16 + 224 < 224
    omega
  have h3 : UInt8.ofNat (v / 4096 % 16 + 224) < 0xF0 := by
    rw [ofNat_lt_iff (by omega)]
    show v / 4096 % 16 + 224 < 240
    omega
  have ha := toNat_masked (v / 4096 % 16) 224 4 0x0F rfl (by omega) rfl (by omega)
  have hb := toNat_joined_continuation (v / 64) v
  have hcode : (UInt8.ofNat (v / 4096 % 16 + 224) &&& 0x0F).toUInt32 <<< 12 |||
      (UInt8.ofNat (v / 64 % 64 + 128) &&& 0x3F).toUInt32 <<< 6 |||
      (UInt8.ofNat (v % 64 + 128) &&& 0x3F).toUInt32 = UInt32.ofNat v := by
    rw [UInt32.or_assoc, ← UInt32.toNat_inj,
      toNat_joined 12 rfl (by omega) (by omega) (by omega), ha, hb, UInt32.toNat_ofNat']
    omega
  simp only [decodeUtf8CodePoint, List.getElem?_cons_zero, List.getElem?_cons_succ, Nat.zero_add,
    Option.bind_eq_bind, Option.bind_some, Option.pure_def, h1, h2, h3, hcode, if_true, if_false]

theorem decodeUtf8CodePoint_four (hv : v ≤ 0x10FFFF) :
    decodeUtf8CodePoint (UInt8.ofNat (v / 262144 % 8 + 240) :: UInt8.ofNat (v / 4096 % 64 + 128) ::
        UInt8.ofNat (v / 64 % 64 + 128) :: UInt8.ofNat (v % 64 + 128) :: rest) 0 =
      some (UInt32.ofNat v, 4) := by
  have h1 : ¬ UInt8.ofNat (v / 262144 % 8 + 240) < 0x80 := by
    rw [ofNat_lt_iff (by omega)]
    show ¬ v / 262144 % 8 + 240 < 128
    omega
  have h2 : ¬ UInt8.ofNat (v / 262144 % 8 + 240) < 0xE0 := by
    rw [ofNat_lt_iff (by omega)]
    show ¬ v / 262144 % 8 + 240 < 224
    omega
  have h3 : ¬ UInt8.ofNat (v / 262144 % 8 + 240) < 0xF0 := by
    rw [ofNat_lt_iff (by omega)]
    show ¬ v / 262144 % 8 + 240 < 240
    omega
  have ha := toNat_masked (v / 262144 % 8) 240 3 0x07 rfl (by omega) rfl (by omega)
  have hb := toNat_continuation (v / 4096)
  have hc := toNat_joined_continuation (v / 64) v
  have hcode : (UInt8.ofNat (v / 262144 % 8 + 240) &&& 0x07).toUInt32 <<< 18 |||
      (UInt8.ofNat (v / 4096 % 64 + 128) &&& 0x3F).toUInt32 <<< 12 |||
      (UInt8.ofNat (v / 64 % 64 + 128) &&& 0x3F).toUInt32 <<< 6 |||
      (UInt8.ofNat (v % 64 + 128) &&& 0x3F).toUInt32 = UInt32.ofNat v := by
    -- the lowest eighteen bits first
    have hlow := toNat_joined (a := (UInt8.ofNat (v / 4096 % 64 + 128) &&& 0x3F).toUInt32)
      (k := 12) 12 rfl (by omega) (by omega) (hc.trans_lt (by omega))
    rw [hb, hc] at hlow
    rw [UInt32.or_assoc, UInt32.or_assoc, ← UInt32.toNat_inj,
      toNat_joined 18 rfl (by omega) (by omega) (by omega), ha, hlow, UInt32.toNat_ofNat']
    omega
  simp only [decodeUtf8CodePoint, List.getElem?_cons_zero, List.getElem?_cons_succ, Nat.zero_add,
    Option.bind_eq_bind, Option.bind_some, Option.pure_def, h1, h2, h3, hcode, if_false]

end

/-- At the start of a character the decoder returns the character and its width. -/
theorem decodeUtf8CodePoint_encode (c : Char) (rest : List UInt8) :
    decodeUtf8CodePoint (String.utf8EncodeChar c ++ rest) 0 =
      some (c.val, (String.utf8EncodeChar c).length) := by
  have hc : UInt32.ofNat c.val.toNat = c.val := UInt32.ofNat_toNat
  have hmax : c.val.toNat ≤ 0x10FFFF := by
    rcases c.valid with h | ⟨-, h⟩
    · change c.val.toNat < 0xD800 at h
      omega
    · exact Nat.le_of_lt_succ h
  simp only [String.utf8EncodeChar]
  split
  · next h => exact (decodeUtf8CodePoint_one rest h).trans (by rw [hc]; rfl)
  split
  · next h => exact (decodeUtf8CodePoint_two rest h).trans (by rw [hc]; rfl)
  split
  · next h => exact (decodeUtf8CodePoint_three rest h).trans (by rw [hc]; rfl)
  · exact (decodeUtf8CodePoint_four rest hmax).trans (by rw [hc]; rfl)

theorem decodeUtf8CodePoint_width {bytes : List UInt8} {index width : Nat} {codePoint : UInt32}
    (h : decodeUtf8CodePoint bytes index = some (codePoint, width)) : 0 < width := by
  simp only [decodeUtf8CodePoint, Option.bind_eq_bind, Option.bind_eq_some_iff] at h
  obtain ⟨first, -, h⟩ := h
  split at h
  · simp at h
    omega
  split at h
  · simp [Option.bind_eq_some_iff] at h
    omega
  split at h
  · simp [Option.bind_eq_some_iff] at h
    omega
  · simp [Option.bind_eq_some_iff] at h
    omega

/-! ## Decoding a string -/

theorem asBytes_eq (value : String) :
    asBytes value = value.toList.flatMap String.utf8EncodeChar := by
  unfold asBytes String.toUTF8
  rw [← String.utf8Encode_toList]
  simp [List.utf8Encode]

/-- **The decoder visits the code points of the string in order.** By induction on the characters
that are left; each takes one round and at least one byte. -/
theorem codePoints_encode (pre : List UInt8) (cs : List Char) (rounds : Nat)
    (hrounds : (cs.flatMap String.utf8EncodeChar).length ≤ rounds) :
    codePoints (pre ++ cs.flatMap String.utf8EncodeChar) rounds pre.length =
      some (cs.map (·.val)) := by
  induction cs generalizing pre rounds with
  | nil =>
    unfold codePoints
    simp
  | cons c cs ih =>
    have hwidth : 0 < (String.utf8EncodeChar c).length := by
      rw [String.length_utf8EncodeChar]
      exact c.utf8Size_pos
    rw [List.flatMap_cons, List.length_append] at hrounds
    obtain ⟨rounds, rfl⟩ : ∃ n, rounds = n + 1 := ⟨rounds - 1, by omega⟩
    have hdecode : decodeUtf8CodePoint
        (pre ++ (c :: cs).flatMap String.utf8EncodeChar) pre.length =
          some (c.val, (String.utf8EncodeChar c).length) := by
      rw [decodeUtf8CodePoint_append, List.flatMap_cons, decodeUtf8CodePoint_encode]
    have hrest := ih (pre ++ String.utf8EncodeChar c) rounds (by omega)
    rw [List.length_append, List.append_assoc, ← List.flatMap_cons] at hrest
    have hlt : pre.length < (pre ++ (c :: cs).flatMap String.utf8EncodeChar).length := by
      rw [List.length_append, List.flatMap_cons, List.length_append]
      omega
    unfold codePoints
    simp only [if_pos hlt, hdecode, hrest, Option.bind_eq_bind, Option.bind_some, Option.pure_def,
      List.map_cons]

theorem codePoints_asBytes (value : String) :
    codePoints (asBytes value) (asBytes value).length 0 = some (value.toList.map (·.val)) := by
  rw [asBytes_eq]
  exact codePoints_encode [] value.toList _ le_rfl

/-! ## The loop -/

section
variable {bytes : List UInt8} {rounds index : Nat} {codePoint : UInt32} {cs : List UInt32}

/-- A visit that is not the end reads one code point and goes on behind it. -/
theorem codePoints_cons (h : codePoints bytes rounds index = some (codePoint :: cs)) :
    index < bytes.length ∧ ∃ left width, rounds = left + 1 ∧
      decodeUtf8CodePoint bytes index = some (codePoint, width) ∧ 0 < width ∧
      codePoints bytes left (index + width) = some cs := by
  unfold codePoints at h
  split at h
  · next hlt =>
    cases rounds with
    | zero => cases h
    | succ left =>
      simp only [Option.bind_eq_bind, Option.bind_eq_some_iff, Option.pure_def] at h
      obtain ⟨⟨code, width⟩, hdecode, rest, hrest, h⟩ := h
      obtain ⟨rfl, rfl⟩ := List.cons.inj (Option.some.inj h)
      exact ⟨hlt, left, width, rfl, hdecode, decodeUtf8CodePoint_width hdecode, hrest⟩
  · cases h

theorem codePoints_nil (h : codePoints bytes rounds index = some []) : ¬ index < bytes.length := by
  intro hlt
  unfold codePoints at h
  rw [if_pos hlt] at h
  cases rounds with
  | zero => cases h
  | succ left =>
    simp only [Option.bind_eq_bind, Option.bind_eq_some_iff, Option.pure_def] at h
    obtain ⟨_, -, _, -, h⟩ := h
    cases h

/-- Behind the first character the loop keeps `first` and moves `last`. -/
theorem validateLoop_later (h : codePoints bytes rounds index = some cs) (hindex : index ≠ 0)
    (first last : UInt32) :
    validateLoop bytes rounds index first last =
      some (cs.all (!isUnicodeControl ·) &&
        (!isUnicodeWhitespace first && !isUnicodeWhitespace (cs.getLastD last))) := by
  induction cs generalizing rounds index last with
  | nil =>
    unfold validateLoop
    rw [if_neg (codePoints_nil h)]
    simp
  | cons codePoint cs ih =>
    obtain ⟨hlt, left, width, rfl, hdecode, hwidth, hrest⟩ := codePoints_cons h
    unfold validateLoop
    simp only [if_pos hlt, hdecode, Option.bind_eq_bind, Option.bind_some, if_neg hindex,
      ih hrest (by omega), List.all_cons, List.getLastD_cons]
    cases isUnicodeControl codePoint <;> simp

/-- At the first character it sets both. -/
theorem validateLoop_zero (h : codePoints bytes rounds 0 = some (codePoint :: cs))
    (first last : UInt32) :
    validateLoop bytes rounds 0 first last =
      some ((codePoint :: cs).all (!isUnicodeControl ·) &&
        (!isUnicodeWhitespace codePoint && !isUnicodeWhitespace (cs.getLastD codePoint))) := by
  obtain ⟨hlt, left, width, rfl, hdecode, hwidth, hrest⟩ := codePoints_cons h
  unfold validateLoop
  simp only [if_pos hlt, hdecode, Option.bind_eq_bind, Option.bind_some, if_true,
    validateLoop_later hrest (by omega), List.all_cons]
  cases isUnicodeControl codePoint <;> simp

end

/-! ## The validator -/

theorem isUnicodeWhitespace_iff (c : Char) :
    isUnicodeWhitespace c.val = true ↔ c.toNat ∈ whiteSpace := by
  simp only [isUnicodeWhitespace, whiteSpace, Bool.or_eq_true, Bool.and_eq_true, decide_eq_true_eq,
    beq_iff_eq, UInt32.le_iff_toNat_le, ← UInt32.toNat_inj, List.mem_cons, List.not_mem_nil,
    or_false, Char.toNat]
  simp
  omega

theorem isUnicodeControl_iff (c : Char) : isUnicodeControl c.val = true ↔ IsControl c := by
  simp [isUnicodeControl, IsControl, UInt32.le_iff_toNat_le]

theorem nonblankWithoutControls_cons (c : Char) (cs : List Char) :
    NonblankWithoutControls (c :: cs) ↔ (∀ d ∈ c :: cs, ¬ IsControl d) ∧
      c.toNat ∉ whiteSpace ∧ (cs.getLastD c).toNat ∉ whiteSpace := by
  have hlast : (c :: cs).getLast? = some (cs.getLastD c) := by
    rw [List.getLast?_cons, List.getLastD_eq_getLast?]
  constructor
  · intro h
    exact ⟨h.controls, h.first c rfl, h.last _ hlast⟩
  · rintro ⟨hcontrols, hfirst, hend⟩
    refine ⟨List.cons_ne_nil c cs, hcontrols, ?_, ?_⟩
    · rintro d ⟨⟩
      exact hfirst
    · intro d hd
      obtain rfl := Option.some.inj (hlast.symm.trans hd)
      exact hend

/-- The answer, over the characters of the string. -/
theorem isNonblankWithoutControls_accepts (value : String) :
    ∃ accepted, isNonblankWithoutControls value = some accepted ∧
      (accepted = true ↔ NonblankWithoutControls value.toList) := by
  have hcodes := codePoints_asBytes value
  cases hvalue : value.toList with
  | nil =>
    have hempty : asBytes value = [] := by
      rw [asBytes_eq, hvalue]
      rfl
    refine ⟨false, by simp [isNonblankWithoutControls, hempty], ?_⟩
    simpa using fun h : NonblankWithoutControls [] => h.nonempty rfl
  | cons c cs =>
    rw [hvalue, List.map_cons] at hcodes
    have hlt : 0 < (asBytes value).length := (codePoints_cons hcodes).1
    have hloop : isNonblankWithoutControls value =
        validateLoop (asBytes value) (asBytes value).length 0 0 0 := by
      simp [isNonblankWithoutControls, List.ne_nil_of_length_pos hlt]
    refine ⟨_, hloop.trans (validateLoop_zero hcodes 0 0), ?_⟩
    have hlast : (cs.map (·.val)).getLastD c.val = (cs.getLastD c).val := by
      rw [List.getLastD_eq_getLast?, List.getLastD_eq_getLast?, List.getLast?_map, Option.getD_map]
    have hcontrol : ∀ d : Char, isUnicodeControl d.val = false ↔ ¬ IsControl d := fun d => by
      rw [← isUnicodeControl_iff, Bool.not_eq_true]
    have hspace : ∀ d : Char, isUnicodeWhitespace d.val = false ↔ d.toNat ∉ whiteSpace :=
        fun d => by
      rw [← isUnicodeWhitespace_iff, Bool.not_eq_true]
    rw [nonblankWithoutControls_cons, hlast]
    simp [hcontrol, hspace]

/-- **The validator is right and never indexes out of bounds**: it visits the code points of the
string, in order, and accepts exactly the text that has no control character and neither begins nor
ends with white space. -/
theorem isNonblankWithoutControls_spec (value : String) :
    codePoints (asBytes value) (asBytes value).length 0 = some (value.toList.map (·.val)) ∧
    ∃ accepted, isNonblankWithoutControls value = some accepted ∧
      (accepted = true ↔ NonblankWithoutControls value.toList) :=
  ⟨codePoints_asBytes value, isNonblankWithoutControls_accepts value⟩

example : isNonblankWithoutControls "事件 v1" = some true := by decide +kernel
example : isNonblankWithoutControls "事件\u3000" = some false := by decide +kernel

/-- Of a topic name the length in bytes is limited too. -/
theorem isValidTopicName_accepts (value : String) :
    ∃ accepted, isValidTopicName value = some accepted ∧
      (accepted = true ↔ (asBytes value).length ≤ 255 ∧ NonblankWithoutControls value.toList) := by
  have hpos : NonblankWithoutControls value.toList → 1 ≤ (asBytes value).length := by
    intro h
    obtain ⟨c, cs, hvalue⟩ := List.exists_cons_of_ne_nil h.nonempty
    have hcodes := codePoints_asBytes value
    rw [hvalue, List.map_cons] at hcodes
    exact (codePoints_cons hcodes).1
  obtain ⟨accepted, heq, hiff⟩ := isNonblankWithoutControls_accepts value
  by_cases hlength : 1 ≤ (asBytes value).length ∧ (asBytes value).length ≤ 255
  · refine ⟨accepted, by simp [isValidTopicName, hlength, heq], hiff.trans ?_⟩
    simp [hlength.2]
  · refine ⟨false, by simp only [isValidTopicName, if_neg hlength], ?_⟩
    simp only [Bool.false_eq_true, false_iff]
    rintro ⟨hmax, h⟩
    exact hlength ⟨hpos h, hmax⟩

/-! The validators never panic, so their callers may read them as Boolean. -/

/-- The answer of `is_nonblank_without_controls`. -/
def nonblankWithoutControls (value : String) : Bool :=
  (isNonblankWithoutControls value).get <| by
    obtain ⟨accepted, heq, -⟩ := isNonblankWithoutControls_accepts value
    rw [heq]
    rfl

/-- The answer of `is_valid_topic_name`. -/
def validTopicName (value : String) : Bool :=
  (isValidTopicName value).get <| by
    obtain ⟨accepted, heq, -⟩ := isValidTopicName_accepts value
    rw [heq]
    rfl

end EventBus.Util
