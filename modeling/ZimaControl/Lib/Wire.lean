import Mathlib.Tactic.Common
import ZimaControl.Lib.Utf8

/-!
# Numbers and text in binary messages

Unsigned numbers with the most significant byte first, bytes as hexadecimal digits, and text in
UTF-8. Numbers of a width and their bytes determine each other, and so do ASCII text and its bytes:
`utf8_of_textDecode` is about any bytes that a decoder reads as ASCII text, not only those that an
encoder made.
-/

namespace ZimaControl.Wire

open List

/-! ## Numbers -/

/-- The low `width` bytes of `n`, most significant first. -/
def bigEndian : ℕ → ℕ → List Byte
  | 0, _ => []
  | width + 1, n => bigEndian width (n / 256) ++ [UInt8.ofNat (n % 256)]

@[simp] theorem length_bigEndian (width n : ℕ) : (bigEndian width n).length = width := by
  induction width generalizing n with
  | zero => rfl
  | succ width ih => rw [bigEndian, length_append, ih, length_singleton]

/-- The number that bytes stand for, most significant first. -/
def ofBigEndian (bytes : List Byte) : ℕ := bytes.foldl (fun n b => n * 256 + b.toNat) 0

theorem ofBigEndian_append_singleton (bytes : List Byte) (b : Byte) :
    ofBigEndian (bytes ++ [b]) = ofBigEndian bytes * 256 + b.toNat := by
  simp [ofBigEndian]

/-- A number that fits reads back. -/
theorem ofBigEndian_bigEndian {width n : ℕ} (h : n < 256 ^ width) :
    ofBigEndian (bigEndian width n) = n := by
  induction width generalizing n with
  | zero =>
    rw [pow_zero] at h
    have hzero : n = 0 := by omega
    rw [hzero]
    rfl
  | succ width ih =>
    rw [pow_succ] at h
    have hbyte : (UInt8.ofNat (n % 256)).toNat = n % 256 := by
      rw [UInt8.toNat_ofNat']
      omega
    rw [bigEndian, ofBigEndian_append_singleton, ih (by omega), hbyte]
    omega

/-- The bytes of the number that bytes stand for are those bytes. -/
theorem bigEndian_ofBigEndian (bytes : List Byte) :
    bigEndian bytes.length (ofBigEndian bytes) = bytes := by
  induction bytes using reverseRecOn with
  | nil => rfl
  | append_singleton bytes b ih =>
    have hb := b.toNat_lt
    have hdiv : (ofBigEndian bytes * 256 + b.toNat) / 256 = ofBigEndian bytes := by omega
    have hmod : (ofBigEndian bytes * 256 + b.toNat) % 256 = b.toNat := by omega
    rw [length_append, length_singleton, bigEndian, ofBigEndian_append_singleton, hdiv,
      hmod, ih, UInt8.ofNat_toNat]

/-! ## Text -/

/-- Every surrogate of the text stands in a pair, so that its UTF-8 bytes read back. -/
def isWellFormed : JsString → Bool
  | [] => true
  | [u] => !isHighSurrogate u && !isLowSurrogate u
  | u :: v :: rest =>
    if isHighSurrogate u && isLowSurrogate v then isWellFormed rest
    else !isHighSurrogate u && !isLowSurrogate u && isWellFormed (v :: rest)

/-- Whether all of the text is ASCII. -/
def IsAscii (s : JsString) : Prop := ∀ u ∈ s, u.toNat < 128

variable {s : JsString}

theorem isAscii_of_all (h : (s.all fun u => u.toNat < 128) = true) : IsAscii s :=
  fun u hu => of_decide_eq_true (all_eq_true.mp h u hu)

/-- An ASCII unit is no surrogate. -/
theorem not_surrogate_of_ascii {u : CodeUnit} (hu : u.toNat < 128) :
    isHighSurrogate u = false ∧ isLowSurrogate u = false := by
  simp only [isHighSurrogate, isLowSurrogate, Bool.and_eq_false_iff, decide_eq_false_iff_not]
  omega

theorem isWellFormed_of_isAscii (h : IsAscii s) : isWellFormed s = true := by
  induction s with
  | nil => rfl
  | cons u s ih =>
    obtain ⟨hhigh, hlow⟩ := not_surrogate_of_ascii (h u mem_cons_self)
    have hs := ih fun v hv => h v (mem_cons_of_mem u hv)
    cases s with
    | nil => simp [isWellFormed, hhigh, hlow]
    | cons v s => simp [isWellFormed, hhigh, hlow, hs]

theorem utf8_of_isAscii (h : IsAscii s) : utf8 s = s.map fun u => UInt8.ofNat u.toNat := by
  induction s with
  | nil => rfl
  | cons u s ih =>
    have hlt : u.toNat < 128 := h u mem_cons_self
    obtain ⟨hhigh, hlow⟩ := not_surrogate_of_ascii hlt
    have hscalar : loneScalar u = u.toNat := by simp [loneScalar, hhigh, hlow]
    have hu : utf8Scalar (loneScalar u) = [UInt8.ofNat u.toNat] := by
      rw [hscalar, utf8Scalar, if_pos (by omega)]
    have hs : IsAscii s := fun v hv => h v (mem_cons_of_mem u hv)
    cases s with
    | nil => rw [utf8, hu]; rfl
    | cons v s => rw [utf8, hhigh, Bool.false_and, if_neg (by simp), hu, ih hs]; rfl

/-- ASCII text has one byte for each unit. -/
theorem length_utf8_of_isAscii (h : IsAscii s) : (utf8 s).length = s.length := by
  rw [utf8_of_isAscii h, length_map]

/-- The byte of an ASCII unit reads back as the unit. -/
theorem unit_of_ascii_byte {u : CodeUnit} (hu : u.toNat < 128) :
    (UInt8.ofNat u.toNat).toNat = u.toNat ∧ UInt16.ofNat (UInt8.ofNat u.toNat).toNat = u := by
  have hbyte : (UInt8.ofNat u.toNat).toNat = u.toNat := by
    rw [UInt8.toNat_ofNat']
    omega
  exact ⟨hbyte, by rw [hbyte, UInt16.ofNat_toNat]⟩

theorem decodeUtf8_ascii {a : Byte} (ha : a.toNat < 0x80) (rest : List Byte) :
    decodeUtf8 (a :: rest) = (decodeUtf8 rest).map (UInt16.ofNat a.toNat :: ·) := by
  rw [decodeUtf8.eq_def]
  simp [ha]

/-- ASCII text reads back. -/
theorem textDecode_utf8 (h : IsAscii s) : textDecode (utf8 s) = some s := by
  have hdecode : decodeUtf8 (utf8 s) = some s := by
    rw [utf8_of_isAscii h]
    induction s with
    | nil => rfl
    | cons u s ih =>
      have hlt : u.toNat < 128 := h u mem_cons_self
      obtain ⟨hbyte, hunit⟩ := unit_of_ascii_byte hlt
      rw [map_cons, decodeUtf8_ascii (by omega),
        ih fun v hv => h v (mem_cons_of_mem u hv), hunit]
      rfl
  unfold textDecode
  split
  case h_2 => exact hdecode
  case h_1 rest heq =>
    -- ASCII text does not start with a byte order mark
    rw [utf8_of_isAscii h] at heq
    cases s with
    | nil => simp at heq
    | cons u s =>
      rw [map_cons, cons.injEq] at heq
      have hlt : u.toNat < 128 := h u mem_cons_self
      have hbyte := congrArg UInt8.toNat heq.1
      rw [(unit_of_ascii_byte hlt).1] at hbyte
      have : u.toNat = 0xEF := hbyte
      omega

/-- The units of a scalar value outside of ASCII are outside of ASCII. -/
theorem not_isAscii_scalarUnits {n : ℕ} (hn : 128 ≤ n) (hmax : n ≤ 0x10FFFF) (s : JsString) :
    ¬ IsAscii (scalarUnits n ++ s) := by
  intro h
  unfold scalarUnits at h
  split_ifs at h with hlt
  · have hu := h (UInt16.ofNat n) (by simp)
    rw [UInt16.toNat_ofNat'] at hu
    omega
  · have hu := h (UInt16.ofNat (0xD800 + (n - 0x10000) / 0x400)) (by simp)
    rw [UInt16.toNat_ofNat'] at hu
    omega

/-- What starts with a byte outside of ASCII is not read as ASCII text. -/
theorem not_isAscii_of_decodeUtf8 {a : Byte} {rest : List Byte} (ha : ¬ a.toNat < 0x80)
    (h : decodeUtf8 (a :: rest) = some s) : ¬ IsAscii s := by
  rw [decodeUtf8.eq_def] at h
  simp only [ha, if_false] at h
  split at h
  case h_2 => cases h
  case h_1 b rest =>
    have hb := b.toNat_lt
    split at h
    case isTrue htwo =>
      obtain ⟨s', -, rfl⟩ := Option.map_eq_some_iff.mp h
      simp only [Bool.and_eq_true, decide_eq_true_eq] at htwo
      exact not_isAscii_scalarUnits (by omega) (by omega) s'
    case isFalse =>
      split at h
      case h_2 => cases h
      case h_1 c rest =>
        split at h
        case isTrue hthree =>
          obtain ⟨s', -, rfl⟩ := Option.map_eq_some_iff.mp h
          simp only [isContinuation, Bool.and_eq_true, decide_eq_true_eq] at hthree
          exact not_isAscii_scalarUnits (by omega) (by omega) s'
        case isFalse =>
          split at h
          case h_2 => cases h
          case h_1 d rest =>
            split at h
            case isTrue hfour =>
              obtain ⟨s', -, rfl⟩ := Option.map_eq_some_iff.mp h
              simp only [Bool.and_eq_true, decide_eq_true_eq] at hfour
              exact not_isAscii_scalarUnits (by omega) hfour.2 s'
            case isFalse => cases h

/-- Bytes that are read as ASCII text are its bytes. -/
theorem utf8_of_decodeUtf8 {bytes : List Byte} (h : decodeUtf8 bytes = some s) (hs : IsAscii s) :
    utf8 s = bytes := by
  rw [utf8_of_isAscii hs]
  induction bytes generalizing s with
  | nil =>
    rw [← Option.some.inj h]
    rfl
  | cons a rest ih =>
    by_cases hlt : a.toNat < 0x80
    · rw [decodeUtf8_ascii hlt] at h
      obtain ⟨s', hs', rfl⟩ := Option.map_eq_some_iff.mp h
      have ha : (UInt16.ofNat a.toNat).toNat = a.toNat := by
        rw [UInt16.toNat_ofNat']
        omega
      rw [map_cons, ih hs' fun v hv => hs v (mem_cons_of_mem _ hv), ha, UInt8.ofNat_toNat]
    · exact absurd hs (not_isAscii_of_decodeUtf8 hlt h)

/-- Bytes that are read as ASCII text of the same length are its bytes, without a byte order mark.
-/
theorem utf8_of_textDecode {bytes : List Byte} (h : textDecode bytes = some s) (hs : IsAscii s)
    (hlength : (utf8 s).length = bytes.length) : utf8 s = bytes := by
  unfold textDecode at h
  split at h
  case h_2 => exact utf8_of_decodeUtf8 h hs
  case h_1 rest =>
    rw [utf8_of_decodeUtf8 h hs, length_cons, length_cons, length_cons] at hlength
    omega

/-! ## Hexadecimal digits -/

/-- A lower-case hexadecimal digit. -/
def isHexDigit (u : CodeUnit) : Bool :=
  (48 ≤ u.toNat && u.toNat ≤ 57) || (97 ≤ u.toNat && u.toNat ≤ 102)

/-- The two hexadecimal digits of a byte. -/
def hexByte (b : Byte) : JsString := [hexDigit (b.toNat / 16), hexDigit (b.toNat % 16)]

/-- `buffer.toString("hex")`. -/
def hex (bytes : List Byte) : JsString := bytes.flatMap hexByte

/-- Hexadecimal digits determine their values. -/
theorem hexDigit_inj {n m : ℕ} (hn : n < 16) (hm : m < 16) (h : hexDigit n = hexDigit m) :
    n = m := by
  have hall : ∀ i j : Fin 16, hexDigit i = hexDigit j → i = j := by decide +kernel
  exact congrArg Fin.val (hall ⟨n, hn⟩ ⟨m, hm⟩ h)

/-- Bytes are determined by their hexadecimal digits. -/
theorem hex_injective : Function.Injective hex := by
  intro a b h
  induction a generalizing b with
  | nil =>
    cases b with
    | nil => rfl
    | cons y b => simp [hex, hexByte] at h
  | cons x a ih =>
    cases b with
    | nil => simp [hex, hexByte] at h
    | cons y b =>
      simp only [hex, flatMap_cons, hexByte, cons_append, nil_append,
        cons.injEq] at h
      obtain ⟨hhigh, hlow, hrest⟩ := h
      have hx := x.toNat_lt
      have hy := y.toNat_lt
      have hdiv := hexDigit_inj (by omega) (by omega) hhigh
      have hmod := hexDigit_inj (by omega) (by omega) hlow
      have hxy : x = y := UInt8.toNat_inj.mp (by omega)
      rw [hxy, ih hrest]

end ZimaControl.Wire
