import ZimaControl.Lib.Codec
import ZimaControl.Trust.Contracts

/-!
# The encoding of the runtime trust protocol is canonical

A text, a number and a run of bytes of a fixed length are lawful codecs: a text because its
validator admits ASCII only, so that its bytes are the only ones that decode to it. A body is such
fields in sequence and a message a header and a body. So the bytes of a message and its value
determine each other, and since the header holds the type of the message, no bytes are read as two
messages of different types.
-/

namespace ZimaControl.RuntimeTrust

open Wire List

/-! ## Fields -/

/-- A piece of a message of the protocol. -/
abbrev FieldCodec := Codec Byte RuntimeTrustErrorCode

/-- A field of text. -/
def textField (validate : JsString → TrustExcept Unit) : FieldCodec JsString :=
  ⟨fun written value => string written value validate, readString validate⟩

/-- A field of a number. -/
def numberField (positive : Bool) : FieldCodec ℤ :=
  ⟨fun written value => u64 written value positive, readU64 positive⟩

/-- `n` bytes, checked for their number before they are written. -/
def writeBytes (n : ℕ) (written value : List Byte) : TrustExcept (List Byte) := do
  if value.length ≠ n then throw .malformedEnvelope
  raw written value

/-- A field of `n` bytes. -/
def bytesField (n : ℕ) : FieldCodec (List Byte) :=
  ⟨writeBytes n, readRaw n⟩

variable {written value r : List Byte}

/-- What is written goes behind what was. -/
theorem raw_eq_ok (h : raw written value = .ok r) : r = written ++ value := by
  unfold raw at h
  split at h
  · simp at h
  · exact (Except.ok.inj h).symm

/-- Bytes are written while they fit into a frame. -/
theorem raw_of_le {written value : List Byte} (h : written.length + value.length ≤ maxFrameBytes) :
    raw written value = .ok (written ++ value) := by
  rw [raw, if_neg (by omega)]

variable {bytes : List Byte} {n : ℕ}

/-- The bytes in front are read. -/
theorem readRaw_append (h : bytes.length = n) (rest : List Byte) :
    readRaw n (bytes ++ rest) = .ok (bytes, rest) := by
  subst h
  have hle : ¬ bytes.length > (bytes ++ rest).length := by
    rw [length_append]
    omega
  rw [readRaw, if_neg hle, take_left, drop_left]

/-- Bytes that are read were in front. -/
theorem readRaw_eq_ok {input bytes rest : List Byte} (h : readRaw n input = .ok (bytes, rest)) :
    bytes.length = n ∧ input = bytes ++ rest := by
  unfold readRaw at h
  split at h
  case isTrue => cases h
  case isFalse hle =>
    obtain ⟨rfl, rfl⟩ := Prod.mk.inj (Except.ok.inj h)
    refine ⟨?_, (take_append_drop n input).symm⟩
    rw [length_take]
    omega

/-- Bytes of the right number are written. -/
theorem writeBytes_eq_ok :
    writeBytes n written value = .ok r ↔ value.length = n ∧ raw written value = .ok r := by
  unfold writeBytes
  rw [except_unless_eq_ok, not_not]

/-- Writing bytes and going on, with the check first. -/
theorem writeBytes_bind {β : Type} (n : ℕ) (written value : List Byte)
    (f : List Byte → TrustExcept β) :
    (writeBytes n written value >>= f) = (do
      if value.length ≠ n then throw .malformedEnvelope
      let written ← raw written value
      f written) := by
  unfold writeBytes
  by_cases h : value.length ≠ n
  · rw [if_pos h, if_pos h]
    rfl
  · rw [if_neg h, if_neg h]

/-- Bytes of a fixed number are read as they were written. -/
theorem bytesField_lawful (n : ℕ) :
    (bytesField n).Lawful maxFrameBytes (fun value => value.length = n) n where
  read_write := by
    intro written value r h
    obtain ⟨hlength, h⟩ := writeBytes_eq_ok.mp h
    exact ⟨value, raw_eq_ok h, readRaw_append hlength⟩
  write_read := by
    intro input value rest h
    obtain ⟨hlength, hinput⟩ := readRaw_eq_ok h
    exact ⟨value, hinput, fun written hle => writeBytes_eq_ok.mpr ⟨hlength, raw_of_le hle⟩⟩
  write_valid := by
    rintro value rfl written hle
    exact ⟨_, writeBytes_eq_ok.mpr ⟨rfl, raw_of_le hle⟩, (length_append).le⟩
  valid_of_write h := (writeBytes_eq_ok.mp h).1

/-- A number that passes its check is the number of its eight bytes. -/
theorem ofBigEndian_of_assertSafeInteger {value : ℤ} {positive : Bool}
    (h : assertSafeInteger value positive = .ok ()) :
    (ofBigEndian (bigEndian 8 value.toNat) : ℤ) = value ∧ ¬ value > maxSafeInteger := by
  have hrange : value ≤ maxSafeInteger ∧ (if positive then 1 else 0) ≤ value := by
    by_contra hrange
    rw [assertSafeInteger, if_neg (by simpa using hrange)] at h
    cases h
  obtain ⟨hmax, hmin⟩ := hrange
  have hsmall : value.toNat < 256 ^ 8 := by
    rw [maxSafeInteger] at hmax
    omega
  rw [ofBigEndian_bigEndian hsmall]
  omega

/-- A safe integer is read from the eight bytes it is written to. -/
theorem numberField_lawful (positive : Bool) : (numberField positive).Lawful maxFrameBytes
      (fun value => assertSafeInteger value positive = .ok ()) 8 where
  read_write := by
    intro written value r h
    obtain ⟨⟨⟩, hsafe, h⟩ := except_bind_eq_ok.mp (h : u64 written value positive = .ok r)
    obtain ⟨hvalue, hmax⟩ := ofBigEndian_of_assertSafeInteger hsafe
    refine ⟨bigEndian 8 value.toNat, raw_eq_ok h, fun rest => ?_⟩
    refine except_bind_eq_ok.mpr ⟨_, readRaw_append (length_bigEndian 8 _) rest, ?_⟩
    dsimp only
    rw [hvalue]
    exact except_unless_eq_ok.mpr ⟨hmax, except_bind_eq_ok.mpr ⟨(), hsafe, rfl⟩⟩
  write_read := by
    intro input value rest h
    obtain ⟨⟨bytes, rest'⟩, hraw, h⟩ := except_bind_eq_ok.mp (h : readU64 positive input = _)
    obtain ⟨-, h⟩ := except_unless_eq_ok.mp h
    obtain ⟨⟨⟩, hsafe, h⟩ := except_bind_eq_ok.mp h
    obtain ⟨rfl, rfl⟩ := Prod.mk.inj (Except.ok.inj h)
    obtain ⟨hlength, hinput⟩ := readRaw_eq_ok hraw
    refine ⟨bytes, hinput, fun written hle => ?_⟩
    refine except_bind_eq_ok.mpr ⟨(), hsafe, ?_⟩
    rw [Int.toNat_natCast, ← hlength, bigEndian_ofBigEndian]
    exact raw_of_le hle
  write_valid := by
    intro value hsafe written hle
    rw [← length_bigEndian 8 value.toNat] at hle ⊢
    exact ⟨_, except_bind_eq_ok.mpr ⟨(), hsafe, raw_of_le hle⟩, (length_append).le⟩
  valid_of_write h := (except_bind_eq_ok.mp h).elim fun _ hsafe => hsafe.1

variable {validate : JsString → TrustExcept Unit} {value : JsString}

/-- The text that is read of a field's bytes is the text they encode. -/
theorem readText_eq_ok (hplain : Plain validate n) (h : readText validate bytes = .ok value) :
    validate value = .ok () ∧ utf8 value = bytes := by
  unfold readText at h
  split at h
  case h_1 => cases h
  case h_2 text htext =>
    split at h
    case isTrue => cases h
    case isFalse hlength =>
      cases hvalid : validate text with
      | error e => rw [hvalid] at h; cases h
      | ok u =>
        rw [hvalid] at h
        obtain rfl := Except.ok.inj h
        exact ⟨hvalid, utf8_of_textDecode htext (hplain.ascii hvalid) (not_not.mp hlength)⟩

variable {input rest : List Byte}

/-- A text that was read passes its validator. -/
theorem validate_of_readString (hplain : Plain validate n)
    (h : readString validate input = .ok (value, rest)) : validate value = .ok () := by
  obtain ⟨⟨size, input'⟩, -, h⟩ := except_bind_eq_ok.mp h
  obtain ⟨-, h⟩ := except_unless_eq_ok.mp h
  obtain ⟨⟨bytes, input''⟩, -, h⟩ := except_bind_eq_ok.mp h
  obtain ⟨value', htext, h⟩ := except_bind_eq_ok.mp h
  obtain ⟨rfl, -⟩ := Prod.mk.inj (Except.ok.inj h)
  exact (readText_eq_ok hplain htext).1

/-- A text that passes its validator is written, if there is room for it. -/
theorem string_of_valid (hplain : Plain validate n) (hvalid : validate value = .ok ())
    (written : List Byte) (hle : written.length + (2 + (utf8 value).length) ≤ maxFrameBytes) :
    string written value validate =
      .ok (written ++ bigEndian 2 (utf8 value).length ++ utf8 value) := by
  have hpos := hplain.pos hvalid
  rw [← length_utf8_of_isAscii (hplain.ascii hvalid)] at hpos
  have hfits : ¬ ((utf8 value).length = 0 ∨ (utf8 value).length > 0xffff ∨
      isWellFormed value = false) := by
    rw [isWellFormed_of_isAscii (hplain.ascii hvalid)]
    rw [maxFrameBytes] at hle
    simp only [Bool.true_eq_false, or_false, not_or]
    omega
  have hfirst : raw written (bigEndian 2 (utf8 value).length) = .ok _ :=
    raw_of_le (by rw [length_bigEndian]; omega)
  have hsecond : raw (written ++ bigEndian 2 (utf8 value).length) (utf8 value) = .ok _ :=
    raw_of_le (by rw [length_append, length_bigEndian]; omega)
  refine except_bind_eq_ok.mpr ⟨(), hvalid, except_unless_eq_ok.mpr ⟨hfits, ?_⟩⟩
  exact except_bind_eq_ok.mpr ⟨_, hfirst, hsecond⟩

/-- A text behind its length, if its validator admits ASCII only. -/
theorem textField_lawful (hplain : Plain validate n) :
    (textField validate).Lawful maxFrameBytes (fun value => validate value = .ok ()) (2 + n) where
  read_write := by
    intro written value r h
    obtain ⟨⟨⟩, hvalid, h⟩ := except_bind_eq_ok.mp (h : string written value validate = .ok r)
    obtain ⟨hlength, h⟩ := except_unless_eq_ok.mp h
    obtain ⟨w, hw, h⟩ := except_bind_eq_ok.mp h
    obtain ⟨hpos, hmax, -⟩ := not_or.mp hlength |>.imp_right not_or.mp
    -- the length fits into its two bytes, so the reader takes as many bytes as were written
    have hsize : ofBigEndian (bigEndian 2 (utf8 value).length) = (utf8 value).length :=
      ofBigEndian_bigEndian (by omega)
    refine ⟨bigEndian 2 (utf8 value).length ++ utf8 value, ?_, fun rest => ?_⟩
    · rw [raw_eq_ok h, raw_eq_ok hw, append_assoc]
    rw [append_assoc]
    refine except_bind_eq_ok.mpr ⟨_, readRaw_append (length_bigEndian 2 _) _, ?_⟩
    dsimp only
    rw [hsize]
    refine except_unless_eq_ok.mpr ⟨hpos, except_bind_eq_ok.mpr ⟨_, readRaw_append rfl rest, ?_⟩⟩
    have htext : readText validate (utf8 value) = .ok value := by
      simp [readText, textDecode_utf8 (hplain.ascii hvalid), hvalid, Except.map]
    exact except_bind_eq_ok.mpr ⟨_, htext, rfl⟩
  write_read := by
    intro input value rest h
    obtain ⟨⟨size, input'⟩, hsize, h⟩ := except_bind_eq_ok.mp (h : readString validate input = _)
    obtain ⟨hpos, h⟩ := except_unless_eq_ok.mp h
    obtain ⟨⟨bytes, input''⟩, hbytes, h⟩ := except_bind_eq_ok.mp h
    obtain ⟨value', htext, h⟩ := except_bind_eq_ok.mp h
    obtain ⟨rfl, rfl⟩ := Prod.mk.inj (Except.ok.inj h)
    obtain ⟨hvalid, hutf8⟩ := readText_eq_ok hplain htext
    obtain ⟨htwo, rfl⟩ := readRaw_eq_ok hsize
    obtain ⟨hlength, rfl⟩ := readRaw_eq_ok hbytes
    -- the two bytes of the length are the only ones for it
    have hbig : bigEndian 2 (utf8 value').length = size := by
      rw [hutf8, hlength, ← htwo, bigEndian_ofBigEndian]
    refine ⟨size ++ bytes, (append_assoc _ _ _).symm, fun written hle => ?_⟩
    rw [length_append, htwo] at hle
    have hwritten := string_of_valid hplain hvalid written (by rw [hutf8]; omega)
    rw [hbig, hutf8, append_assoc] at hwritten
    exact hwritten
  write_valid := by
    intro value hvalid written hle
    have hmax := hplain.le hvalid
    have hlength := length_utf8_of_isAscii (hplain.ascii hvalid)
    refine ⟨_, string_of_valid hplain hvalid written (by omega), ?_⟩
    rw [length_append, length_append, length_bigEndian]
    omega
  valid_of_write h := (except_bind_eq_ok.mp h).elim fun _ hvalid => hvalid.1

/-- The purpose, which has one value only. -/
def purposeField : FieldCodec Unit where
  write written _ := string written purpose exactPurpose
  read input := do
    let (_, input) ← readString exactPurpose input
    return ((), input)

/-- One text passes. -/
theorem exactPurpose_eq_ok (h : exactPurpose value = .ok ()) : value = purpose := by
  by_contra hne
  rw [exactPurpose, if_pos hne] at h
  cases h

/-- The purpose is ASCII of 27 characters. -/
theorem plain_exactPurpose : Plain exactPurpose 27 where
  ascii h := exactPurpose_eq_ok h ▸ isAscii_of_all (by decide +kernel)
  pos h := exactPurpose_eq_ok h ▸ (by decide +kernel)
  le h := exactPurpose_eq_ok h ▸ (by decide +kernel)

/-- The purpose needs no value to be written, and gives none. -/
theorem purposeField_lawful : purposeField.Lawful maxFrameBytes (fun _ => True) 29 where
  read_write := by
    intro written _ r h
    obtain ⟨bytes, hr, hread⟩ := (textField_lawful plain_exactPurpose).read_write h
    exact ⟨bytes, hr, fun rest => except_bind_eq_ok.mpr ⟨_, hread rest, rfl⟩⟩
  write_read := by
    intro input _ rest h
    obtain ⟨⟨value, rest'⟩, hread, h⟩ := except_bind_eq_ok.mp h
    obtain ⟨-, rfl⟩ := Prod.mk.inj (Except.ok.inj h)
    obtain rfl := exactPurpose_eq_ok (validate_of_readString plain_exactPurpose hread)
    exact (textField_lawful plain_exactPurpose).write_read hread
  write_valid _ := (textField_lawful plain_exactPurpose).write_valid rfl
  valid_of_write _ := trivial

/-- The text of a surface code. -/
def surfaceField : FieldCodec SurfaceErrorCode :=
  ⟨fun written code => string written code.text surfaceCode, readSurfaceCode⟩

/-- A code is looked up by its text. -/
theorem text_of_ofText {text : JsString} {code : SurfaceErrorCode}
    (h : SurfaceErrorCode.ofText text = some code) : code.text = text := by
  have hfound := find?_some h
  exact eq_of_beq hfound

variable (code : SurfaceErrorCode)

/-- The text of a code finds the code. -/
theorem ofText_text : SurfaceErrorCode.ofText code.text = some code := by
  cases code <;> decide +kernel

/-- The text of a code passes. -/
theorem surfaceCode_text : surfaceCode code.text = .ok () := by
  rw [surfaceCode, ofText_text]
  rfl

/-- Only texts of codes pass. -/
theorem surfaceCode_eq_ok (h : surfaceCode value = .ok ()) :
    ∃ code, value = SurfaceErrorCode.text code := by
  obtain ⟨code, hcode⟩ := Option.isSome_iff_exists.mp (eq_true_of_ite_eq_ok h)
  exact ⟨code, (text_of_ofText hcode).symm⟩

/-- The codes are ASCII of at most 20 characters. -/
theorem plain_surfaceCode : Plain surfaceCode 20 where
  ascii h := by
    obtain ⟨code, rfl⟩ := surfaceCode_eq_ok h
    exact isAscii_of_all (by cases code <;> decide +kernel)
  pos h := by
    obtain ⟨code, rfl⟩ := surfaceCode_eq_ok h
    cases code <;> decide +kernel
  le h := by
    obtain ⟨code, rfl⟩ := surfaceCode_eq_ok h
    cases code <;> decide +kernel

/-- A code is read from the text it is written as. -/
theorem surfaceField_lawful : surfaceField.Lawful maxFrameBytes (fun _ => True) 22 where
  read_write := by
    intro written code r h
    obtain ⟨bytes, hr, hread⟩ := (textField_lawful plain_surfaceCode).read_write h
    refine ⟨bytes, hr, fun rest => except_bind_eq_ok.mpr ⟨_, hread rest, ?_⟩⟩
    dsimp only
    rw [ofText_text]
    rfl
  write_read := by
    intro input code rest h
    obtain ⟨⟨text, rest'⟩, hread, h⟩ := except_bind_eq_ok.mp h
    obtain ⟨code', rfl⟩ := surfaceCode_eq_ok (validate_of_readString plain_surfaceCode hread)
    simp only [ofText_text] at h
    obtain ⟨rfl, rfl⟩ := Prod.mk.inj (Except.ok.inj h)
    exact (textField_lawful plain_surfaceCode).write_read hread
  write_valid _ := (textField_lawful plain_surfaceCode).write_valid (surfaceCode_text _)
  valid_of_write _ := trivial

/-- The four texts of a binding. -/
def bindingField : FieldCodec (JsString × JsString × JsString × JsString) :=
  (textField assertCanonicalUuid).pair <| (textField assertCanonicalUuid).pair <|
    (textField assertBoundaryIdentifier).pair <| textField assertBoundaryIdentifier

/-- The identifier of a runtime, a challenge or a session. -/
def runtimeIdField (kind : String) : FieldCodec JsString :=
  textField fun item => assertRuntimeId item kind

/-- The kinds of identifiers are ASCII. -/
theorem isAscii_kind : ∀ kind ∈ ["ri1", "ch1", "rs1"],
    ((js kind).all fun u => u.toNat < 128) = true := by
  decide +kernel

/-- An identifier is its kind, a separator and 64 digits. -/
theorem runtimeIdField_lawful (kind : String) (h : kind ∈ ["ri1", "ch1", "rs1"]) :
    (runtimeIdField kind).Lawful maxFrameBytes (fun item => assertRuntimeId item kind = .ok ())
      (2 + ((js kind).length + 65)) :=
  textField_lawful (plain_assertRuntimeId (isAscii_of_all (isAscii_kind kind h)))

/-- A binding takes at most 336 bytes. -/
theorem bindingField_lawful : bindingField.Lawful maxFrameBytes
      (fun x => assertCanonicalUuid x.1 = .ok () ∧ assertCanonicalUuid x.2.1 = .ok () ∧
        assertBoundaryIdentifier x.2.2.1 = .ok () ∧ assertBoundaryIdentifier x.2.2.2 = .ok ())
      336 :=
  (textField_lawful plain_assertCanonicalUuid).pair <|
    (textField_lawful plain_assertCanonicalUuid).pair <|
      (textField_lawful plain_assertBoundaryIdentifier).pair <|
        textField_lawful plain_assertBoundaryIdentifier

/-- `readBinding` reads the four texts in order. -/
theorem readBinding_eq (input : List Byte) : readBinding input = bindingField.read input := by
  rw [← bind_pure (bindingField.read input)]
  simp only [bindingField, Codec.pair_read_bind]
  rfl

/-! ## Messages -/

/-- A message of the given type: its header and then its body. -/
def encodeMessage {α : Type} (messageType : Byte) (body : FieldCodec α)
    (value : α) : TrustExcept (List Byte) := do
  let written ← writeHeader messageType
  let written ← body.write written value
  finish written

/-- Reads a message of the given type to its end. -/
def decodeMessage {α : Type} (messageType : Byte) (body : FieldCodec α)
    (payload : List Byte) : TrustExcept α := do
  let input ← openReader payload
  let input ← readHeader messageType input
  let read ← body.read input
  done read.2
  return read.1

/-- The bytes of a header. -/
def header (messageType : Byte) : List Byte := magic ++ [messageType] ++ bigEndian 2 1

variable (messageType : Byte)

/-- The header of a type is always the same. -/
theorem writeHeader_eq : writeHeader messageType = .ok (header messageType) :=
  rfl

/-- A header is read where it stands. -/
theorem readHeader_append (rest : List Byte) :
    readHeader messageType (header messageType ++ rest) = .ok rest := by
  rw [header, append_assoc, append_assoc]
  refine except_bind_eq_ok.mpr ⟨_, readRaw_append rfl _, except_unless_eq_ok.mpr ⟨?_, ?_⟩⟩
  · exact fun h => h rfl
  refine except_bind_eq_ok.mpr ⟨_, readRaw_append rfl _, except_unless_eq_ok.mpr ⟨?_, ?_⟩⟩
  · exact fun h => h rfl
  refine except_bind_eq_ok.mpr ⟨_, readRaw_append rfl _, except_unless_eq_ok.mpr ⟨?_, rfl⟩⟩
  exact not_not.mpr (ofBigEndian_bigEndian (by decide))

/-- What is read as a header is the header. -/
theorem readHeader_eq_ok {messageType : Byte} (h : readHeader messageType input = .ok rest) :
    input = header messageType ++ rest := by
  obtain ⟨⟨magicBytes, input₁⟩, hmagic, h⟩ := except_bind_eq_ok.mp h
  obtain ⟨hmagicEq, h⟩ := except_unless_eq_ok.mp h
  obtain ⟨⟨typeBytes, input₂⟩, htype, h⟩ := except_bind_eq_ok.mp h
  obtain ⟨htypeEq, h⟩ := except_unless_eq_ok.mp h
  obtain ⟨⟨version, input₃⟩, hversion, h⟩ := except_bind_eq_ok.mp h
  obtain ⟨hversionEq, h⟩ := except_unless_eq_ok.mp h
  obtain rfl := Except.ok.inj h
  obtain ⟨-, rfl⟩ := readRaw_eq_ok hmagic
  obtain ⟨-, rfl⟩ := readRaw_eq_ok htype
  obtain ⟨hlength, rfl⟩ := readRaw_eq_ok hversion
  have hone : bigEndian 2 1 = version := by
    rw [← not_not.mp hversionEq, ← hlength, bigEndian_ofBigEndian]
  rw [header, hone, not_not.mp hmagicEq, not_not.mp htypeEq, append_assoc, append_assoc]

/-- Exactly the valid values are encoded, and `encode` and `decode` are inverse to each other as far
as they accept. -/
structure Canonical {α : Type} (valid : α → Prop) (encode : α → TrustExcept (List Byte))
    (decode : List Byte → TrustExcept α) : Prop where
  /-- The valid values are encoded. -/
  valid_iff : ∀ value, valid value ↔ ∃ bytes, encode value = .ok bytes
  /-- The bytes of a value are decoded to it. -/
  decode_encode : ∀ {value bytes}, encode value = .ok bytes → decode bytes = .ok value
  /-- No other bytes are. -/
  encode_decode : ∀ {value bytes}, decode bytes = .ok value → encode value = .ok bytes

/-- A header has eleven bytes. -/
theorem length_header : (header messageType).length = 11 := rfl

/-- A finished message is what was written, and fits into a frame. -/
theorem finish_eq_ok {written r : List Byte} (h : finish written = .ok r) :
    written = r ∧ r.length ≤ maxFrameBytes := by
  unfold finish at h
  split at h
  case isTrue => cases h
  case isFalse hlength =>
    obtain rfl := Except.ok.inj h
    exact ⟨rfl, by omega⟩

/-- A payload is opened if it has a header and fits into a frame. -/
theorem openReader_eq_ok {payload input : List Byte} : openReader payload = .ok input ↔
      payload = input ∧ 11 ≤ payload.length ∧ payload.length ≤ maxFrameBytes := by
  unfold openReader
  split
  case isTrue h =>
    constructor
    · intro h'
      cases h'
    · rintro ⟨-, hlength⟩
      omega
  case isFalse h =>
    rw [Except.ok.injEq]
    constructor
    · rintro rfl
      exact ⟨rfl, by omega⟩
    · exact And.left

/-- What fits into a frame is finished. -/
theorem finish_of_le {written : List Byte} (hmin : 1 ≤ written.length)
    (hmax : written.length ≤ maxFrameBytes) : finish written = .ok written := by
  rw [finish, if_neg (by omega)]

/-- Nothing may be left. -/
theorem done_eq_ok {input : List Byte} (h : done input = .ok ()) : input = [] := by
  by_contra hne
  rw [done, if_pos hne] at h
  cases h

/-- The type of a message is what its header says. -/
theorem header_of_decodeMessage {α : Type} {messageType : Byte} {body : FieldCodec α} {value : α}
    (h : decodeMessage messageType body bytes = .ok value) :
    ∃ rest, bytes = header messageType ++ rest := by
  obtain ⟨input, hopen, h⟩ := except_bind_eq_ok.mp h
  obtain ⟨rest, hheader, -⟩ := except_bind_eq_ok.mp h
  obtain ⟨rfl, -⟩ := openReader_eq_ok.mp hopen
  exact ⟨rest, readHeader_eq_ok hheader⟩

/-- A message of a lawful body is canonical. -/
theorem canonical_message {α : Type} {body : FieldCodec α} {valid : α → Prop} {bound : ℕ}
    (hbody : body.Lawful maxFrameBytes valid bound) (hbound : 11 + bound ≤ maxFrameBytes) :
    Canonical valid (encodeMessage messageType body) (decodeMessage messageType body) where
  valid_iff value := by
    constructor
    · intro hvalid
      obtain ⟨r, hwrite, hle⟩ := hbody.write_valid hvalid (header messageType)
        (by rw [length_header]; exact hbound)
      obtain ⟨bytes, rfl, -⟩ := hbody.read_write hwrite
      rw [length_header] at hle
      refine ⟨header messageType ++ bytes, ?_⟩
      refine except_bind_eq_ok.mpr ⟨_, writeHeader_eq messageType, ?_⟩
      refine except_bind_eq_ok.mpr ⟨_, hwrite, finish_of_le ?_ (by omega)⟩
      rw [length_append, length_header]
      omega
    · rintro ⟨bytes, h⟩
      obtain ⟨written, -, h⟩ := except_bind_eq_ok.mp h
      obtain ⟨r, hwrite, -⟩ := except_bind_eq_ok.mp h
      exact hbody.valid_of_write hwrite
  -- a reader of what was written finds the header, the fields and the end
  decode_encode := by
    intro value bytes h
    obtain ⟨written, hheader, h⟩ := except_bind_eq_ok.mp h
    rw [writeHeader_eq] at hheader
    obtain rfl := Except.ok.inj hheader
    obtain ⟨r, hwrite, h⟩ := except_bind_eq_ok.mp h
    obtain ⟨fields, rfl, hread⟩ := hbody.read_write hwrite
    obtain ⟨rfl, hmax⟩ := finish_eq_ok h
    have hmin : 11 ≤ (header messageType ++ fields).length := by
      rw [length_append, length_header]
      omega
    refine except_bind_eq_ok.mpr ⟨_, openReader_eq_ok.mpr ⟨rfl, hmin, hmax⟩, ?_⟩
    refine except_bind_eq_ok.mpr ⟨_, readHeader_append messageType fields, ?_⟩
    have hfields : body.read fields = .ok (value, []) := by
      rw [← append_nil fields]
      exact hread []
    exact except_bind_eq_ok.mpr ⟨_, hfields, rfl⟩
  -- what was read is written again, within the size that the reader allowed
  encode_decode := by
    intro value bytes h
    obtain ⟨input, hopen, h⟩ := except_bind_eq_ok.mp h
    obtain ⟨rest, hheader, h⟩ := except_bind_eq_ok.mp h
    obtain ⟨⟨value', rest'⟩, hread, h⟩ := except_bind_eq_ok.mp h
    obtain ⟨⟨⟩, hdone, h⟩ := except_bind_eq_ok.mp h
    obtain rfl := Except.ok.inj h
    obtain ⟨rfl, -, hmax⟩ := openReader_eq_ok.mp hopen
    obtain rfl := readHeader_eq_ok hheader
    obtain rfl : rest' = [] := done_eq_ok hdone
    obtain ⟨fields, rfl, hwrite⟩ := hbody.write_read hread
    rw [append_nil] at hmax ⊢
    rw [length_append] at hmax
    refine except_bind_eq_ok.mpr ⟨_, writeHeader_eq messageType, ?_⟩
    refine except_bind_eq_ok.mpr ⟨_, hwrite _ hmax, finish_of_le ?_ ?_⟩
    · rw [length_append, length_header]
      omega
    · rwa [length_append]

/-- A canonical encoding whose bytes start with the header of the given type. -/
structure IsMessage {α : Type} (messageType : Byte) (valid : α → Prop)
    (encode : α → TrustExcept (List Byte)) (decode : List Byte → TrustExcept α) : Prop
    extends Canonical valid encode decode where
  /-- Decoded bytes begin with the header. -/
  header_eq : ∀ {value bytes}, decode bytes = .ok value → ∃ rest, bytes = header messageType ++ rest

/-- A message of a lawful body, whose values are read as values of a type with the same content. -/
theorem isMessage_of_body {α γ : Type} {body : FieldCodec γ}
    {valid : γ → Prop} {valid' : α → Prop} {bound : ℕ} {messageType : Byte}
    {encode : α → TrustExcept (List Byte)}
    {decode : List Byte → TrustExcept α} {fields : α → γ} {value : γ → α}
    (hencode : ∀ a, encode a = encodeMessage messageType body (fields a))
    (hdecode : ∀ payload, decode payload =
      decodeMessage messageType body payload >>= fun c => pure (value c))
    (hvalue : ∀ a, value (fields a) = a) (hfields : ∀ c, fields (value c) = c)
    (hbody : body.Lawful maxFrameBytes valid bound) (hbound : 11 + bound ≤ maxFrameBytes)
    (hvalid : ∀ a, valid' a ↔ valid (fields a)) : IsMessage messageType valid' encode decode := by
  have h := canonical_message messageType hbody hbound
  refine ⟨⟨fun a => ?_, ?_, ?_⟩, ?_⟩
  · rw [hvalid, hencode]
    exact h.valid_iff (fields a)
  · intro a bytes ha
    rw [hencode] at ha
    rw [hdecode, h.decode_encode ha]
    exact congrArg Except.ok (hvalue a)
  all_goals
    intro a bytes ha
    rw [hdecode] at ha
    obtain ⟨c, hc, ha⟩ := except_bind_eq_ok.mp ha
  · obtain rfl := Except.ok.inj ha
    rw [hencode, hfields]
    exact h.encode_decode hc
  · exact header_of_decodeMessage hc

/-! ## The five messages -/

/-- The fields of a hello pass their validators. -/
structure RuntimeTrustHello.Valid (m : RuntimeTrustHello) : Prop where
  authorityId : assertCanonicalUuid m.authorityId = .ok ()
  issuerId : assertCanonicalUuid m.issuerId = .ok ()
  serviceBoundaryId : assertBoundaryIdentifier m.serviceBoundaryId = .ok ()
  bindingEpoch : assertBoundaryIdentifier m.bindingEpoch = .ok ()
  publicKeyFingerprint : assertFingerprint m.publicKeyFingerprint = .ok ()
  runtimeInstanceId : assertRuntimeId m.runtimeInstanceId "ri1" = .ok ()

/-- The fields of a challenge pass their validators, and the nonce has its length. -/
structure RuntimeTrustChallenge.Valid (m : RuntimeTrustChallenge) : Prop where
  authorityId : assertCanonicalUuid m.authorityId = .ok ()
  issuerId : assertCanonicalUuid m.issuerId = .ok ()
  serviceBoundaryId : assertBoundaryIdentifier m.serviceBoundaryId = .ok ()
  bindingEpoch : assertBoundaryIdentifier m.bindingEpoch = .ok ()
  keyVersion : assertSafeInteger m.keyVersion true = .ok ()
  publicKeyFingerprint : assertFingerprint m.publicKeyFingerprint = .ok ()
  stateVersion : assertSafeInteger m.stateVersion false = .ok ()
  runtimeInstanceId : assertRuntimeId m.runtimeInstanceId "ri1" = .ok ()
  challengeId : assertRuntimeId m.challengeId "ch1" = .ok ()
  nonce : m.nonce.length = nonceBytes

/-- The fields of a response pass their validators, and the signature has its length. -/
structure RuntimeTrustResponse.Valid (m : RuntimeTrustResponse) : Prop where
  challengeId : assertRuntimeId m.challengeId "ch1" = .ok ()
  runtimeInstanceId : assertRuntimeId m.runtimeInstanceId "ri1" = .ok ()
  signature : m.signature.length = signatureBytes

/-- The fields of an admission pass their validators. -/
structure RuntimeTrustAdmitted.Valid (m : RuntimeTrustAdmitted) : Prop where
  sessionId : assertRuntimeId m.sessionId "rs1" = .ok ()
  runtimeInstanceId : assertRuntimeId m.runtimeInstanceId "ri1" = .ok ()
  keyVersion : assertSafeInteger m.keyVersion true = .ok ()
  bindingEpoch : assertBoundaryIdentifier m.bindingEpoch = .ok ()
  stateVersion : assertSafeInteger m.stateVersion false = .ok ()

/-- The body of a hello. -/
def helloBody : FieldCodec
    (Unit × (JsString × JsString × JsString × JsString) × JsString × JsString) :=
  purposeField.pair <| bindingField.pair <| (textField assertFingerprint).pair <|
    runtimeIdField "ri1"

/-- `encodeRuntimeTrustHello` writes the body of a hello. -/
theorem encodeRuntimeTrustHello_eq (m : RuntimeTrustHello) : encodeRuntimeTrustHello m =
      encodeMessage 0x01 helloBody ((),
        (m.authorityId, m.issuerId, m.serviceBoundaryId, m.bindingEpoch), m.publicKeyFingerprint,
        m.runtimeInstanceId) := by
  simp only [encodeMessage, helloBody, Codec.pair, bind_assoc]
  rfl

variable (payload : List Byte)

/-- `decodeRuntimeTrustHello` reads it. -/
theorem decodeRuntimeTrustHello_eq : decodeRuntimeTrustHello payload =
      decodeMessage 0x01 helloBody payload >>= fun x =>
        pure ⟨x.2.1.1, x.2.1.2.1, x.2.1.2.2.1, x.2.1.2.2.2, x.2.2.1, x.2.2.2⟩ := by
  simp only [decodeMessage, helloBody, bind_assoc, Codec.pair_read_bind]
  simp only [decodeRuntimeTrustHello, readBinding_eq, purposeField, bind_assoc, pure_bind]
  rfl

/-- Hellos are messages of type 1. -/
theorem isMessage_hello :
    IsMessage 0x01 RuntimeTrustHello.Valid encodeRuntimeTrustHello decodeRuntimeTrustHello := by
  have hbody := purposeField_lawful.pair <| bindingField_lawful.pair <|
    (textField_lawful plain_assertFingerprint).pair <| runtimeIdField_lawful "ri1" (by simp)
  refine isMessage_of_body encodeRuntimeTrustHello_eq decodeRuntimeTrustHello_eq
    (fun _ => rfl) (fun _ => rfl) hbody (by decide +kernel) fun m => ?_
  constructor
  · rintro ⟨h₁, h₂, h₃, h₄, h₅, h₆⟩
    exact ⟨trivial, ⟨h₁, h₂, h₃, h₄⟩, h₅, h₆⟩
  · rintro ⟨-, ⟨h₁, h₂, h₃, h₄⟩, h₅, h₆⟩
    exact ⟨h₁, h₂, h₃, h₄, h₅, h₆⟩

/-- The body of a challenge. -/
def challengeBody : FieldCodec
    (Unit × (JsString × JsString × JsString × JsString) × ℤ × JsString × ℤ × JsString × JsString ×
      List Byte) :=
  purposeField.pair <| bindingField.pair <| (numberField true).pair <|
    (textField assertFingerprint).pair <| (numberField false).pair <|
      (runtimeIdField "ri1").pair <| (runtimeIdField "ch1").pair <| bytesField nonceBytes

/-- `encodeRuntimeTrustChallenge` writes the body of a challenge. -/
theorem encodeRuntimeTrustChallenge_eq (m : RuntimeTrustChallenge) : encodeRuntimeTrustChallenge m =
      encodeMessage 0x02 challengeBody ((),
        (m.authorityId, m.issuerId, m.serviceBoundaryId, m.bindingEpoch), m.keyVersion,
        m.publicKeyFingerprint, m.stateVersion, m.runtimeInstanceId, m.challengeId, m.nonce) := by
  simp only [encodeMessage, challengeBody, Codec.pair, bind_assoc, bytesField, writeBytes_bind]
  rfl

/-- `decodeRuntimeTrustChallenge` reads it. -/
theorem decodeRuntimeTrustChallenge_eq : decodeRuntimeTrustChallenge payload =
      decodeMessage 0x02 challengeBody payload >>= fun x =>
        pure ⟨x.2.1.1, x.2.1.2.1, x.2.1.2.2.1, x.2.1.2.2.2, x.2.2.1, x.2.2.2.1, x.2.2.2.2.1,
          x.2.2.2.2.2.1, x.2.2.2.2.2.2.1, x.2.2.2.2.2.2.2⟩ := by
  simp only [decodeMessage, challengeBody, bind_assoc, Codec.pair_read_bind]
  simp only [decodeRuntimeTrustChallenge, readBinding_eq, purposeField, bind_assoc, pure_bind]
  rfl

/-- Challenges are messages of type 2. -/
theorem isMessage_challenge : IsMessage 0x02 RuntimeTrustChallenge.Valid encodeRuntimeTrustChallenge
      decodeRuntimeTrustChallenge := by
  have hbody := purposeField_lawful.pair <| bindingField_lawful.pair <|
    (numberField_lawful true).pair <| (textField_lawful plain_assertFingerprint).pair <|
      (numberField_lawful false).pair <| (runtimeIdField_lawful "ri1" (by simp)).pair <|
        (runtimeIdField_lawful "ch1" (by simp)).pair <| bytesField_lawful nonceBytes
  refine isMessage_of_body encodeRuntimeTrustChallenge_eq decodeRuntimeTrustChallenge_eq
    (fun _ => rfl) (fun _ => rfl) hbody (by decide +kernel) fun m => ?_
  constructor
  · rintro ⟨h₁, h₂, h₃, h₄, h₅, h₆, h₇, h₈, h₉, h₁₀⟩
    exact ⟨trivial, ⟨h₁, h₂, h₃, h₄⟩, h₅, h₆, h₇, h₈, h₉, h₁₀⟩
  · rintro ⟨-, ⟨h₁, h₂, h₃, h₄⟩, h₅, h₆, h₇, h₈, h₉, h₁₀⟩
    exact ⟨h₁, h₂, h₃, h₄, h₅, h₆, h₇, h₈, h₉, h₁₀⟩

/-- The bytes of a challenge determine all its fields. -/
theorem encodeRuntimeTrustChallenge_inj {c d : RuntimeTrustChallenge}
    (hc : encodeRuntimeTrustChallenge c = .ok bytes)
    (hd : encodeRuntimeTrustChallenge d = .ok bytes) : c = d := by
  have hdecode := isMessage_challenge.decode_encode hc
  rw [isMessage_challenge.decode_encode hd] at hdecode
  exact (Except.ok.inj hdecode).symm

/-- The body of a response. -/
def responseBody : FieldCodec (JsString × JsString × List Byte) :=
  (runtimeIdField "ch1").pair <| (runtimeIdField "ri1").pair <| bytesField signatureBytes

/-- `encodeRuntimeTrustResponse` writes the body of a response. -/
theorem encodeRuntimeTrustResponse_eq (m : RuntimeTrustResponse) : encodeRuntimeTrustResponse m =
      encodeMessage 0x03 responseBody (m.challengeId, m.runtimeInstanceId, m.signature) := by
  simp only [encodeMessage, responseBody, Codec.pair, bind_assoc, bytesField, writeBytes_bind]
  rfl

/-- `decodeRuntimeTrustResponse` reads it. -/
theorem decodeRuntimeTrustResponse_eq : decodeRuntimeTrustResponse payload =
      decodeMessage 0x03 responseBody payload >>= fun x => pure ⟨x.1, x.2.1, x.2.2⟩ := by
  simp only [decodeMessage, responseBody, bind_assoc, Codec.pair_read_bind]
  rfl

/-- Responses are messages of type 3. -/
theorem isMessage_response : IsMessage 0x03 RuntimeTrustResponse.Valid encodeRuntimeTrustResponse
      decodeRuntimeTrustResponse := by
  have hbody := (runtimeIdField_lawful "ch1" (by simp)).pair <|
    (runtimeIdField_lawful "ri1" (by simp)).pair <| bytesField_lawful signatureBytes
  refine isMessage_of_body encodeRuntimeTrustResponse_eq decodeRuntimeTrustResponse_eq
    (fun _ => rfl) (fun _ => rfl) hbody (by decide +kernel) fun m => ?_
  constructor
  · rintro ⟨h₁, h₂, h₃⟩
    exact ⟨h₁, h₂, h₃⟩
  · rintro ⟨h₁, h₂, h₃⟩
    exact ⟨h₁, h₂, h₃⟩

/-- The body of an admission. -/
def admittedBody : FieldCodec (JsString × JsString × ℤ × JsString × ℤ) :=
  (runtimeIdField "rs1").pair <| (runtimeIdField "ri1").pair <| (numberField true).pair <|
    (textField assertBoundaryIdentifier).pair <| numberField false

/-- `encodeRuntimeTrustAdmitted` writes the body of an admission. -/
theorem encodeRuntimeTrustAdmitted_eq (m : RuntimeTrustAdmitted) : encodeRuntimeTrustAdmitted m =
      encodeMessage 0x04 admittedBody
        (m.sessionId, m.runtimeInstanceId, m.keyVersion, m.bindingEpoch, m.stateVersion) := by
  simp only [encodeMessage, admittedBody, Codec.pair, bind_assoc]
  rfl

/-- `decodeRuntimeTrustAdmitted` reads it. -/
theorem decodeRuntimeTrustAdmitted_eq : decodeRuntimeTrustAdmitted payload =
      decodeMessage 0x04 admittedBody payload >>= fun x =>
        pure ⟨x.1, x.2.1, x.2.2.1, x.2.2.2.1, x.2.2.2.2⟩ := by
  simp only [decodeMessage, admittedBody, bind_assoc, Codec.pair_read_bind]
  rfl

/-- Admissions are messages of type 4. -/
theorem isMessage_admitted : IsMessage 0x04 RuntimeTrustAdmitted.Valid encodeRuntimeTrustAdmitted
      decodeRuntimeTrustAdmitted := by
  have hbody := (runtimeIdField_lawful "rs1" (by simp)).pair <|
    (runtimeIdField_lawful "ri1" (by simp)).pair <| (numberField_lawful true).pair <|
      (textField_lawful plain_assertBoundaryIdentifier).pair <| numberField_lawful false
  refine isMessage_of_body encodeRuntimeTrustAdmitted_eq decodeRuntimeTrustAdmitted_eq
    (fun _ => rfl) (fun _ => rfl) hbody (by decide +kernel) fun m => ?_
  constructor
  · rintro ⟨h₁, h₂, h₃, h₄, h₅⟩
    exact ⟨h₁, h₂, h₃, h₄, h₅⟩
  · rintro ⟨h₁, h₂, h₃, h₄, h₅⟩
    exact ⟨h₁, h₂, h₃, h₄, h₅⟩

/-- An error is one code. -/
theorem canonical_error :
    Canonical (fun _ => True) encodeRuntimeTrustError decodeRuntimeTrustError :=
  canonical_message 0x7f surfaceField_lawful (by decide)

/-! ## No bytes are two messages -/

/-- `runtimeTrustMessageTypes`. -/
inductive MessageType
  | hello | challenge | response | admitted | error

/-- The byte of a type in the header. -/
def MessageType.byte : MessageType → Byte
  | .hello => 0x01
  | .challenge => 0x02
  | .response => 0x03
  | .admitted => 0x04
  | .error => 0x7f

/-- The decoder of the given type accepts the bytes. -/
def Decodes (bytes : List Byte) : MessageType → Prop
  | .hello => ∃ m, decodeRuntimeTrustHello bytes = .ok m
  | .challenge => ∃ m, decodeRuntimeTrustChallenge bytes = .ok m
  | .response => ∃ m, decodeRuntimeTrustResponse bytes = .ok m
  | .admitted => ∃ m, decodeRuntimeTrustAdmitted bytes = .ok m
  | .error => ∃ code, decodeRuntimeTrustError bytes = .ok code

/-- Accepted bytes begin with the header of the type. -/
theorem header_of_decodes {t : MessageType} (h : Decodes bytes t) :
    ∃ rest, bytes = header t.byte ++ rest := by
  cases t <;> obtain ⟨m, hm⟩ := h
  · exact isMessage_hello.header_eq hm
  · exact isMessage_challenge.header_eq hm
  · exact isMessage_response.header_eq hm
  · exact isMessage_admitted.header_eq hm
  · change decodeMessage 0x7f surfaceField bytes = .ok m at hm
    exact header_of_decodeMessage hm

/-- A header tells its type. -/
theorem header_inj {t u : Byte} {rest rest' : List Byte}
    (h : header t ++ rest = header u ++ rest') : t = u := by
  have htypes := congrArg (fun bytes => bytes.drop 8 |>.head?) h
  simpa [header, magic, bigEndian] using htypes

/-- The types have different bytes. -/
theorem byte_inj {t u : MessageType} (h : t.byte = u.byte) : t = u := by
  cases t <;> cases u <;> first | rfl | exact absurd h (by decide)

/-- Bytes that two decoders accept are of one type. -/
theorem decodes_inj {t u : MessageType} (ht : Decodes bytes t) (hu : Decodes bytes u) : t = u := by
  obtain ⟨rest, hrest⟩ := header_of_decodes ht
  obtain ⟨rest', hrest'⟩ := header_of_decodes hu
  rw [hrest] at hrest'
  exact byte_inj (header_inj hrest')

/-- The encoding is canonical: each of the five decoders inverts its encoder and the other way
round, a valid message is encoded, and no bytes are accepted by the decoders of two types. So the
bytes of a challenge, which are what is signed, determine its fields and are no other message. -/
theorem encoding_canonical :
    Canonical RuntimeTrustHello.Valid encodeRuntimeTrustHello decodeRuntimeTrustHello ∧
      Canonical RuntimeTrustChallenge.Valid encodeRuntimeTrustChallenge
        decodeRuntimeTrustChallenge ∧
      Canonical RuntimeTrustResponse.Valid encodeRuntimeTrustResponse decodeRuntimeTrustResponse ∧
      Canonical RuntimeTrustAdmitted.Valid encodeRuntimeTrustAdmitted decodeRuntimeTrustAdmitted ∧
      Canonical (fun _ => True) encodeRuntimeTrustError decodeRuntimeTrustError ∧
      (∀ bytes t u, Decodes bytes t → Decodes bytes u → t = u) ∧
      ∀ c bytes, encodeRuntimeTrustChallenge c = .ok bytes →
        (∀ d, encodeRuntimeTrustChallenge d = .ok bytes → d = c) ∧
          ∀ t, Decodes bytes t → t = .challenge := by
  refine ⟨isMessage_hello.1, isMessage_challenge.1, isMessage_response.1, isMessage_admitted.1,
    canonical_error, fun _ _ _ => decodes_inj, fun c bytes hc => ?_⟩
  refine ⟨fun d hd => encodeRuntimeTrustChallenge_inj hd hc, fun t ht => ?_⟩
  exact decodes_inj ht ⟨c, isMessage_challenge.decode_encode hc⟩

example : (encodeRuntimeTrustError .expired >>= decodeRuntimeTrustError) = .ok .expired := by
  decide +kernel

end ZimaControl.RuntimeTrust
