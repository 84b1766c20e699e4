import ZimaControl.Lib.Utf8

/-!
# Archives in blocks

A tar archive is a sequence of blocks of 512 bytes: for each member a header block with its path and
size, then as many bytes as the size says, filled up to a whole block; two blocks of zeros end it. A
`Tar.Codec` says how a header holds path and size: a size below its limit and a path that fits are
read back.

`Tar.readMembers_encode` says what the reader `Tar.read` makes of a header and the bytes behind it,
whatever they are.
-/

namespace ZimaControl

open List

namespace Tar

/-- Zero bytes. -/
def zeros (n : ℕ) : List Byte := List.replicate n 0

/-- The zero bytes behind a member of this size: up to the next whole block. -/
def padding (size : ℕ) : List Byte := if 0 < size % 512 then zeros (512 - size % 512) else []

/-- A way to hold a path and a size, with mode and time, in a header block. -/
structure Codec where
  encode : JsString → ℕ → ℕ → ℤ → Option (List Byte)
  decode : List Byte → Option (JsString × ℕ)
  readPath : JsString → JsString
  pathFits : JsString → Bool
  sizeLimit : ℕ
  length_encode : ∀ path size mode mtime block, encode path size mode mtime = some block →
    block.length = 512
  encode_ne_zeros : ∀ path size mode mtime block, encode path size mode mtime = some block →
    block ≠ zeros 512
  decode_encode : ∀ path size mode mtime block, encode path size mode mtime = some block →
    size < sizeLimit → decode block = some (readPath path, size)
  readPath_of_fits : ∀ path, pathFits path = true → readPath path = path

variable (codec : Codec)

/-- The members of an archive; none if it is cut off, a header cannot be read or the end is not
marked. Each member and the end take a unit of the fuel. -/
def readMembers : ℕ → List Byte → Option (List (JsString × List Byte))
  | 0, _ => none
  | fuel + 1, bytes =>
    if bytes.length < 512 then none
    else if bytes.take 512 = zeros 512 then
      if (bytes.drop 512).take 512 = zeros 512 then some [] else none
    else
      match codec.decode (bytes.take 512) with
      | none => none
      | some (path, size) =>
        let body := bytes.drop 512
        if body.length < size + (padding size).length then none
        else (readMembers fuel (body.drop (size + (padding size).length))).map
          ((path, body.take size) :: ·)

/-- A reader of archives. -/
def read (bytes : List Byte) : Option (List (JsString × List Byte)) :=
  readMembers codec (bytes.length / 512) bytes

variable {codec}

/-- A member and its padding are whole blocks. -/
theorem size_add_padding_mod (size : ℕ) : (size + (padding size).length) % 512 = 0 := by
  unfold padding zeros
  split_ifs with hrest
  · rw [length_replicate]
    omega
  · rw [length_nil]
    omega

/-- What the reader makes of a header and the bytes behind it. -/
theorem readMembers_encode {path : JsString} {size mode : ℕ} {mtime : ℤ} {block : List Byte}
    (hblock : codec.encode path size mode mtime = some block) (hsize : size < codec.sizeLimit)
    (fuel : ℕ) (body : List Byte) :
    readMembers codec (fuel + 1) (block ++ body) =
      if body.length < size + (padding size).length then none
      else (readMembers codec fuel (body.drop (size + (padding size).length))).map
        ((codec.readPath path, body.take size) :: ·) := by
  have hlength := codec.length_encode _ _ _ _ _ hblock
  have htake : (block ++ body).take 512 = block := take_left' hlength
  have hdrop : (block ++ body).drop 512 = body := drop_left' hlength
  have hlong : ¬ (block ++ body).length < 512 := by
    rw [length_append]
    omega
  rw [readMembers, if_neg hlong, htake, hdrop, if_neg (codec.encode_ne_zeros _ _ _ _ _ hblock),
    codec.decode_encode _ _ _ _ _ hblock hsize]

/-- Two blocks of zeros end an archive. -/
theorem readMembers_end (fuel : ℕ) : readMembers codec (fuel + 1) (zeros 1024) = some [] := by
  have hfirst : (zeros 1024).take 512 = zeros 512 := by
    unfold zeros
    rw [take_replicate]
    rfl
  have hsecond : ((zeros 1024).drop 512).take 512 = zeros 512 := by
    unfold zeros
    rw [drop_replicate, take_replicate]
    rfl
  have hlong : ¬ (zeros 1024).length < 512 := by
    unfold zeros
    rw [length_replicate]
    omega
  rw [readMembers, if_neg hlong, if_pos hfirst, if_pos hsecond]

/-! ## A codec -/

/-- A number in octal digits of a fixed width, the last digit first. -/
def octal : ℕ → ℕ → List Byte
  | 0, _ => []
  | width + 1, n => UInt8.ofNat (n % 8) :: octal width (n / 8)

/-- The number that octal digits stand for. -/
def readOctal : List Byte → ℕ
  | [] => 0
  | digit :: digits => digit.toNat + 8 * readOctal digits

/-- The field is as wide as it should be. -/
theorem length_octal (width n : ℕ) : (octal width n).length = width := by
  induction width generalizing n with
  | zero => rfl
  | succ width ih => rw [octal, length_cons, ih]

/-- A number that fits into its field is read back. -/
theorem readOctal_octal {width n : ℕ} (h : n < 8 ^ width) : readOctal (octal width n) = n := by
  induction width generalizing n with
  | zero =>
    rw [pow_zero] at h
    rw [octal, readOctal]
    omega
  | succ width ih =>
    have hrest : n / 8 < 8 ^ width := by
      rw [pow_succ] at h
      omega
    have hdigit : (UInt8.ofNat (n % 8)).toNat = n % 8 := by
      rw [UInt8.toNat_ofNat']
      omega
    rw [octal, readOctal, ih hrest, hdigit]
    omega

/-- The byte of an ASCII unit; another unit becomes a question mark. -/
def asciiByte (u : CodeUnit) : Byte := if u.toNat < 128 then UInt8.ofNat u.toNat else 63

/-- A name in a field of 100 bytes, cut off or filled up with zeros. -/
def nameField (path : JsString) : List Byte := (path.map asciiByte ++ zeros 100).take 100

/-- The name in a field, up to the first zero. -/
def readName (field : List Byte) : JsString :=
  (field.takeWhile (· ≠ 0)).map fun byte => UInt16.ofNat byte.toNat

/-- The name field has its width. -/
theorem length_nameField (path : JsString) : (nameField path).length = 100 := by
  unfold nameField zeros
  rw [length_take, length_append, length_replicate]
  omega

/-- An ASCII name of at most 100 units is read back. -/
theorem readName_nameField {path : JsString} (hlength : path.length ≤ 100)
    (hascii : ∀ u ∈ path, 0 < u.toNat ∧ u.toNat < 128) : readName (nameField path) = path := by
  have hbyte : ∀ u ∈ path, (asciiByte u).toNat = u.toNat := by
    intro u hu
    obtain ⟨-, hlt⟩ := hascii u hu
    unfold asciiByte
    rw [if_pos hlt, UInt8.toNat_ofNat']
    omega
  have hfield : nameField path = path.map asciiByte ++ zeros (100 - path.length) := by
    unfold nameField zeros
    rw [take_append, take_of_length_le (by rw [length_map]; exact hlength),
      length_map, take_replicate]
    congr 2
    omega
  have hnonzero : ∀ byte ∈ path.map asciiByte, byte ≠ 0 := by
    intro byte hbyte' heq
    obtain ⟨u, hu, rfl⟩ := mem_map.mp hbyte'
    have hzero := hbyte u hu
    rw [heq] at hzero
    have hpos := (hascii u hu).1
    rw [← hzero] at hpos
    exact absurd hpos (by decide)
  have hname : (nameField path).takeWhile (· ≠ 0) = path.map asciiByte := by
    rw [hfield, takeWhile_append_of_pos (fun byte hbyte => by simpa using hnonzero byte hbyte)]
    unfold zeros
    cases 100 - path.length with
    | zero => exact append_nil _
    | succ n =>
      rw [replicate_succ, takeWhile_cons_of_neg (by decide), append_nil]
  unfold readName
  rw [hname, map_map]
  conv_rhs => rw [← map_id path]
  refine map_congr_left fun u hu => ?_
  rw [Function.comp_apply, hbyte u hu, id]
  exact UInt16.ofNat_toNat

/-- A header with the name, the size in twelve octal digits, and a mark. -/
def plainHeader (path : JsString) (size : ℕ) : List Byte :=
  nameField path ++ (octal 12 size ++ 1 :: zeros 399)

/-- The codec of these headers. -/
def plain : Codec where
  encode := fun path size _ _ => some (plainHeader path size)
  decode := fun block => some (readName (block.take 100), readOctal ((block.drop 100).take 12))
  readPath := fun path => readName (nameField path)
  pathFits := fun path => decide (path.length ≤ 100) &&
    path.all fun u => decide (0 < u.toNat) && decide (u.toNat < 128)
  sizeLimit := 8 ^ 12
  length_encode := by
    intro path size mode mtime block h
    cases h
    unfold plainHeader zeros
    rw [length_append, length_nameField, length_append, length_octal, length_cons,
      length_replicate]
  encode_ne_zeros := by
    intro path size mode mtime block h heq
    cases h
    have hmem : (1 : Byte) ∈ plainHeader path size := by
      unfold plainHeader
      simp
    rw [heq] at hmem
    exact absurd (eq_of_mem_replicate hmem) (by decide)
  decode_encode := by
    intro path size mode mtime block h hsize
    cases h
    have hname : (plainHeader path size).take 100 = nameField path :=
      take_left' (length_nameField path)
    have hrest : (plainHeader path size).drop 100 = octal 12 size ++ 1 :: zeros 399 :=
      drop_left' (length_nameField path)
    rw [hname, hrest, take_left' (length_octal 12 size), readOctal_octal hsize]
  readPath_of_fits := by
    intro path h
    rw [Bool.and_eq_true, decide_eq_true_eq, all_eq_true] at h
    refine readName_nameField h.1 fun u hu => ?_
    have hboth := h.2 u hu
    rw [Bool.and_eq_true, decide_eq_true_eq, decide_eq_true_eq] at hboth
    exact hboth

end Tar

end ZimaControl
