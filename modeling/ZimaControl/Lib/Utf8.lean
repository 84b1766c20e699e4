import ZimaControl.Lib.Json

/-!
# UTF-8

The bytes of `Buffer.from(text, "utf8")`: a surrogate pair becomes the four bytes of its scalar
value, and a lone surrogate half the replacement character.
-/

namespace ZimaControl

/-- A byte. -/
abbrev Byte := UInt8

/-- The UTF-8 bytes of a scalar value. -/
def utf8Scalar (n : ℕ) : List Byte :=
  if n < 0x80 then [UInt8.ofNat n]
  else if n < 0x800 then [UInt8.ofNat (0xC0 + n / 0x40), UInt8.ofNat (0x80 + n % 0x40)]
  else if n < 0x10000 then
    [UInt8.ofNat (0xE0 + n / 0x1000), UInt8.ofNat (0x80 + n / 0x40 % 0x40),
      UInt8.ofNat (0x80 + n % 0x40)]
  else
    [UInt8.ofNat (0xF0 + n / 0x40000), UInt8.ofNat (0x80 + n / 0x1000 % 0x40),
      UInt8.ofNat (0x80 + n / 0x40 % 0x40), UInt8.ofNat (0x80 + n % 0x40)]

/-- The scalar value of a code unit that is not part of a pair. -/
def loneScalar (u : CodeUnit) : ℕ :=
  if isHighSurrogate u || isLowSurrogate u then 0xFFFD else u.toNat

/-- `Buffer.from(text, "utf8")`. -/
def utf8 : JsString → List Byte
  | [] => []
  | [u] => utf8Scalar (loneScalar u)
  | u :: v :: rest =>
    if isHighSurrogate u && isLowSurrogate v then
      utf8Scalar (0x10000 + (u.toNat - 0xD800) * 0x400 + (v.toNat - 0xDC00)) ++ utf8 rest
    else utf8Scalar (loneScalar u) ++ utf8 (v :: rest)

/-- `buffer.writeUInt32BE(n)` of a number below `2 ^ 32`. -/
def uint32BE (n : ℕ) : List Byte :=
  [UInt8.ofNat (n / 2 ^ 24), UInt8.ofNat (n / 2 ^ 16 % 2 ^ 8), UInt8.ofNat (n / 2 ^ 8 % 2 ^ 8),
    UInt8.ofNat (n % 2 ^ 8)]

/-- `buffer.readUInt32BE(0)`, when the buffer has four bytes. -/
def readUInt32BE : List Byte → Option ℕ
  | a :: b :: c :: d :: _ =>
    some (a.toNat * 2 ^ 24 + b.toNat * 2 ^ 16 + c.toNat * 2 ^ 8 + d.toNat)
  | _ => none

/-- A length is read from the first four bytes. -/
theorem readUInt32BE_append {bytes more : List Byte} {n : ℕ} (h : readUInt32BE bytes = some n) :
    readUInt32BE (bytes ++ more) = some n := by
  match bytes, h with
  | _ :: _ :: _ :: _ :: _, h => exact h

/-- The code units of a scalar value. -/
def scalarUnits (n : ℕ) : JsString :=
  if n < 0x10000 then [UInt16.ofNat n]
  else [UInt16.ofNat (0xD800 + (n - 0x10000) / 0x400), UInt16.ofNat (0xDC00 + (n - 0x10000) % 0x400)]

/-- A byte that continues a sequence. -/
def isContinuation (b : Byte) : Bool := 0x80 ≤ b.toNat && b.toNat ≤ 0xBF

/-- The text of well-formed UTF-8: no overlong sequence, no surrogate, nothing above the last scalar
value. -/
def decodeUtf8 : List Byte → Option JsString
  | [] => some []
  | a :: rest =>
    if a.toNat < 0x80 then (decodeUtf8 rest).map (UInt16.ofNat a.toNat :: ·)
    else match rest with
    | b :: rest =>
      if 0xC2 ≤ a.toNat && a.toNat ≤ 0xDF && isContinuation b then
        (decodeUtf8 rest).map (scalarUnits ((a.toNat - 0xC0) * 0x40 + (b.toNat - 0x80)) ++ ·)
      else match rest with
      | c :: rest =>
        let scalar := (a.toNat - 0xE0) * 0x1000 + (b.toNat - 0x80) * 0x40 + (c.toNat - 0x80)
        if 0xE0 ≤ a.toNat && a.toNat ≤ 0xEF && isContinuation b && isContinuation c &&
            0x800 ≤ scalar && !(0xD800 ≤ scalar && scalar ≤ 0xDFFF) then
          (decodeUtf8 rest).map (scalarUnits scalar ++ ·)
        else match rest with
        | d :: rest =>
          let scalar := (a.toNat - 0xF0) * 0x40000 + (b.toNat - 0x80) * 0x1000 +
            (c.toNat - 0x80) * 0x40 + (d.toNat - 0x80)
          if 0xF0 ≤ a.toNat && a.toNat ≤ 0xF4 && isContinuation b && isContinuation c &&
              isContinuation d && 0x10000 ≤ scalar && scalar ≤ 0x10FFFF then
            (decodeUtf8 rest).map (scalarUnits scalar ++ ·)
          else none
        | [] => none
      | [] => none
    | [] => none

/-- `new TextDecoder("utf-8", { fatal: true }).decode(bytes)`: a byte order mark in front is
dropped. -/
def textDecode : List Byte → Option JsString
  | 0xEF :: 0xBB :: 0xBF :: rest => decodeUtf8 rest
  | bytes => decodeUtf8 bytes

end ZimaControl
