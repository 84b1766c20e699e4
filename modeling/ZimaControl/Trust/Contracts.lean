import ZimaControl.Lib.Outcome
import ZimaControl.Lib.Wire

/-!
# The messages of the runtime trust protocol

`packages/runtime-trust-contracts`: the error codes, the validators, the messages, and how they are
written and read. A message is a header and then one field after the other: text with its length
before it, numbers in eight bytes, and bytes of a fixed number. Every validator of a text admits
ASCII only.

The protocol version and the purpose are literal types in the source; a message here has no field
for them.
-/

namespace ZimaControl.RuntimeTrust

open Wire List

/-- `RuntimeTrustErrorCode`. -/
inductive RuntimeTrustErrorCode
  | invalidIdentity | invalidKey | invalidSignature | revokedKey | rebindRequired | expired | replay
  | wrongAuthority | wrongBinding | unsupportedProtocol | unsupportedAlgorithm | malformedEnvelope
  | staleTrustSnapshot | sessionInvalidated | sessionConflict | peerNotAuthorized
  | trustStateNotAdmissible | transportFailure | uncertainTrust
  deriving DecidableEq

/-- What a check of the protocol returns, or the code that it throws. -/
abbrev TrustExcept := Except RuntimeTrustErrorCode

/-! ## Validators -/

/-- Whether the text has one unit for each class of units, in order: a regular expression between
`^` and `$` without repetition of unknown length. -/
def matchesClasses : List (CodeUnit → Bool) → JsString → Bool
  | [], [] => true
  | c :: cs, u :: s => c u && matchesClasses cs s
  | _, _ => false

/-- `[0-9a-f]{n}`. -/
def hexDigits (n : ℕ) : List (CodeUnit → Bool) := List.replicate n isHexDigit

/-- The literal text as classes of one unit each. -/
def literally (text : JsString) : List (CodeUnit → Bool) := text.map fun u v => u == v

/-- `UUID`. -/
def uuidClasses : List (CodeUnit → Bool) :=
  hexDigits 8 ++ literally (js "-") ++ hexDigits 4 ++ literally (js "-") ++ hexDigits 4 ++
    literally (js "-") ++ hexDigits 4 ++ literally (js "-") ++ hexDigits 12

/-- A unit of the class `[A-Za-z0-9._:-]`. -/
def isBoundaryUnit (u : CodeUnit) : Bool :=
  (65 ≤ u.toNat && u.toNat ≤ 90) || (97 ≤ u.toNat && u.toNat ≤ 122) ||
    (48 ≤ u.toNat && u.toNat ≤ 57) || u == unit '.' || u == unit '_' || u == unit ':' ||
    u == unit '-'

/-- `assertCanonicalUuid`. -/
def assertCanonicalUuid (value : JsString) : TrustExcept Unit :=
  if matchesClasses uuidClasses value then .ok () else .error .invalidIdentity

/-- `assertBoundaryIdentifier`. -/
def assertBoundaryIdentifier (value : JsString) : TrustExcept Unit :=
  if 1 ≤ value.length && value.length ≤ 128 && value.all isBoundaryUnit then .ok ()
  else .error .invalidIdentity

/-- `assertFingerprint`. -/
def assertFingerprint (value : JsString) : TrustExcept Unit :=
  if matchesClasses (hexDigits 64) value then .ok () else .error .invalidKey

/-- `assertRuntimeId`. -/
def assertRuntimeId (value : JsString) ( idPrefix : String) : TrustExcept Unit :=
  if matchesClasses (literally (js idPrefix) ++ literally (js "-") ++ hexDigits 64) value then .ok ()
  else .error .invalidIdentity

/-- `Number.MAX_SAFE_INTEGER`. -/
def maxSafeInteger : ℤ := 2 ^ 53 - 1

/-- `assertSafeInteger`: a safe integer that is at least 1 when `positive`, else at least 0. -/
def assertSafeInteger (value : ℤ) (positive : Bool) : TrustExcept Unit :=
  if value ≤ maxSafeInteger && (if positive then 1 else 0) ≤ value then .ok ()
  else .error .malformedEnvelope

/-! ## Messages -/

/-- `RuntimeTrustHello`. -/
structure RuntimeTrustHello where
  authorityId : JsString
  issuerId : JsString
  serviceBoundaryId : JsString
  bindingEpoch : JsString
  publicKeyFingerprint : JsString
  runtimeInstanceId : JsString

/-- `RuntimeTrustChallenge`. -/
structure RuntimeTrustChallenge where
  authorityId : JsString
  issuerId : JsString
  serviceBoundaryId : JsString
  bindingEpoch : JsString
  keyVersion : ℤ
  publicKeyFingerprint : JsString
  stateVersion : ℤ
  runtimeInstanceId : JsString
  challengeId : JsString
  nonce : List Byte

/-- `RuntimeTrustResponse`. -/
structure RuntimeTrustResponse where
  challengeId : JsString
  runtimeInstanceId : JsString
  signature : List Byte

/-- `RuntimeTrustAdmitted`. -/
structure RuntimeTrustAdmitted where
  sessionId : JsString
  runtimeInstanceId : JsString
  keyVersion : ℤ
  bindingEpoch : JsString
  stateVersion : ℤ

/-- `RuntimeTrustSurfaceErrorCode`. -/
inductive SurfaceErrorCode
  | unsupportedProtocol | expired | sessionInvalidated | retryLater | admissionDenied
  deriving DecidableEq

/-- The text of a surface code. -/
def SurfaceErrorCode.text : SurfaceErrorCode → JsString
  | .unsupportedProtocol => js "UNSUPPORTED_PROTOCOL"
  | .expired => js "EXPIRED"
  | .sessionInvalidated => js "SESSION_INVALIDATED"
  | .retryLater => js "RETRY_LATER"
  | .admissionDenied => js "ADMISSION_DENIED"

/-- The surface code of a text. -/
def SurfaceErrorCode.ofText (text : JsString) : Option SurfaceErrorCode :=
  [unsupportedProtocol, expired, sessionInvalidated, retryLater, admissionDenied].find?
    (·.text == text)

/-! ## The writer -/

/-- `RUNTIME_TRUST_MAX_FRAME_BYTES`. -/
def maxFrameBytes : ℕ := 16384

/-- `RUNTIME_TRUST_NONCE_BYTES`. -/
def nonceBytes : ℕ := 32

/-- `ED25519_SIGNATURE_BYTES`. -/
def signatureBytes : ℕ := 64

/-- `RUNTIME_TRUST_MAGIC_TEXT` as ASCII bytes. -/
def magic : List Byte := [0x5A, 0x43, 0x43, 0x52, 0x54, 0x56, 0x31, 0x00]

/-- `RUNTIME_TRUST_PURPOSE`. -/
def purpose : JsString := js "ZCC_RUNTIME_TRUST_ADMISSION"

/-- `Writer.raw`: appends bytes as long as the frame's size allows. -/
def raw (written value : List Byte) : TrustExcept (List Byte) :=
  if written.length + value.length > maxFrameBytes then .error .malformedEnvelope
  else .ok (written ++ value)

/-- `Writer.string`: a validated text with its length before it. -/
def string (written : List Byte) (value : JsString) (validate : JsString → TrustExcept Unit) :
    TrustExcept (List Byte) := do
  validate value
  let bytes := utf8 value
  if bytes.length = 0 ∨ bytes.length > 0xffff ∨ isWellFormed value = false then
    throw .malformedEnvelope
  let written ← raw written (bigEndian 2 bytes.length)
  raw written bytes

/-- `Writer.u64`. -/
def u64 (written : List Byte) (value : ℤ) (positive : Bool) : TrustExcept (List Byte) := do
  assertSafeInteger value positive
  raw written (bigEndian 8 value.toNat)

/-- `Writer.finish`. -/
def finish (written : List Byte) : TrustExcept (List Byte) :=
  if written.length < 1 ∨ written.length > maxFrameBytes then .error .malformedEnvelope
  else .ok written

/-- `writeHeader`: the magic, the message type and the protocol version. -/
def writeHeader (messageType : Byte) : TrustExcept (List Byte) := do
  let written ← raw [] magic
  let written ← raw written [messageType]
  raw written (bigEndian 2 1)

/-- `exactPurpose`. -/
def exactPurpose (value : JsString) : TrustExcept Unit :=
  if value ≠ purpose then .error .unsupportedProtocol else .ok ()

/-- `writeBinding`. -/
def writeBinding (written : List Byte)
    (authorityId issuerId serviceBoundaryId bindingEpoch : JsString) : TrustExcept (List Byte) := do
  let written ← string written authorityId assertCanonicalUuid
  let written ← string written issuerId assertCanonicalUuid
  let written ← string written serviceBoundaryId assertBoundaryIdentifier
  string written bindingEpoch assertBoundaryIdentifier

/-- `encodeRuntimeTrustHello`. -/
def encodeRuntimeTrustHello (value : RuntimeTrustHello) : TrustExcept (List Byte) := do
  let written ← writeHeader 0x01
  let written ← string written purpose exactPurpose
  let written ← writeBinding written value.authorityId value.issuerId value.serviceBoundaryId
    value.bindingEpoch
  let written ← string written value.publicKeyFingerprint assertFingerprint
  let written ← string written value.runtimeInstanceId fun item => assertRuntimeId item "ri1"
  finish written

/-- `encodeRuntimeTrustChallenge`. -/
def encodeRuntimeTrustChallenge (value : RuntimeTrustChallenge) : TrustExcept (List Byte) := do
  let written ← writeHeader 0x02
  let written ← string written purpose exactPurpose
  let written ← writeBinding written value.authorityId value.issuerId value.serviceBoundaryId
    value.bindingEpoch
  let written ← u64 written value.keyVersion true
  let written ← string written value.publicKeyFingerprint assertFingerprint
  let written ← u64 written value.stateVersion false
  let written ← string written value.runtimeInstanceId fun item => assertRuntimeId item "ri1"
  let written ← string written value.challengeId fun item => assertRuntimeId item "ch1"
  if value.nonce.length ≠ nonceBytes then throw .malformedEnvelope
  let written ← raw written value.nonce
  finish written

/-- `encodeRuntimeTrustResponse`. -/
def encodeRuntimeTrustResponse (value : RuntimeTrustResponse) : TrustExcept (List Byte) := do
  let written ← writeHeader 0x03
  let written ← string written value.challengeId fun item => assertRuntimeId item "ch1"
  let written ← string written value.runtimeInstanceId fun item => assertRuntimeId item "ri1"
  if value.signature.length ≠ signatureBytes then throw .malformedEnvelope
  let written ← raw written value.signature
  finish written

/-- `encodeRuntimeTrustAdmitted`. -/
def encodeRuntimeTrustAdmitted (value : RuntimeTrustAdmitted) : TrustExcept (List Byte) := do
  let written ← writeHeader 0x04
  let written ← string written value.sessionId fun item => assertRuntimeId item "rs1"
  let written ← string written value.runtimeInstanceId fun item => assertRuntimeId item "ri1"
  let written ← u64 written value.keyVersion true
  let written ← string written value.bindingEpoch assertBoundaryIdentifier
  let written ← u64 written value.stateVersion false
  finish written

/-- `surfaceCode`. -/
def surfaceCode (value : JsString) : TrustExcept Unit :=
  if (SurfaceErrorCode.ofText value).isSome then .ok () else .error .malformedEnvelope

/-- `encodeRuntimeTrustError`. -/
def encodeRuntimeTrustError (code : SurfaceErrorCode) : TrustExcept (List Byte) := do
  let written ← writeHeader 0x7f
  let written ← string written code.text surfaceCode
  finish written

/-! ## The reader -/

/-- The constructor of `Reader`; what is left to read is the whole input. -/
def openReader (input : List Byte) : TrustExcept (List Byte) :=
  if input.length < 11 ∨ input.length > maxFrameBytes then .error .malformedEnvelope else .ok input

/-- `Reader.raw`: the next bytes, and what is left after them. -/
def readRaw (length : ℕ) (input : List Byte) : TrustExcept (List Byte × List Byte) :=
  if length > input.length then .error .malformedEnvelope
  else .ok (input.take length, input.drop length)

/-- The text of a field's bytes, when it has as many bytes again and passes its validator. -/
def readText (validate : JsString → TrustExcept Unit) (bytes : List Byte) : TrustExcept JsString :=
  match textDecode bytes with
  | none => .error .malformedEnvelope
  | some value =>
    if (utf8 value).length ≠ bytes.length then .error .malformedEnvelope
    else (validate value).map fun _ => value

/-- `Reader.string`. -/
def readString (validate : JsString → TrustExcept Unit) (input : List Byte) :
    TrustExcept (JsString × List Byte) := do
  let (lengthBytes, input) ← readRaw 2 input
  if ofBigEndian lengthBytes = 0 then throw .malformedEnvelope
  let (bytes, input) ← readRaw (ofBigEndian lengthBytes) input
  let value ← readText validate bytes
  return (value, input)

/-- `Reader.u64`. -/
def readU64 (positive : Bool) (input : List Byte) : TrustExcept (ℤ × List Byte) := do
  let (bytes, input) ← readRaw 8 input
  if (ofBigEndian bytes : ℤ) > maxSafeInteger then throw .malformedEnvelope
  assertSafeInteger (ofBigEndian bytes) positive
  return ((ofBigEndian bytes : ℤ), input)

/-- `Reader.done`. -/
def done (input : List Byte) : TrustExcept Unit :=
  if input ≠ [] then .error .malformedEnvelope else .ok ()

/-- `readHeader`; returns what is left after the header. -/
def readHeader (expectedType : Byte) (input : List Byte) : TrustExcept (List Byte) := do
  let (magicBytes, input) ← readRaw 8 input
  if magicBytes ≠ magic then throw .unsupportedProtocol
  let (typeBytes, input) ← readRaw 1 input
  if typeBytes ≠ [expectedType] then throw .malformedEnvelope
  let (version, input) ← readRaw 2 input
  if ofBigEndian version ≠ 1 then throw .unsupportedProtocol
  return input

/-- `readBinding`. -/
def readBinding (input : List Byte) :
    TrustExcept ((JsString × JsString × JsString × JsString) × List Byte) := do
  let (authorityId, input) ← readString assertCanonicalUuid input
  let (issuerId, input) ← readString assertCanonicalUuid input
  let (serviceBoundaryId, input) ← readString assertBoundaryIdentifier input
  let (bindingEpoch, input) ← readString assertBoundaryIdentifier input
  return ((authorityId, issuerId, serviceBoundaryId, bindingEpoch), input)

/-- `decodeRuntimeTrustHello`. -/
def decodeRuntimeTrustHello (payload : List Byte) : TrustExcept RuntimeTrustHello := do
  let input ← openReader payload
  let input ← readHeader 0x01 input
  let (_, input) ← readString exactPurpose input
  let (binding, input) ← readBinding input
  let (publicKeyFingerprint, input) ← readString assertFingerprint input
  let (runtimeInstanceId, input) ← readString (fun item => assertRuntimeId item "ri1") input
  done input
  return ⟨binding.1, binding.2.1, binding.2.2.1, binding.2.2.2, publicKeyFingerprint,
    runtimeInstanceId⟩

/-- `decodeRuntimeTrustChallenge`. -/
def decodeRuntimeTrustChallenge (payload : List Byte) : TrustExcept RuntimeTrustChallenge := do
  let input ← openReader payload
  let input ← readHeader 0x02 input
  let (_, input) ← readString exactPurpose input
  let (binding, input) ← readBinding input
  let (keyVersion, input) ← readU64 true input
  let (publicKeyFingerprint, input) ← readString assertFingerprint input
  let (stateVersion, input) ← readU64 false input
  let (runtimeInstanceId, input) ← readString (fun item => assertRuntimeId item "ri1") input
  let (challengeId, input) ← readString (fun item => assertRuntimeId item "ch1") input
  let (nonce, input) ← readRaw nonceBytes input
  done input
  return ⟨binding.1, binding.2.1, binding.2.2.1, binding.2.2.2, keyVersion, publicKeyFingerprint,
    stateVersion, runtimeInstanceId, challengeId, nonce⟩

/-- `decodeRuntimeTrustResponse`. -/
def decodeRuntimeTrustResponse (payload : List Byte) : TrustExcept RuntimeTrustResponse := do
  let input ← openReader payload
  let input ← readHeader 0x03 input
  let (challengeId, input) ← readString (fun item => assertRuntimeId item "ch1") input
  let (runtimeInstanceId, input) ← readString (fun item => assertRuntimeId item "ri1") input
  let (signature, input) ← readRaw signatureBytes input
  done input
  return ⟨challengeId, runtimeInstanceId, signature⟩

/-- `decodeRuntimeTrustAdmitted`. -/
def decodeRuntimeTrustAdmitted (payload : List Byte) : TrustExcept RuntimeTrustAdmitted := do
  let input ← openReader payload
  let input ← readHeader 0x04 input
  let (sessionId, input) ← readString (fun item => assertRuntimeId item "rs1") input
  let (runtimeInstanceId, input) ← readString (fun item => assertRuntimeId item "ri1") input
  let (keyVersion, input) ← readU64 true input
  let (bindingEpoch, input) ← readString assertBoundaryIdentifier input
  let (stateVersion, input) ← readU64 false input
  done input
  return ⟨sessionId, runtimeInstanceId, keyVersion, bindingEpoch, stateVersion⟩

/-- The text of a code; a text that `surfaceCode` admits is one. -/
def readSurfaceCode (input : List Byte) : TrustExcept (SurfaceErrorCode × List Byte) := do
  let (text, input) ← readString surfaceCode input
  match SurfaceErrorCode.ofText text with
  | some code => return (code, input)
  | none => throw .malformedEnvelope

/-- `decodeRuntimeTrustError`. -/
def decodeRuntimeTrustError (payload : List Byte) : TrustExcept SurfaceErrorCode := do
  let input ← openReader payload
  let input ← readHeader 0x7f input
  let (code, input) ← readSurfaceCode input
  done input
  return code

/-! ## What a validator admits -/

variable {classes : List (CodeUnit → Bool)}

theorem isAscii_of_matchesClasses {s : JsString}
    (hclasses : ∀ c ∈ classes, ∀ u, c u = true → u.toNat < 128)
    (h : matchesClasses classes s = true) : IsAscii s := by
  induction classes generalizing s with
  | nil =>
    cases s with
    | nil => exact fun u hu => absurd hu not_mem_nil
    | cons u s => simp [matchesClasses] at h
  | cons c classes ih =>
    cases s with
    | nil => simp [matchesClasses] at h
    | cons u s =>
      rw [matchesClasses, Bool.and_eq_true] at h
      intro v hv
      rcases mem_cons.mp hv with rfl | hv
      · exact hclasses c mem_cons_self v h.1
      · exact ih (fun c' hc' => hclasses c' (mem_cons_of_mem c hc')) h.2 v hv

theorem length_of_matchesClasses {s : JsString} (h : matchesClasses classes s = true) :
    s.length = classes.length := by
  fun_induction matchesClasses classes s with
  | case1 => rfl
  | case2 c cs u s ih =>
    rw [Bool.and_eq_true] at h
    rw [length_cons, length_cons, ih h.2]
  | case3 => cases h

theorem ascii_of_mem_hexDigits {n : ℕ} : ∀ c ∈ hexDigits n, ∀ u, c u = true → u.toNat < 128 := by
  intro c hc u hu
  rw [eq_of_mem_replicate hc, isHexDigit] at hu
  simp only [Bool.or_eq_true, Bool.and_eq_true, decide_eq_true_eq] at hu
  omega

theorem ascii_of_mem_literally {text : JsString} (htext : IsAscii text) :
    ∀ c ∈ literally text, ∀ u, c u = true → u.toNat < 128 := by
  intro c hc u hu
  obtain ⟨v, hv, rfl⟩ := mem_map.mp hc
  rw [← eq_of_beq hu]
  exact htext v hv

theorem isAscii_js_dash : IsAscii (js "-") := isAscii_of_all (by decide +kernel)

/-- The validator admits ASCII text of one to `n` units only. -/
structure Plain (validate : JsString → TrustExcept Unit) (n : ℕ) : Prop where
  ascii : ∀ {s}, validate s = .ok () → IsAscii s
  pos : ∀ {s}, validate s = .ok () → 0 < s.length
  le : ∀ {s}, validate s = .ok () → s.length ≤ n

/-- A validator that is a match of ASCII classes is plain. -/
theorem plain_of_matchesClasses {validate : JsString → TrustExcept Unit}
    (hvalidate : ∀ {s}, validate s = .ok () → matchesClasses classes s = true)
    (hclasses : ∀ c ∈ classes, ∀ u, c u = true → u.toNat < 128) (hpos : 0 < classes.length) :
    Plain validate classes.length where
  ascii h := isAscii_of_matchesClasses hclasses (hvalidate h)
  pos h := (length_of_matchesClasses (hvalidate h)).symm ▸ hpos
  le h := (length_of_matchesClasses (hvalidate h)).le

theorem eq_true_of_ite_eq_ok {b : Bool} {e : RuntimeTrustErrorCode}
    (h : (if b then .ok () else .error e : TrustExcept Unit) = .ok ()) : b = true := by
  by_contra hb
  rw [if_neg hb] at h
  cases h

theorem plain_assertCanonicalUuid : Plain assertCanonicalUuid 36 := by
  refine plain_of_matchesClasses eq_true_of_ite_eq_ok (fun c hc => ?_) ?_
  · simp only [uuidClasses, mem_append] at hc
    rcases hc with ((((((((hc | hc) | hc) | hc) | hc) | hc) | hc) | hc) | hc)
    all_goals first
      | exact ascii_of_mem_hexDigits c hc
      | exact ascii_of_mem_literally isAscii_js_dash c hc
  · decide

theorem plain_assertFingerprint : Plain assertFingerprint 64 :=
  plain_of_matchesClasses eq_true_of_ite_eq_ok ascii_of_mem_hexDigits (by decide)

/-- `assertRuntimeId` is plain, when the kind it asks for is ASCII. -/
theorem plain_assertRuntimeId {kind : String} (hkind : IsAscii (js kind)) :
    Plain (fun item => assertRuntimeId item kind) ((js kind).length + 65) := by
  have hlength : (literally (js kind) ++ literally (js "-") ++ hexDigits 64).length =
      (js kind).length + 65 := by
    simp only [literally, hexDigits, length_append, length_map, length_replicate]
    rfl
  rw [← hlength]
  refine plain_of_matchesClasses eq_true_of_ite_eq_ok (fun c hc => ?_) (by omega)
  rw [mem_append, mem_append] at hc
  rcases hc with ((hc | hc) | hc)
  · exact ascii_of_mem_literally hkind c hc
  · exact ascii_of_mem_literally isAscii_js_dash c hc
  · exact ascii_of_mem_hexDigits c hc

theorem ascii_of_isBoundaryUnit {u : CodeUnit} (h : isBoundaryUnit u = true) : u.toNat < 128 := by
  simp only [isBoundaryUnit, Bool.or_eq_true, Bool.and_eq_true, decide_eq_true_eq,
    beq_iff_eq] at h
  rcases h with (((((h | h) | h) | rfl) | rfl) | rfl) | rfl
  all_goals first | omega | decide

theorem assertBoundaryIdentifier_eq_ok {s : JsString} (h : assertBoundaryIdentifier s = .ok ()) :
    1 ≤ s.length ∧ s.length ≤ 128 ∧ ∀ u ∈ s, isBoundaryUnit u = true := by
  have hall := eq_true_of_ite_eq_ok h
  simp only [Bool.and_eq_true, decide_eq_true_eq, all_eq_true] at hall
  exact ⟨hall.1.1, hall.1.2, hall.2⟩

theorem plain_assertBoundaryIdentifier : Plain assertBoundaryIdentifier 128 where
  ascii h u hu := ascii_of_isBoundaryUnit ((assertBoundaryIdentifier_eq_ok h).2.2 u hu)
  pos h := (assertBoundaryIdentifier_eq_ok h).1
  le h := (assertBoundaryIdentifier_eq_ok h).2.1

end ZimaControl.RuntimeTrust
